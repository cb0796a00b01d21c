import ResolverPipeline.Proofs.Acceptance
import ResolverPipeline.Proofs.Edits
import ResolverPipeline.Proofs.Faults

namespace ResolverPipeline

variable {handles : Handles} {app : AppConfig} {operation : Operation} {field : String}

def Descriptor.kind? : Descriptor → Option StepKind
  | .add _ => none
  | .guard _ _ => some .guard
  | .db access => some (.ofAction access.action)
  | .emit _ _ => some .emitEvent

theorem Descriptor.Builds.kind?_eq {d : Descriptor} {name : StepKind → String} {scope : Scope}
    {s : Step} (h : d.Builds handles app name scope s) : d.kind? = some s.kind := by
  cases h <;> rfl

/-- That the step at ordinal `k` is the one made from the descriptor at position `i`: the `k`-th that
is executed, built in the scope that its position gives. -/
structure Step.StandsFor (handles : Handles) (app : AppConfig) (operation : Operation)
    (field : String) (ds : List Descriptor) (i : Nat) (d : Descriptor) (k : Nat) (s : Step) :
    Prop where
  descriptor : ds[i]? = some d
  ordinal : stepCount (ds.take i) = k
  kind : d.kind? = some s.kind
  name : s.name = stepName operation field s.kind k
  built : d.step? handles app (stepName operation field · k) (.pipeline (storedBefore ds i)) =
    some (.ok s)

structure Pipeline.Mirrors (handles : Handles) (app : AppConfig) (operation : Operation)
    (field : String) (ds : List Descriptor) (p : Pipeline) : Prop where
  operation_eq : p.operation = operation
  field_eq : p.field = field
  size_pos : 0 < p.size
  size_eq : p.size = stepCount ds
  steps : ∀ k, (hk : k < p.size) → ∃ i d, p.steps[k].StandsFor handles app operation field ds i d k
  extra_keys : p.extraFields.keys = ((ds.flatMap Descriptor.added).map Prod.fst).eraseDups
  extra_values : ∀ key, p.extraFields.get? key = lastAdded ds key

theorem stepCount_take_succ (d : Descriptor) (ds : List Descriptor) (i : Nat) :
    stepCount ((d :: ds).take (i + 1)) = stepCount (ds.take i) + if d.isExecutable then 1 else 0 := by
  rw [List.take_succ_cons, stepCount, List.countP_cons, stepCount]

theorem stepsFrom_getElem {n : Nat} {stored : Bool} {ds : List Descriptor} {steps : List Step}
    (h : stepsFrom handles app operation field n stored ds = .ok steps) :
    ∀ k, (hk : k < steps.length) → ∃ i d, ds[i]? = some d ∧ stepCount (ds.take i) = k ∧
      d.Builds handles app (stepName operation field · (n + k))
        (.pipeline (stored || storedBefore ds i)) steps[k] := by
  induction ds generalizing n stored steps with
  | nil =>
    cases h
    intro k hk
    exact absurd hk (Nat.not_lt_zero k)
  | cons d rest ih =>
    obtain ⟨hadd, htail⟩ | ⟨step, tail, hd, htail, rfl⟩ := stepsFrom_cons_ok h
    · intro k hk
      obtain ⟨i, e, he, hcount, hbuilds⟩ := ih htail k hk
      obtain ⟨fields, rfl⟩ := Descriptor.isExecutable_eq_false.1 hadd
      refine ⟨i + 1, e, he, ?_, ?_⟩
      · rw [stepCount_take_succ, hcount, hadd]
        rfl
      · rwa [storedBefore_succ]
    · intro k hk
      cases k with
      | zero => exact ⟨0, d, rfl, rfl, by simpa [storedBefore_zero] using hd⟩
      | succ k =>
        obtain ⟨i, e, he, hcount, hbuilds⟩ := ih htail k (Nat.lt_of_succ_lt_succ hk)
        refine ⟨i + 1, e, he, ?_, ?_⟩
        · rw [stepCount_take_succ, hcount, hd.isExecutable]
          rfl
        · rw [Nat.add_assoc, Nat.add_comm 1] at hbuilds
          rwa [storedBefore_succ, ← Bool.or_assoc]

theorem isExecutable_of_assemble {ds : List Descriptor} {p : Pipeline}
    (h : (assemble handles app operation field ds).result = .ok p) :
    ∃ d ∈ ds, d.isExecutable = true := by
  rw [assemble_result] at h
  split at h
  · cases h
  · split at h
    · cases h
    · rename_i hany
      simpa using hany

theorem mirrors_of_assemble {ds : List Descriptor} {p : Pipeline}
    (h : (assemble handles app operation field ds).result = .ok p) :
    p.Mirrors handles app operation field ds := by
  obtain ⟨d, hd, hexec⟩ := isExecutable_of_assemble h
  obtain ⟨steps, hsteps, rfl⟩ := steps_of_assemble h
  have hsize : stepCount ds = steps.length := stepCount_eq_length hsteps
  constructor
  · rfl
  · rfl
  · rw [Pipeline.size, Pipeline.steps_ofSteps, ← hsize, stepCount, List.countP_pos_iff]
    exact ⟨d, hd, hexec⟩
  · rw [Pipeline.size, Pipeline.steps_ofSteps, hsize]
  · intro k hk
    obtain ⟨i, d, hd, hcount, hbuilds⟩ := stepsFrom_getElem hsteps k hk
    rw [Nat.zero_add, Bool.false_or] at hbuilds
    exact ⟨i, d, hd, hcount, hbuilds.kind?_eq, hbuilds.fits.name_eq, Descriptor.builds_iff.1 hbuilds⟩
  · rw [Pipeline.extraFields_ofSteps, mergedFields_eq, FieldMap.keys_ofList]
  · intro key
    rw [Pipeline.extraFields_ofSteps, mergedFields_eq, FieldMap.get?_ofList, lastAdded]

theorem assemble_onlyReferences {ds : List Descriptor} (h : ∃ d ∈ ds, d.isExecutable = true) :
    OnlyReferences (assemble handles app operation field ds).result := by
  rw [assemble_of_executable h, assembleAll_result (Pipeline.ordinary_new operation field)]
  exact .bind (.stepsFrom _ _ ds) fun _ => .ok _

theorem assemble_of_adds {ds : List Descriptor} (hne : ds ≠ [])
    (h : ∀ d ∈ ds, d.isExecutable = false) :
    (assemble handles app operation field ds).result = .error .noExecutableSteps := by
  have hempty : ds.isEmpty = false := by simpa using hne
  have hany : ds.any Descriptor.isExecutable = false := by simpa using h
  simp [assemble_result, hempty, hany]

theorem executable_or_adds (ds : List Descriptor) :
    ds = [] ∨ (ds ≠ [] ∧ ∀ d ∈ ds, d.isExecutable = false) ∨ ∃ d ∈ ds, d.isExecutable = true := by
  by_cases hexec : ∃ d ∈ ds, d.isExecutable = true
  · exact .inr (.inr hexec)
  · by_cases hne : ds = []
    · exact .inl hne
    · refine .inr (.inl ⟨hne, ?_⟩)
      simpa using hexec

theorem assemble_eq_emptyPipeline {ds : List Descriptor} :
    (assemble handles app operation field ds).result = .error .emptyPipeline ↔ ds = [] := by
  constructor
  · intro h
    obtain rfl | ⟨hne, hadds⟩ | hexec := executable_or_adds ds
    · rfl
    · rw [assemble_of_adds hne hadds] at h
      cases h
    · obtain ⟨_, _, heq⟩ := assemble_onlyReferences hexec _ h
      cases heq
  · rintro rfl
    rfl

theorem assemble_eq_noExecutableSteps {ds : List Descriptor} :
    (assemble handles app operation field ds).result = .error .noExecutableSteps ↔
      ds ≠ [] ∧ ∀ d ∈ ds, ∃ fields, d = .add fields := by
  simp only [← Descriptor.isExecutable_eq_false]
  constructor
  · intro h
    obtain rfl | hadds | hexec := executable_or_adds ds
    · cases h
    · exact hadds
    · obtain ⟨_, _, heq⟩ := assemble_onlyReferences hexec _ h
      cases heq
  · rintro ⟨hne, hadds⟩
    exact assemble_of_adds hne hadds

/-- A pipeline is told by its descriptors position by position, and nothing but a list without any to
execute is refused as such. -/
theorem assemble_byPositions (ds : List Descriptor) :
    (∀ p, (assemble handles app operation field ds).result = .ok p →
      p.Mirrors handles app operation field ds) ∧
    ((assemble handles app operation field ds).result = .error .emptyPipeline ↔ ds = []) ∧
    ((assemble handles app operation field ds).result = .error .noExecutableSteps ↔
      ds ≠ [] ∧ ∀ d ∈ ds, ∃ fields, d = .add fields) :=
  ⟨fun _ => mirrors_of_assemble, assemble_eq_emptyPipeline, assemble_eq_noExecutableSteps⟩

def interleaved : List Descriptor :=
  [.add (.ofList [("sk", "note_@id"), ("pk", "1")]), .guard "$owner" "profile",
    .add (.ofList [("at", "$now"), ("pk", "2")]), .db ⟨.list, some "notes", none⟩,
    .emit "listed" (.ofList [("id", "#sk")]), .add .empty, .db ⟨.create, none, none⟩]

theorem interleaved_byPositions :
    (∃ p, (assemble {} { name := "notes" } .mutation "note1" interleaved).result = .ok p ∧
      p.Mirrors {} { name := "notes" } .mutation "note1" interleaved ∧
      p.stepNames = ["mnote1guard0", "mnote1dbquery1", "mnote1emit2", "mnote1dbcreate3"] ∧
      p.extraFields.entries = [("sk", "note_@id"), ("pk", "2"), ("at", "$now")]) ∧
    (assemble {} { name := "notes" } .mutation "note1" [.add .empty]).result =
      .error .noExecutableSteps := by
  constructor
  · have hshown : (assemble {} { name := "notes" } .mutation "note1" interleaved).result.map
        (fun p => (p.stepNames, p.extraFields.entries)) =
        .ok (["mnote1guard0", "mnote1dbquery1", "mnote1emit2", "mnote1dbcreate3"],
          [("sk", "note_@id"), ("pk", "2"), ("at", "$now")]) := by
      decide +kernel
    obtain ⟨p, h, hp⟩ := map_eq_ok.1 hshown
    obtain ⟨hnames, hextra⟩ := Prod.mk.inj hp
    exact ⟨p, h, (assemble_byPositions interleaved).1 p h, hnames, hextra⟩
  · apply (assemble_byPositions [.add .empty]).2.2.2
    refine ⟨List.cons_ne_nil _ _, fun d hd => ⟨.empty, ?_⟩⟩
    exact List.mem_singleton.1 hd

end ResolverPipeline
