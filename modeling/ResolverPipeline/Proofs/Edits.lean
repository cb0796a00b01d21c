import ResolverPipeline.Proofs.Compilation
import ResolverPipeline.Proofs.FieldMap
import ResolverPipeline.Proofs.StashContract

namespace ResolverPipeline

variable {handles : Handles} {app : AppConfig} {operation : Operation} {field : String}

section Appending

theorem assembleAll_append (p : Pipeline) (ds es : List Descriptor) :
    assembleAll handles app p (ds ++ es) =
      assembleAll handles app p ds >>= fun p => assembleAll handles app p es := by
  induction ds generalizing p with
  | nil => rw [List.nil_append, assembleAll, pure_bind]
  | cons d rest ih => simp only [List.cons_append, assembleAll, ih, bind_assoc]

theorem assemble_of_executable {ds : List Descriptor} (h : ∃ d ∈ ds, d.isExecutable = true) :
    assemble handles app operation field ds = assembleAll handles app (.new operation field) ds := by
  obtain ⟨d, hd, hexec⟩ := h
  have hempty : ds.isEmpty = false := List.isEmpty_eq_false_iff_exists_mem.2 ⟨d, hd⟩
  have hany : ds.any Descriptor.isExecutable = true := List.any_eq_true.2 ⟨d, hd, hexec⟩
  simp [assemble, hempty, hany]

theorem assembleNext_extends {p p' : Pipeline} {d : Descriptor}
    (h : (assembleNext handles app p d).result = .ok p') :
    p.steps <+: p'.steps ∧ p'.extraFields = d.mergeInto p.extraFields := by
  rw [assembleNext_result] at h
  cases hd : d.step? handles app p.nextName p.nextScope with
  | none =>
    rw [hd] at h
    cases h
    exact ⟨List.prefix_rfl, rfl⟩
  | some built =>
    simp only [hd, bind_eq_ok, mapError_eq_ok, Pipeline.push_eq_ok] at h
    obtain ⟨step, -, -, rfl⟩ := h
    exact ⟨List.prefix_append p.steps [step], (Descriptor.mergeInto_of_step? hd _).symm⟩

theorem assembleAll_extends {p p' : Pipeline} {ds : List Descriptor}
    (h : (assembleAll handles app p ds).result = .ok p') :
    p.steps <+: p'.steps ∧ p'.extraFields = ds.foldl Descriptor.mergeInto p.extraFields := by
  induction ds generalizing p with
  | nil =>
    cases h
    exact ⟨List.prefix_rfl, rfl⟩
  | cons d rest ih =>
    rw [assembleAll, Traced.result_bind, bind_eq_ok] at h
    obtain ⟨q, hq, h⟩ := h
    obtain ⟨hsteps, hextra⟩ := assembleNext_extends hq
    obtain ⟨hsteps', hextra'⟩ := ih h
    exact ⟨hsteps.trans hsteps', by rw [hextra', hextra, List.foldl_cons]⟩

/-- Assembling is one pass: what stands behind a list that executes something is worked into the
pipeline of that list, if there is one, and makes no difference to its error, if there is none. -/
theorem assemble_onePass {ds es : List Descriptor} (hexec : ∃ d ∈ ds, d.isExecutable = true) :
    assemble handles app operation field (ds ++ es) =
        assemble handles app operation field ds >>= (assembleAll handles app · es) ∧
      (∀ e, (assemble handles app operation field ds).result = .error e →
        (assemble handles app operation field (ds ++ es)).result = .error e) ∧
      ∀ p p', (assemble handles app operation field ds).result = .ok p →
        (assemble handles app operation field (ds ++ es)).result = .ok p' →
        p.steps <+: p'.steps ∧ p'.extraFields = es.foldl Descriptor.mergeInto p.extraFields := by
  have hexec' : ∃ d ∈ ds ++ es, d.isExecutable = true := by
    obtain ⟨d, hd, h⟩ := hexec
    exact ⟨d, List.mem_append_left es hd, h⟩
  have happend : assemble handles app operation field (ds ++ es) =
      assemble handles app operation field ds >>= (assembleAll handles app · es) := by
    rw [assemble_of_executable hexec, assemble_of_executable hexec', assembleAll_append]
  refine ⟨happend, fun e h => ?_, fun p p' h h' => ?_⟩
  · rw [happend, Traced.result_bind, h, except_error_bind]
  · rw [happend, Traced.result_bind, h, except_ok_bind] at h'
    exact assembleAll_extends h'

theorem earlyGuard_onePass :
    (assemble {} { name := "notes" } .query "note"
        ([.add (.ofList [("k", "1")]), .guard "#owner" "profile"] ++
          [.db ⟨.get, none, none⟩, .guard "" "$"])).result =
      .error (.reference "step 'qnoteguard0' pk" (.resultNotAvailable "#owner")) ∧
    ∃ p p', (assemble {} { name := "notes" } .query "note"
        [.add (.ofList [("k", "1")]), .guard "$owner" "profile"]).result = .ok p ∧
      (assemble {} { name := "notes" } .query "note"
        ([.add (.ofList [("k", "1")]), .guard "$owner" "profile"] ++
          [.add (.ofList [("j", "2"), ("k", "3")]), .db ⟨.get, none, none⟩])).result = .ok p' ∧
      p.steps <+: p'.steps ∧ p'.extraFields = p.extraFields.merge (.ofList [("j", "2"), ("k", "3")]) ∧
      p'.stepNames = ["qnoteguard0", "qnotedbget1"] ∧
      p'.extraFields.entries = [("k", "3"), ("j", "2")] := by
  constructor
  · exact (assemble_onePass ⟨_, List.mem_cons_of_mem _ List.mem_cons_self, rfl⟩).2.1 _
      (by decide +kernel)
  · have hp : (assemble {} { name := "notes" } .query "note"
        [.add (.ofList [("k", "1")]), .guard "$owner" "profile"]).result.isOk = true := by
      decide +kernel
    have hp' : (assemble {} { name := "notes" } .query "note"
        ([.add (.ofList [("k", "1")]), .guard "$owner" "profile"] ++
          [.add (.ofList [("j", "2"), ("k", "3")]), .db ⟨.get, none, none⟩])).result.map
        (fun p => (p.stepNames, p.extraFields.entries)) =
        .ok (["qnoteguard0", "qnotedbget1"], [("k", "3"), ("j", "2")]) := by
      decide +kernel
    obtain ⟨p, hp⟩ := exists_ok_of_isOk hp
    obtain ⟨p', hp', hshown⟩ := map_eq_ok.1 hp'
    obtain ⟨hsteps, hextra⟩ :=
      (assemble_onePass ⟨_, List.mem_cons_of_mem _ List.mem_cons_self, rfl⟩).2.2 p p' hp hp'
    exact ⟨p, p', hp, hp', hsteps, hextra, (Prod.mk.inj hshown).1, (Prod.mk.inj hshown).2⟩

end Appending

section Adding

namespace Pipeline

def withExtra (p : Pipeline) (extra : FieldMap) : Pipeline := { p with extraFields := extra }

theorem push_withExtra (p : Pipeline) (extra : FieldMap) (step : Step) :
    (p.withExtra extra).push step = (·.withExtra extra) <$> p.push step := by
  simp only [push, withExtra, has]
  cases step.reads.find? fun slot => !p.stash.has slot with
  | some slot => rfl
  | none => by_cases h : step.name ∈ p.steps.map Step.name <;> simp [h]

theorem extend_withExtra (p : Pipeline) (extra : FieldMap) (step : Step) :
    (p.withExtra extra).extend step = (·.withExtra extra) <$> p.extend step := by
  simp only [extend, map_bind, push_withExtra]
  cases p.push step <;> rfl

end Pipeline

theorem assembleNext_withExtra {d : Descriptor} (h : d.isExecutable = true) (p : Pipeline)
    (extra : FieldMap) :
    assembleNext handles app (p.withExtra extra) d =
      (·.withExtra extra) <$> assembleNext handles app p d := by
  have hname : ∀ kind, (p.withExtra extra).nextName kind = p.nextName kind := fun _ => rfl
  have hscope : (p.withExtra extra).nextScope = p.nextScope := rfl
  cases d with
  | add fields => cases h
  | guard pk sk => simp only [assembleNext, hname, hscope, Pipeline.extend_withExtra, map_bind]
  | db access =>
    simp only [assembleNext, hname, Pipeline.extend_withExtra]
    split <;> simp only [map_bind]
  | emit event data => simp only [assembleNext, hname, hscope, Pipeline.extend_withExtra, map_bind]

theorem assembleAll_withExtra (p : Pipeline) (extra : FieldMap) (ds : List Descriptor) :
    assembleAll handles app (p.withExtra extra) ds =
      (·.withExtra (ds.foldl Descriptor.mergeInto extra)) <$>
        assembleAll handles app p (ds.filter Descriptor.isExecutable) := by
  -- Steps are pushed whatever the extra fields are, so each of the two goes its own way.
  induction ds generalizing p extra with
  | nil => rfl
  | cons d rest ih =>
    cases hd : d.isExecutable with
    | false =>
      obtain ⟨fields, rfl⟩ := Descriptor.isExecutable_eq_false.1 hd
      exact ih p (extra.merge fields)
    | true =>
      rw [List.filter_cons_of_pos hd, assembleAll, assembleNext_withExtra hd, bind_map_left]
      simp only [ih, assembleAll, map_bind, List.foldl_cons, Descriptor.mergeInto_of_isExecutable hd]

theorem any_isExecutable_eq (ds : List Descriptor) :
    ds.any Descriptor.isExecutable = !(ds.filter Descriptor.isExecutable).isEmpty := by
  induction ds with
  | nil => rfl
  | cons d rest ih => cases hd : d.isExecutable <;> simp [hd, ih]

theorem assemble_congr {ds ds' : List Descriptor} (hempty : ds.isEmpty = ds'.isEmpty)
    (hexec : ds.filter Descriptor.isExecutable = ds'.filter Descriptor.isExecutable)
    (hmerged : mergedFields ds = mergedFields ds') :
    assemble handles app operation field ds = assemble handles app operation field ds' := by
  have hrun : ∀ es, assembleAll handles app (.new operation field) es =
      (·.withExtra (mergedFields es)) <$>
        assembleAll handles app (.new operation field) (es.filter Descriptor.isExecutable) :=
    assembleAll_withExtra (.new operation field) .empty
  simp only [assemble, any_isExecutable_eq, hempty, hexec]
  rw [hrun ds, hrun ds', hexec, hmerged]

theorem foldl_mergeInto_filter (ds : List Descriptor) (extra : FieldMap) :
    (ds.filter (!·.isExecutable)).foldl Descriptor.mergeInto extra =
      ds.foldl Descriptor.mergeInto extra := by
  induction ds generalizing extra with
  | nil => rfl
  | cons d rest ih =>
    rw [List.foldl_cons]
    cases hd : d.isExecutable with
    | false =>
      rw [List.filter_cons_of_pos (by rw [hd]; rfl), List.foldl_cons, ih]
    | true =>
      rw [List.filter_cons_of_neg (by simp [hd]), ih, Descriptor.mergeInto_of_isExecutable hd]

theorem mergedFields_filter (ds : List Descriptor) :
    mergedFields (ds.filter (!·.isExecutable)) = mergedFields ds :=
  foldl_mergeInto_filter ds .empty

theorem isEmpty_eq_filters (ds : List Descriptor) :
    ds.isEmpty = ((ds.filter Descriptor.isExecutable).isEmpty &&
      (ds.filter (!·.isExecutable)).isEmpty) := by
  cases ds with
  | nil => rfl
  | cons d rest => cases hd : d.isExecutable <;> simp [hd]

/-- It makes no difference where the `add` descriptors of a list stand among the others, nor whether
one of them carries what all of them come to. -/
theorem assemble_adds_anywhere :
    (∀ ds ds' : List Descriptor,
      ds.filter Descriptor.isExecutable = ds'.filter Descriptor.isExecutable →
      ds.filter (!·.isExecutable) = ds'.filter (!·.isExecutable) →
      assemble handles app operation field ds = assemble handles app operation field ds' ∧
      compileField handles app operation field (.pipeline ds) =
        compileField handles app operation field (.pipeline ds')) ∧
    ∀ ds ds' : List Descriptor, ds ≠ [] →
      ds.filter Descriptor.isExecutable = ds'.filter Descriptor.isExecutable →
      ds'.filter (!·.isExecutable) = [.add (mergedFields ds)] →
      assemble handles app operation field ds = assemble handles app operation field ds' ∧
      compileField handles app operation field (.pipeline ds) =
        compileField handles app operation field (.pipeline ds') := by
  have hfield : ∀ {ds ds' : List Descriptor},
      assemble handles app operation field ds = assemble handles app operation field ds' →
      compileField handles app operation field (.pipeline ds) =
        compileField handles app operation field (.pipeline ds') := by
    intro ds ds' h
    simp only [compileField, compilePipeline, h]
  constructor
  · intro ds ds' hexec hadd
    have h : assemble handles app operation field ds = assemble handles app operation field ds' := by
      apply assemble_congr _ hexec
      · rw [← mergedFields_filter, hadd, mergedFields_filter]
      · rw [isEmpty_eq_filters, isEmpty_eq_filters ds', hexec, hadd]
    exact ⟨h, hfield h⟩
  · intro ds ds' hne hexec hadd
    have h : assemble handles app operation field ds = assemble handles app operation field ds' := by
      apply assemble_congr _ hexec
      · rw [← mergedFields_filter ds', hadd]
        exact (FieldMap.empty_merge (mergedFields ds)).symm
      · rw [isEmpty_eq_filters ds', hadd]
        simpa using hne
    exact ⟨h, hfield h⟩

def scatteredAdds : List Descriptor :=
  [.add (.ofList [("sk", "note_@id"), ("k", "1")]), .db ⟨.create, some "notes", none⟩,
    .add (.ofList [("j", "$x"), ("k", "2")]), .emit "created" (.ofList [("sk", "#sk")]),
    .add (.ofList [("sk", "note")])]

theorem scatteredAdds_anywhere :
    (assemble {} { name := "notes" } .mutation "createNote" scatteredAdds =
        assemble {} { name := "notes" } .mutation "createNote"
          [.db ⟨.create, some "notes", none⟩, .add (.ofList [("sk", "note_@id"), ("k", "1")]),
            .add (.ofList [("j", "$x"), ("k", "2")]), .add (.ofList [("sk", "note")]),
            .emit "created" (.ofList [("sk", "#sk")])] ∧
      assemble {} { name := "notes" } .mutation "createNote" scatteredAdds =
        assemble {} { name := "notes" } .mutation "createNote"
          [.db ⟨.create, some "notes", none⟩, .emit "created" (.ofList [("sk", "#sk")]),
            .add (.ofList [("sk", "note"), ("k", "2"), ("j", "$x")])]) ∧
    ∃ f, (compileField {} { name := "notes" } .mutation "createNote"
        (.pipeline scatteredAdds)).result = .ok f ∧
      f.functions = ["mcreateNotedbcreate0", "mcreateNoteemit1"] := by
  have hfield : (compileField {} { name := "notes" } .mutation "createNote"
      (.pipeline scatteredAdds)).result.map CompiledField.functions =
        .ok ["mcreateNotedbcreate0", "mcreateNoteemit1"] := by
    decide +kernel
  exact ⟨⟨(assemble_adds_anywhere.1 _ _ (by decide +kernel) (by decide +kernel)).1,
    (assemble_adds_anywhere.2 _ _ (by decide) (by decide +kernel) (by decide +kernel)).1⟩,
    map_eq_ok.1 hfield⟩

end Adding

section Inserting

theorem resolve_mono {value : String} {stored stored' : Bool} {e : Expression}
    (hle : stored = true → stored' = true) (h : resolve value (.pipeline stored) = .ok e) :
    resolve value (.pipeline stored') = .ok e := by
  obtain ⟨kind, base, hbase, rfl⟩ := resolve_eq_ok.1 h
  refine resolve_eq_ok.2 ⟨kind, base, ?_, rfl⟩
  cases hbase with
  | input hne hp => exact .input hne hp
  | result hscope hne hp =>
    cases hscope
    exact .result (by rw [hle rfl]) hne hp
  | literal hp => exact .literal hp

theorem slotsRead_pipeline (exprs : List Expression) (stored stored' : Bool) :
    Step.slotsRead exprs (.pipeline stored) = Step.slotsRead exprs (.pipeline stored') := by
  have hreads : ∀ e : Expression, e.reads (.pipeline stored) = e.reads (.pipeline stored') := by
    rintro ⟨kind, fresh, text⟩
    cases kind <;> rfl
  have hnote : Step.noteRead (.pipeline stored) = Step.noteRead (.pipeline stored') := by
    funext slots e
    rw [Step.noteRead, Step.noteRead, hreads]
  rw [Step.slotsRead, Step.slotsRead, hnote]

theorem Descriptor.Builds.moved {d : Descriptor} {name : StepKind → String} {s : Step}
    {stored stored' : Bool} (h : d.Builds handles app name (.pipeline stored) s)
    (name' : StepKind → String) (hle : stored = true → stored' = true) :
    d.Builds handles app name' (.pipeline stored') { s with name := name' s.kind } := by
  cases h with
  | @guard pk sk p k hp hk =>
    -- What a step declares to read is noted in its scope, but comes out the same in both.
    have hmoved : Builds handles app name' (.pipeline stored') (.guard pk sk)
        (Step.guardOf handles (name' .guard) p k (.pipeline stored')) :=
      .guard (resolve_mono hle hp) (resolve_mono hle hk)
    rwa [Step.guardOf, slotsRead_pipeline _ stored' stored] at hmoved
  | db access => exact .db access
  | @emit event data detail hsource hbus hevent hdetail =>
    have hdetail' : List.Forall₂ (ResolvedEntry (.pipeline stored')) data.entries detail :=
      hdetail.imp fun _ _ hr => ⟨hr.plain_key, hr.key_eq, resolve_mono hle hr.resolve_eq⟩
    have hmoved : Builds handles app name' (.pipeline stored') (.emit event data)
        (Step.emitOf handles (name' .emitEvent) detail app.eventSource app.eventBusOrDefault event
          (.pipeline stored')) :=
      .emit hsource hbus hevent hdetail'
    rwa [Step.emitOf, slotsRead_pipeline _ stored' stored] at hmoved

/-- Steps with other ordinals in their names, from `n` on, and all else as it was. -/
def renumber (operation : Operation) (field : String) (n : Nat) : List Step → List Step
  | [] => []
  | s :: rest =>
    { s with name := stepName operation field s.kind n } :: renumber operation field (n + 1) rest

theorem stepsFrom_cons_of_builds {n : Nat} {stored : Bool} {d : Descriptor} {rest : List Descriptor}
    {s : Step} {steps : List Step}
    (hd : d.Builds handles app (stepName operation field · n) (.pipeline stored) s)
    (h : stepsFrom handles app operation field (n + 1) (stored || d.stores) rest = .ok steps) :
    stepsFrom handles app operation field n stored (d :: rest) = .ok (s :: steps) := by
  rw [stepsFrom_cons_of_some (Descriptor.builds_iff.1 hd), h]
  rfl

theorem stepsFrom_moved {n : Nat} {stored stored' : Bool} {ds : List Descriptor} {steps : List Step}
    (h : stepsFrom handles app operation field n stored ds = .ok steps) (m : Nat)
    (hle : stored = true → stored' = true) :
    stepsFrom handles app operation field m stored' ds =
      .ok (renumber operation field m steps) := by
  induction ds generalizing n m stored stored' steps with
  | nil =>
    cases h
    rfl
  | cons d rest ih =>
    obtain ⟨hadd, htail⟩ | ⟨step, tail, hd, htail, rfl⟩ := stepsFrom_cons_ok h
    · rw [stepsFrom_cons_of_none (Descriptor.step?_eq_none.2 hadd)]
      exact ih htail m hle
    · have hle' : (stored || d.stores) = true → (stored' || d.stores) = true := by
        simp only [Bool.or_eq_true]
        exact Or.imp_left hle
      exact stepsFrom_cons_of_builds (hd.moved _ hle) (ih htail (m + 1) hle')

def stepCount (ds : List Descriptor) : Nat := ds.countP Descriptor.isExecutable

theorem stepCount_eq_length {n : Nat} {stored : Bool} {ds : List Descriptor} {steps : List Step}
    (h : stepsFrom handles app operation field n stored ds = .ok steps) :
    stepCount ds = steps.length := by
  rw [stepCount, List.countP_eq_length_filter]
  exact (stepsFrom_builds h).length_eq

theorem stepsFrom_append {n : Nat} {stored : Bool} {ds es : List Descriptor} {steps : List Step} :
    stepsFrom handles app operation field n stored (ds ++ es) = .ok steps ↔ ∃ xs ys,
      stepsFrom handles app operation field n stored ds = .ok xs ∧
      stepsFrom handles app operation field (n + stepCount ds) (stored || ds.any Descriptor.stores)
        es = .ok ys ∧ xs ++ ys = steps := by
  induction ds generalizing n stored steps with
  | nil => simp [stepsFrom, stepCount]
  | cons d rest ih =>
    rw [List.cons_append]
    cases hd : d.step? handles app (stepName operation field · n) (.pipeline stored) with
    | none =>
      have hexec : d.isExecutable = false := Descriptor.step?_eq_none.1 hd
      have hstores : d.stores = false := by
        obtain ⟨fields, rfl⟩ := Descriptor.isExecutable_eq_false.1 hexec
        rfl
      have hcount : stepCount (d :: rest) = stepCount rest := by simp [stepCount, hexec]
      rw [stepsFrom_cons_of_none hd, stepsFrom_cons_of_none hd, ih, hcount, List.any_cons, hstores,
        Bool.false_or]
    | some built =>
      have hexec : d.isExecutable = true := Descriptor.isExecutable_of_step? hd
      have hcount : n + stepCount (d :: rest) = n + 1 + stepCount rest := by
        simp [stepCount, hexec]
        omega
      rw [stepsFrom_cons_of_some hd, stepsFrom_cons_of_some hd, hcount, List.any_cons,
        ← Bool.or_assoc]
      simp only [bind_eq_ok, ih, except_pure, Except.ok.injEq]
      constructor
      · rintro ⟨step, hstep, _, ⟨xs, ys, hxs, hys, rfl⟩, rfl⟩
        exact ⟨step :: xs, ys, ⟨step, hstep, xs, hxs, rfl⟩, hys, rfl⟩
      · rintro ⟨_, ys, ⟨step, hstep, xs, hxs, rfl⟩, hys, rfl⟩
        exact ⟨step, hstep, xs ++ ys, ⟨xs, ys, hxs, hys, rfl⟩, rfl⟩

/-- A store operation put between descriptors becomes a step at its place.  The steps in front of it
stay as they are, those behind it too but for their ordinals, and so do the extra fields. -/
theorem assemble_insert_data {ds es : List Descriptor} {p : Pipeline} (access : DbAccess)
    (h : (assemble handles app operation field (ds ++ es)).result = .ok p) :
    ∃ p' s, (assemble handles app operation field (ds ++ [.db access] ++ es)).result = .ok p' ∧
      p'.extraFields = p.extraFields ∧ stepCount ds ≤ p.size ∧
      Step.data handles (stepName operation field (.ofAction access.action) (stepCount ds))
        access.action = .ok s ∧
      p'.steps = p.steps.take (stepCount ds) ++
        s :: renumber operation field (stepCount ds + 1) (p.steps.drop (stepCount ds)) ∧
      p.steps.drop (stepCount ds) =
        renumber operation field (stepCount ds) (p.steps.drop (stepCount ds)) := by
  obtain ⟨_, hsteps, rfl⟩ := steps_of_assemble h
  obtain ⟨xs, ys, hxs, hys, rfl⟩ := stepsFrom_append.1 hsteps
  rw [Nat.zero_add, Bool.false_or] at hys
  have hcount : stepCount ds = xs.length := stepCount_eq_length hxs
  have htake : (xs ++ ys).take (stepCount ds) = xs := by rw [hcount, List.take_left]
  have hdrop : (xs ++ ys).drop (stepCount ds) = ys := by rw [hcount, List.drop_left]
  let s := Step.dataOf handles (stepName operation field (.ofAction access.action) (stepCount ds))
    access.action
  have hinserted : stepsFrom handles app operation field 0 false (ds ++ [.db access] ++ es) =
      .ok (xs ++ s :: renumber operation field (stepCount ds + 1) ys) := by
    rw [List.append_assoc]
    refine stepsFrom_append.2 ⟨xs, _, hxs, ?_, rfl⟩
    rw [Nat.zero_add, Bool.false_or]
    apply stepsFrom_cons_of_builds (.db access)
    exact stepsFrom_moved hys _ fun _ => by simp [Descriptor.stores]
  have hexec : (ds ++ [Descriptor.db access] ++ es).any Descriptor.isExecutable = true := by
    simp [Descriptor.isExecutable]
  have hmerged : mergedFields (ds ++ [.db access] ++ es) = mergedFields (ds ++ es) := by
    simp [mergedFields, Descriptor.mergeInto]
  have hsame : ys = renumber operation field (stepCount ds) ys := by
    have hmoved := stepsFrom_moved hys (stepCount ds) id
    rw [hys] at hmoved
    exact Except.ok.inj hmoved
  refine ⟨.ofSteps operation field (xs ++ s :: renumber operation field (stepCount ds + 1) ys)
    (mergedFields (ds ++ es)), s, ?_, rfl, ?_, Step.data_eq _ _ _, ?_, ?_⟩
  · rw [assemble_result, hexec, hinserted, hmerged]
    simp
  · simp [Pipeline.size, hcount]
  · rw [Pipeline.steps_ofSteps, Pipeline.steps_ofSteps, htake, hdrop]
  · rw [Pipeline.steps_ofSteps, hdrop]
    exact hsame

theorem guardedEmit_insert_data :
    ∃ p p', (assemble {} { name := "notes" } .mutation "share"
        ([.add (.ofList [("k", "1")]), .guard "$owner" "profile"] ++
          [.emit "seen" (.ofList [("owner", "$owner")]), .db ⟨.get, none, none⟩])).result = .ok p ∧
      (assemble {} { name := "notes" } .mutation "share"
        ([.add (.ofList [("k", "1")]), .guard "$owner" "profile"] ++ [.db ⟨.list, some "x", none⟩] ++
          [.emit "seen" (.ofList [("owner", "$owner")]), .db ⟨.get, none, none⟩])).result = .ok p' ∧
      p'.extraFields = p.extraFields ∧
      p.stepNames = ["mshareguard0", "mshareemit1", "msharedbget2"] ∧
      p'.stepNames = ["mshareguard0", "msharedbquery1", "mshareemit2", "msharedbget3"] := by
  have hp : (assemble {} { name := "notes" } .mutation "share"
      ([.add (.ofList [("k", "1")]), .guard "$owner" "profile"] ++
        [.emit "seen" (.ofList [("owner", "$owner")]), .db ⟨.get, none, none⟩])).result.map
      Pipeline.stepNames = .ok ["mshareguard0", "mshareemit1", "msharedbget2"] := by
    decide +kernel
  have hp' : (assemble {} { name := "notes" } .mutation "share"
      ([.add (.ofList [("k", "1")]), .guard "$owner" "profile"] ++ [.db ⟨.list, some "x", none⟩] ++
        [.emit "seen" (.ofList [("owner", "$owner")]), .db ⟨.get, none, none⟩])).result.map
      Pipeline.stepNames =
        .ok ["mshareguard0", "msharedbquery1", "mshareemit2", "msharedbget3"] := by
    decide +kernel
  obtain ⟨p, hp, hnames⟩ := map_eq_ok.1 hp
  obtain ⟨p', s, hinserted, hextra, -⟩ := assemble_insert_data ⟨.list, some "x", none⟩ hp
  obtain ⟨q, hq, hnames'⟩ := map_eq_ok.1 hp'
  rw [hinserted, Except.ok.injEq] at hq
  exact ⟨p, p', hp, hinserted, hextra, hnames, hq ▸ hnames'⟩

end Inserting

end ResolverPipeline
