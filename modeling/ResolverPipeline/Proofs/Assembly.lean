import ResolverPipeline.Proofs.Builder
import ResolverPipeline.Proofs.StepName

namespace ResolverPipeline

variable {handles : Handles} {app : AppConfig}

namespace Descriptor

def step? (handles : Handles) (app : AppConfig) (name : StepKind → String) (scope : Scope) :
    Descriptor → Option (Except FieldError Step)
  | .add _ => none
  | .guard pk sk => some (Step.guard handles (name .guard) pk sk scope)
  | .db access => some (Step.data handles (name (.ofAction access.action)) access.action)
  | .emit event data => some (Step.emit handles (name .emitEvent) (app.envelope event data) scope)

def stores : Descriptor → Bool
  | .db _ => true
  | _ => false

def mergeInto (extra : FieldMap) : Descriptor → FieldMap
  | .add fields => extra.merge fields
  | _ => extra

end Descriptor

/-- The steps of descriptors from `ordinal` on, where `stored` says whether a result lies before. -/
def stepsFrom (handles : Handles) (app : AppConfig) (operation : Operation) (field : String)
    (ordinal : Nat) (stored : Bool) : List Descriptor → Except FieldError (List Step)
  | [] => .ok []
  | d :: rest =>
    match d.step? handles app (stepName operation field · ordinal) (.pipeline stored) with
    | none => stepsFrom handles app operation field ordinal stored rest
    | some built => do
      let step ← built
      return step ::
        (← stepsFrom handles app operation field (ordinal + 1) (stored || d.stores) rest)

def mergedFields (ds : List Descriptor) : FieldMap := ds.foldl Descriptor.mergeInto .empty

/-- Which step a descriptor becomes, and what has to hold of its texts for it to become one. -/
inductive Descriptor.Builds (handles : Handles) (app : AppConfig) (name : StepKind → String)
    (scope : Scope) : Descriptor → Step → Prop
  | guard {pk sk : String} {p k : Expression} :
      resolve pk scope = .ok p → resolve sk scope = .ok k →
      Builds handles app name scope (.guard pk sk) (.guardOf handles (name .guard) p k scope)
  | db (access : DbAccess) :
      Builds handles app name scope (.db access)
        (.dataOf handles (name (.ofAction access.action)) access.action)
  | emit {event : String} {data : FieldMap} {detail : List (String × Expression)} :
      Plain app.eventSource → Plain app.eventBusOrDefault → Plain event →
      List.Forall₂ (ResolvedEntry scope) data.entries detail →
      Builds handles app name scope (.emit event data)
        (.emitOf handles (name .emitEvent) detail app.eventSource app.eventBusOrDefault event scope)

theorem Descriptor.builds_iff {d : Descriptor} {name : StepKind → String} {scope : Scope} {s : Step} :
    d.Builds handles app name scope s ↔ d.step? handles app name scope = some (.ok s) := by
  constructor
  · intro h
    cases h with
    | guard hp hk => exact congrArg some (Step.guard_eq_ok.2 ⟨_, _, hp, hk, rfl⟩)
    | db access => rw [Descriptor.step?, Step.data_eq]
    | emit hsource hbus hevent hdetail =>
      exact congrArg some (Step.emit_eq_ok.2 ⟨hsource, hbus, hevent, _, hdetail, rfl⟩)
  · intro h
    cases d with
    | add fields => cases h
    | guard pk sk =>
      rw [Descriptor.step?, Option.some.injEq, Step.guard_eq_ok] at h
      obtain ⟨p, k, hp, hk, rfl⟩ := h
      exact .guard hp hk
    | db access =>
      rw [Descriptor.step?, Option.some.injEq, Step.data_eq, Except.ok.injEq] at h
      subst h
      exact .db access
    | emit event data =>
      rw [Descriptor.step?, Option.some.injEq, Step.emit_eq_ok] at h
      obtain ⟨hsource, hbus, hevent, detail, hdetail, rfl⟩ := h
      exact .emit hsource hbus hevent hdetail

namespace Descriptor.Builds

variable {d : Descriptor} {name : StepKind → String} {s : Step}

theorem fits {stored : Bool} (h : d.Builds handles app name (.pipeline stored) s) :
    s.Fits name stored := by
  cases h with
  | guard hp hk => exact Step.guardOf_fits hp hk
  | db access => exact Step.dataOf_fits
  | emit _ _ _ hdetail => exact Step.emitOf_fits hdetail

theorem isExecutable {scope : Scope} (h : d.Builds handles app name scope s) :
    d.isExecutable = true := by
  cases h <;> rfl

theorem stores_eq {scope : Scope} (h : d.Builds handles app name scope s) :
    d.stores = decide (s.writes = some .dbResult) := by
  cases h with
  | guard => rfl
  | db access =>
    obtain ⟨action, pk, sk⟩ := access
    cases action <;> rfl
  | emit => rfl

end Descriptor.Builds

theorem Descriptor.step?_eq_none {d : Descriptor} {name : StepKind → String} {scope : Scope} :
    d.step? handles app name scope = none ↔ d.isExecutable = false := by
  cases d <;> simp [Descriptor.step?, Descriptor.isExecutable]

theorem Descriptor.isExecutable_of_step? {d : Descriptor} {name : StepKind → String} {scope : Scope}
    {built : Except FieldError Step} (h : d.step? handles app name scope = some built) :
    d.isExecutable = true := by
  rw [← Bool.not_eq_false, ← Descriptor.step?_eq_none, h]
  exact Option.some_ne_none built

theorem Descriptor.isExecutable_eq_false {d : Descriptor} :
    d.isExecutable = false ↔ ∃ fields, d = .add fields := by
  cases d <;> simp [isExecutable]

theorem Descriptor.mergeInto_of_isExecutable {d : Descriptor} (h : d.isExecutable = true)
    (extra : FieldMap) : d.mergeInto extra = extra := by
  cases d with
  | add fields => cases h
  | _ => rfl

theorem Descriptor.mergeInto_of_step? {d : Descriptor} {name : StepKind → String} {scope : Scope}
    {built : Except FieldError Step} (h : d.step? handles app name scope = some built)
    (extra : FieldMap) : d.mergeInto extra = extra :=
  mergeInto_of_isExecutable (isExecutable_of_step? h) extra

namespace Pipeline

def append (p : Pipeline) (step : Step) : Pipeline :=
  { p with
    steps := p.steps ++ [step]
    stash := step.writes.elim p.stash p.stash.write }

@[simp] theorem steps_append (p : Pipeline) (step : Step) :
    (p.append step).steps = p.steps ++ [step] := rfl

@[simp] theorem operation_append (p : Pipeline) (step : Step) :
    (p.append step).operation = p.operation := rfl

@[simp] theorem field_append (p : Pipeline) (step : Step) : (p.append step).field = p.field := rfl

@[simp] theorem extraFields_append (p : Pipeline) (step : Step) :
    (p.append step).extraFields = p.extraFields := rfl

@[simp] theorem size_append (p : Pipeline) (step : Step) : (p.append step).size = p.size + 1 := by
  simp [size]

@[simp] theorem has_append (p : Pipeline) (step : Step) (slot : Slot) :
    (p.append step).has slot = (decide (step.writes = some slot) || p.has slot) := by
  cases h : step.writes with
  | none => simp [append, has, h]
  | some written => simp [append, has, h, eq_comm]

theorem push_of_reads {p : Pipeline} {step : Step} (hreads : ∀ slot ∈ step.reads, p.has slot)
    (hname : step.name ∉ p.stepNames) : p.push step = .ok (p.append step) := by
  have hfind : step.reads.find? (fun slot => !p.has slot) = none := by
    simpa using hreads
  rw [stepNames] at hname
  simp only [push, append, hfind, hname, if_false]

/-- What assembling keeps of a pipeline: the input is there, and every step has the name that goes
with its place. -/
structure Ordinary (p : Pipeline) : Prop where
  has_input : p.has .input = true
  names : ∀ n, (h : n < p.size) → p.steps[n].name = stepName p.operation p.field p.steps[n].kind n

theorem ordinary_new (operation : Operation) (field : String) : (new operation field).Ordinary :=
  ⟨rfl, fun _ h => absurd h (Nat.not_lt_zero _)⟩

theorem Ordinary.nextName_new {p : Pipeline} (h : p.Ordinary) (kind : StepKind) :
    p.nextName kind ∉ p.stepNames := by
  intro hmem
  obtain ⟨s, hs, hname⟩ := List.mem_map.1 hmem
  obtain ⟨n, hn, rfl⟩ := List.getElem_of_mem hs
  rw [h.names n hn, nextName] at hname
  exact absurd (stepName_inj hname).2.2.2 (Nat.ne_of_lt hn)

theorem Ordinary.push_ok {p : Pipeline} (h : p.Ordinary) {step : Step}
    (hs : step.Fits p.nextName (p.has .dbResult)) : p.push step = .ok (p.append step) := by
  apply push_of_reads
  · intro slot hslot
    obtain rfl | ⟨rfl, hstored⟩ := hs.reads slot hslot
    · exact h.has_input
    · exact hstored
  · rw [hs.name_eq]
    exact h.nextName_new step.kind

theorem Ordinary.append {p : Pipeline} (h : p.Ordinary) {step : Step}
    (hs : step.Fits p.nextName (p.has .dbResult)) : (p.append step).Ordinary := by
  constructor
  · simp [h.has_input]
  · intro n hn
    rw [size_append] at hn
    obtain hn | rfl := Nat.lt_succ_iff_lt_or_eq.1 hn
    · simpa [List.getElem_append_left hn] using h.names n hn
    · simpa [nextName, size] using hs.name_eq

def extendBy (p : Pipeline) (steps : List Step) (extra : FieldMap) : Pipeline :=
  { p with
    steps := p.steps ++ steps
    extraFields := extra
    stash := steps.foldl (fun stash s => s.writes.elim stash stash.write) p.stash }

theorem extendBy_nil (p : Pipeline) : p.extendBy [] p.extraFields = p := by
  simp [extendBy]

theorem extendBy_cons (p : Pipeline) (step : Step) (steps : List Step) (extra : FieldMap) :
    p.extendBy (step :: steps) extra = (p.append step).extendBy steps extra := by
  simp [extendBy, append]

end Pipeline

theorem assembleNext_result (p : Pipeline) (d : Descriptor) :
    (assembleNext handles app p d).result =
      match d.step? handles app p.nextName p.nextScope with
      | none => .ok { p with extraFields := d.mergeInto p.extraFields }
      | some built => built >>= fun step => (p.push step).mapError .pipeline := by
  cases d with
  | add fields => rfl
  | guard pk sk => simp [assembleNext, Descriptor.step?, Pipeline.extend]
  | db access =>
    by_cases hkeys : access.pk.isSome || access.sk.isSome <;>
      simp [assembleNext, Descriptor.step?, Pipeline.extend, hkeys]
  | emit event data => simp [assembleNext, Descriptor.step?, Pipeline.extend]

theorem Descriptor.Builds.has_append {p : Pipeline} {d : Descriptor} {step : Step}
    (h : d.Builds handles app p.nextName p.nextScope step) :
    (p.append step).has .dbResult = (p.has .dbResult || d.stores) := by
  rw [Pipeline.has_append, h.stores_eq, Bool.or_comm]

theorem assembleNext_ok {p : Pipeline} (hp : p.Ordinary) {d : Descriptor} {step : Step}
    (h : d.Builds handles app p.nextName p.nextScope step) :
    (assembleNext handles app p d).result = .ok (p.append step) := by
  have hs : step.Fits p.nextName (p.has .dbResult) := h.fits
  rw [assembleNext_result, Descriptor.builds_iff.1 h]
  simp only [except_ok_bind, hp.push_ok hs, mapError_ok]

/-- Working the descriptors in one by one comes to building all steps and appending them. -/
theorem assembleAll_result {p : Pipeline} (h : p.Ordinary) (ds : List Descriptor) :
    (assembleAll handles app p ds).result = do
      let steps ← stepsFrom handles app p.operation p.field p.size (p.has .dbResult) ds
      return p.extendBy steps (ds.foldl Descriptor.mergeInto p.extraFields) := by
  -- `Ordinary` is what carries the induction: it says that no built step is refused.
  induction ds generalizing p with
  | nil => simp [assembleAll, stepsFrom, Pipeline.extendBy_nil]
  | cons d rest ih =>
    have hname : (stepName p.operation p.field · p.size) = p.nextName := rfl
    have hscope : Scope.pipeline (p.has .dbResult) = p.nextScope := rfl
    rw [assembleAll, Traced.result_bind, stepsFrom, hname, hscope]
    cases hd : d.step? handles app p.nextName p.nextScope with
    | none =>
      have hp : Pipeline.Ordinary { p with extraFields := d.mergeInto p.extraFields } :=
        ⟨h.has_input, h.names⟩
      rw [assembleNext_result, hd]
      exact ih hp
    | some built =>
      cases built with
      | error e =>
        rw [assembleNext_result, hd]
        rfl
      | ok step =>
        have hbuilds : d.Builds handles app p.nextName p.nextScope step :=
          Descriptor.builds_iff.2 hd
        have hs : step.Fits p.nextName (p.has .dbResult) := hbuilds.fits
        simp only [assembleNext_ok h hbuilds, except_ok_bind, ih (h.append hs), hbuilds.has_append,
          Descriptor.mergeInto_of_step? hd, List.foldl_cons]
        simp [Pipeline.extendBy_cons]

def Pipeline.ofSteps (operation : Operation) (field : String) (steps : List Step)
    (extra : FieldMap) : Pipeline :=
  (Pipeline.new operation field).extendBy steps extra

@[simp] theorem Pipeline.extraFields_ofSteps (operation : Operation) (field : String)
    (steps : List Step) (extra : FieldMap) :
    (ofSteps operation field steps extra).extraFields = extra := rfl

@[simp] theorem Pipeline.steps_ofSteps (operation : Operation) (field : String)
    (steps : List Step) (extra : FieldMap) :
    (ofSteps operation field steps extra).steps = steps := rfl

theorem assemble_result (operation : Operation) (field : String) (ds : List Descriptor) :
    (assemble handles app operation field ds).result =
      if ds.isEmpty then .error .emptyPipeline
      else if !ds.any Descriptor.isExecutable then .error .noExecutableSteps
      else do
        let steps ← stepsFrom handles app operation field 0 false ds
        return .ofSteps operation field steps (mergedFields ds) := by
  unfold assemble
  split
  · rfl
  · split
    · rfl
    · exact assembleAll_result (Pipeline.ordinary_new operation field) ds

theorem steps_of_assemble {operation : Operation} {field : String} {ds : List Descriptor}
    {p : Pipeline} (h : (assemble handles app operation field ds).result = .ok p) :
    ∃ steps, stepsFrom handles app operation field 0 false ds = .ok steps ∧
      p = .ofSteps operation field steps (mergedFields ds) := by
  rw [assemble_result] at h
  split at h
  · cases h
  · split at h
    · cases h
    · simp only [bind_eq_ok, except_pure, Except.ok.injEq] at h
      obtain ⟨steps, hsteps, rfl⟩ := h
      exact ⟨steps, hsteps, rfl⟩

section StepsFrom

variable {operation : Operation} {field : String} {n : Nat} {stored : Bool} {d : Descriptor}
  {rest : List Descriptor}

theorem stepsFrom_cons_of_none
    (hd : d.step? handles app (stepName operation field · n) (.pipeline stored) = none) :
    stepsFrom handles app operation field n stored (d :: rest) =
      stepsFrom handles app operation field n stored rest := by
  rw [stepsFrom, hd]

theorem stepsFrom_cons_of_some {built : Except FieldError Step}
    (hd : d.step? handles app (stepName operation field · n) (.pipeline stored) = some built) :
    stepsFrom handles app operation field n stored (d :: rest) = do
      let step ← built
      return step ::
        (← stepsFrom handles app operation field (n + 1) (stored || d.stores) rest) := by
  rw [stepsFrom, hd]

theorem stepsFrom_cons_ok {steps : List Step}
    (h : stepsFrom handles app operation field n stored (d :: rest) = .ok steps) :
    d.isExecutable = false ∧ stepsFrom handles app operation field n stored rest = .ok steps ∨
      ∃ step tail,
        d.Builds handles app (stepName operation field · n) (.pipeline stored) step ∧
        stepsFrom handles app operation field (n + 1) (stored || d.stores) rest = .ok tail ∧
        steps = step :: tail := by
  cases hd : d.step? handles app (stepName operation field · n) (.pipeline stored) with
  | none =>
    rw [stepsFrom_cons_of_none hd] at h
    exact .inl ⟨Descriptor.step?_eq_none.1 hd, h⟩
  | some built =>
    rw [stepsFrom_cons_of_some hd] at h
    simp only [bind_eq_ok, except_pure, Except.ok.injEq] at h
    obtain ⟨step, rfl, tail, htail, rfl⟩ := h
    exact .inr ⟨step, tail, Descriptor.builds_iff.2 hd, htail, rfl⟩

end StepsFrom

theorem stepsFrom_builds {operation : Operation} {field : String} {n : Nat} {stored : Bool}
    {ds : List Descriptor} {steps : List Step}
    (h : stepsFrom handles app operation field n stored ds = .ok steps) :
    List.Forall₂ (fun d s => ∃ n stored,
        d.Builds handles app (stepName operation field · n) (.pipeline stored) s)
      (ds.filter Descriptor.isExecutable) steps := by
  induction ds generalizing n stored steps with
  | nil =>
    cases h
    exact .nil
  | cons d rest ih =>
    obtain ⟨hadd, htail⟩ | ⟨step, tail, hd, htail, rfl⟩ := stepsFrom_cons_ok h
    · rw [List.filter_cons_of_neg (by simp [hadd])]
      exact ih htail
    · rw [List.filter_cons_of_pos hd.isExecutable]
      exact .cons ⟨n, stored, hd⟩ (ih htail)

theorem stepsFrom_names {operation : Operation} {field : String} {n : Nat} {stored : Bool}
    {ds : List Descriptor} {steps : List Step}
    (h : stepsFrom handles app operation field n stored ds = .ok steps) :
    ∀ i, (hi : i < steps.length) →
      steps[i].name = stepName operation field steps[i].kind (n + i) := by
  induction ds generalizing n stored steps with
  | nil =>
    cases h
    intro i hi
    exact absurd hi (Nat.not_lt_zero i)
  | cons d rest ih =>
    obtain ⟨-, htail⟩ | ⟨step, tail, hd, htail, rfl⟩ := stepsFrom_cons_ok h
    · exact ih htail
    · intro i hi
      cases i with
      | zero => exact hd.fits.name_eq
      | succ i =>
        have hi' := ih htail i (Nat.lt_of_succ_lt_succ hi)
        rwa [Nat.add_assoc, Nat.add_comm 1] at hi'

end ResolverPipeline
