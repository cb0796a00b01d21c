import ResolverPipeline.Proofs.Positions

namespace ResolverPipeline

variable {handles : Handles} {app : AppConfig} {operation : Operation} {field : String}
  {α β : Type}

/-- A text that is checked, with the words for its place: one that is written as it is, or a raw value
that is resolved in a scope. -/
inductive Check
  | plain (place text : String)
  | reference (place value : String) (scope : Scope)
  deriving DecidableEq

namespace Check

def place : Check → String
  | .plain place _ | .reference place _ _ => place

def outcome : Check → Except ReferenceError Unit
  | .plain _ text => (plainText text).map fun _ => ()
  | .reference _ value scope => (resolve value scope).map fun _ => ()

def error? (c : Check) : Option FieldError :=
  match c.outcome with
  | .ok _ => none
  | .error source => some (.reference c.place source)

theorem error?_eq_none {c : Check} : c.error? = none ↔ c.outcome = .ok () := by
  unfold error?
  cases c.outcome <;> simp

theorem error?_eq_some {c : Check} {e : FieldError} :
    c.error? = some e ↔ ∃ source, c.outcome = .error source ∧ e = .reference c.place source := by
  unfold error?
  cases c.outcome <;> simp [eq_comm]

end Check

def entryChecks (place : String → String) (scope : Scope) (entries : List (String × String)) :
    List Check :=
  entries.flatMap fun (key, value) =>
    [.plain (place key) key, .reference (place key) value scope]

def Descriptor.checks (app : AppConfig) (name : StepKind → String) (scope : Scope) :
    Descriptor → List Check
  | .add _ | .db _ => []
  | .guard pk sk =>
    let place (part : String) := "step '" ++ name .guard ++ "' " ++ part
    [.reference (place "pk") pk scope, .reference (place "sk") sk scope]
  | .emit event data =>
    let place (part : String) := "step '" ++ name .emitEvent ++ "' " ++ part
    entryChecks (fun key => place ("data." ++ key)) scope data.entries ++ [
      .plain (place "source") app.eventSource,
      .plain (place "bus") app.eventBusOrDefault,
      .plain (place "event") event]

/-- The checks of a pipeline.  A step is named by its ordinal, which counts what is executed, and may
read a result that some store operation before it stores. -/
def pipelineChecks (app : AppConfig) (operation : Operation) (field : String)
    (ds : List Descriptor) : List Check :=
  (ds.zipIdx.flatMap fun (d, i) =>
    d.checks app (stepName operation field · (stepCount (ds.take i)))
      (.pipeline (storedBefore ds i))) ++
  entryChecks (fun key => "extra field '" ++ key ++ "'") (.pipeline false) (mergedFields ds).entries

/-- That a computation fails when one of the checks does, and only then, with the error of the first
that fails. -/
def Performs (x : Except FieldError α) (cs : List Check) : Prop :=
  ∀ e, x = .error e ↔ cs.findSome? Check.error? = some e

namespace Performs

theorem ok (a : α) : Performs (.ok a) [] := by
  intro e
  simp

theorem plain (place text : String) :
    Performs (locate place (plainText text)) [.plain place text] := by
  intro e
  cases h : plainText text <;>
    simp [locate, h, Check.error?, Check.outcome, Check.place, Except.map]

theorem reference (place value : String) (scope : Scope) :
    Performs (locate place (resolve value scope)) [.reference place value scope] := by
  intro e
  cases h : resolve value scope <;>
    simp [locate, h, Check.error?, Check.outcome, Check.place, Except.map]

theorem bind {x : Except FieldError α} {f : α → Except FieldError β} {cs more : List Check}
    (hx : Performs x cs) (hf : ∀ a, Performs (f a) more) : Performs (x >>= f) (cs ++ more) := by
  intro e
  rw [List.findSome?_append]
  cases x with
  | error e' =>
    have hfirst : cs.findSome? Check.error? = some e' := (hx e').1 rfl
    simp [hfirst]
  | ok a =>
    have hnone : cs.findSome? Check.error? = none := by
      cases h : cs.findSome? Check.error? with
      | none => rfl
      | some e' => exact absurd ((hx e').2 h) (by simp)
    rw [hnone, Option.none_or]
    exact hf a e

theorem resolveEntries (place : String → String) (scope : Scope)
    (entries : List (String × String)) :
    Performs (resolveEntries place scope entries) (entryChecks place scope entries) := by
  induction entries with
  | nil => exact ok []
  | cons entry rest ih =>
    obtain ⟨key, value⟩ := entry
    have htail : ∀ (key' : String) (e : Expression),
        Performs (do return (key', e) :: (← ResolverPipeline.resolveEntries place scope rest))
          (entryChecks place scope rest) := by
      intro key' e
      simpa using ih.bind fun rs => ok ((key', e) :: rs)
    exact (plain (place key) key).bind fun key' =>
      (reference (place key) value scope).bind fun e => htail key' e

theorem step? {d : Descriptor} {name : StepKind → String} {scope : Scope}
    {built : Except FieldError Step} (h : d.step? handles app name scope = some built) :
    Performs built (d.checks app name scope) := by
  cases d with
  | add fields => cases h
  | guard pk sk =>
    cases h
    rw [Step.guard_eq]
    exact (reference _ pk scope).bind fun p => (reference _ sk scope).bind fun k => ok _
  | db access =>
    cases h
    rw [Step.data_eq]
    exact ok _
  | emit event data =>
    cases h
    rw [Step.emit_eq, Step.resolveDetail_eq]
    exact (resolveEntries _ scope data.entries).bind fun detail =>
      (plain _ app.eventSource).bind fun source =>
        (plain _ app.eventBusOrDefault).bind fun bus => (plain _ event).bind fun event => ok _

end Performs

def stepChecks (app : AppConfig) (operation : Operation) (field : String) (n : Nat) (stored : Bool)
    (ds : List Descriptor) : List Check :=
  ds.zipIdx.flatMap fun (d, i) =>
    d.checks app (stepName operation field · (n + stepCount (ds.take i)))
      (.pipeline (stored || storedBefore ds i))

theorem stepChecks_cons (n : Nat) (stored : Bool) (d : Descriptor) (rest : List Descriptor) :
    stepChecks app operation field n stored (d :: rest) =
      d.checks app (stepName operation field · n) (.pipeline stored) ++
        stepChecks app operation field (n + if d.isExecutable then 1 else 0) (stored || d.stores)
          rest := by
  have hcount : ∀ i, n + stepCount ((d :: rest).take (i + 1)) =
      (n + if d.isExecutable then 1 else 0) + stepCount (rest.take i) := by
    intro i
    rw [stepCount_take_succ]
    omega
  rw [stepChecks, List.zipIdx_cons, List.flatMap_cons, List.zipIdx_succ, List.flatMap_map]
  simp only [hcount, storedBefore_zero, storedBefore_succ, Bool.or_false, ← Bool.or_assoc]
  rfl

theorem Performs.stepsFrom (n : Nat) (stored : Bool) (ds : List Descriptor) :
    Performs (stepsFrom handles app operation field n stored ds)
      (stepChecks app operation field n stored ds) := by
  induction ds generalizing n stored with
  | nil => exact ok []
  | cons d rest ih =>
    rw [stepChecks_cons]
    cases hd : d.step? handles app (stepName operation field · n) (.pipeline stored) with
    | none =>
      obtain ⟨fields, rfl⟩ := Descriptor.isExecutable_eq_false.1 (Descriptor.step?_eq_none.1 hd)
      rw [stepsFrom_cons_of_none hd]
      simpa [Descriptor.isExecutable, Descriptor.stores, Descriptor.checks] using ih n stored
    | some built =>
      rw [stepsFrom_cons_of_some hd, Descriptor.isExecutable_of_step? hd, if_pos rfl]
      apply (step? hd).bind
      intro step
      simpa using (ih (n + 1) (stored || d.stores)).bind fun steps => ok (step :: steps)

theorem pipelineChecks_eq (ds : List Descriptor) :
    pipelineChecks app operation field ds = stepChecks app operation field 0 false ds ++
      entryChecks (fun key => "extra field '" ++ key ++ "'") (.pipeline false)
        (mergedFields ds).entries := by
  simp only [pipelineChecks, stepChecks, Nat.zero_add, Bool.false_or]

theorem Performs.pipeline {ds : List Descriptor} (hexec : ∃ d ∈ ds, d.isExecutable = true) :
    Performs (compileField handles app operation field (.pipeline ds)).result
      (pipelineChecks app operation field ds) := by
  rw [compileField_of_executable hexec, pipelineChecks_eq, ResolverTemplates.resolveExtra_eq]
  apply (Performs.stepsFrom 0 false ds).bind
  intro steps
  simpa using (Performs.resolveEntries _ _ _).bind fun fields => ok _

/-- A pipeline with something to execute fails to compile exactly when one of its checks fails, and the
first one that does is the one reported, whatever else is wrong with the pipeline. -/
theorem compileField_firstFault {ds : List Descriptor} (hexec : ∃ d ∈ ds, d.isExecutable = true)
    (e : FieldError) :
    (compileField handles app operation field (.pipeline ds)).result = .error e ↔
      ∃ before check after source,
        pipelineChecks app operation field ds = before ++ check :: after ∧
        (∀ c ∈ before, c.outcome = .ok ()) ∧ check.outcome = .error source ∧
        e = .reference check.place source := by
  rw [Performs.pipeline hexec e, List.findSome?_eq_some_iff]
  simp only [Check.error?_eq_none, Check.error?_eq_some]
  constructor
  · rintro ⟨before, check, after, hsplit, ⟨source, hsource, he⟩, hbefore⟩
    exact ⟨before, check, after, source, hsplit, hbefore, hsource, he⟩
  · rintro ⟨before, check, after, source, hsplit, hbefore, hsource, he⟩
    exact ⟨before, check, after, hsplit, ⟨source, hsource, he⟩, hbefore⟩

def manyMistakes : List Descriptor := [
  .add (.ofList [("no\"te", "$")]),
  .guard "$owner" "profile",
  .db ⟨.get, none, none⟩,
  .emit "sha$red" (.ofList [("by", "#owner"), ("a#b", "$"), ("c", "$d$")]),
  .guard "#" "\""]

theorem manyMistakes_firstFault : (∃ d ∈ manyMistakes, d.isExecutable = true) ∧
    ∃ before check after source,
      pipelineChecks { name := "notes" } .mutation "share" manyMistakes =
        before ++ check :: after ∧
      (∀ c ∈ before, c.outcome = .ok ()) ∧ check.outcome = .error source ∧
      FieldError.reference "step 'mshareemit2' data.a#b" (.invalidCharacter "a#b" '#') =
        .reference check.place source := by
  have hexec : ∃ d ∈ manyMistakes, d.isExecutable = true :=
    ⟨.db ⟨.get, none, none⟩, by simp [manyMistakes], rfl⟩
  have herror : (compileField {} { name := "notes" } .mutation "share"
      (.pipeline manyMistakes)).result =
      .error (.reference "step 'mshareemit2' data.a#b" (.invalidCharacter "a#b" '#')) := by
    decide +kernel
  exact ⟨hexec, (compileField_firstFault hexec _).1 herror⟩

end ResolverPipeline
