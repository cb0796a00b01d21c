import Mathlib.Data.List.Induction
import Mathlib.Data.List.Nodup
import ResolverPipeline.Proofs.Assembly

/-!
The contract between a pipeline and its steps, over any run of calls.  Names and reads are checked
against three things that the pipeline keeps apart: its steps, their names and the stash.  That the
three agree is what every call preserves.
-/

namespace ResolverPipeline

def Filled (steps : List Step) (slot : Slot) : Prop :=
  slot = .input ∨ ∃ s ∈ steps, s.writes = some slot

theorem filled_concat {steps : List Step} {step : Step} {slot : Slot} :
    Filled (steps ++ [step]) slot ↔ Filled steps slot ∨ step.writes = some slot := by
  simp only [Filled, List.mem_append, List.mem_singleton, or_and_right, exists_or, exists_eq_left,
    or_assoc]

/-- What a list of steps needs to be a pipeline: names of their own, and each read served before. -/
structure StashContract (steps : List Step) : Prop where
  names : (steps.map Step.name).Nodup
  reads : ∀ k (hk : k < steps.length), ∀ slot ∈ steps[k].reads,
    slot = .input ∨ ∃ j, ∃ hj : j < k, steps[j].writes = some slot

theorem stashContract_nil : StashContract [] :=
  ⟨.nil, fun _ hk => absurd hk (Nat.not_lt_zero _)⟩

theorem filled_take {steps : List Step} {k : Nat} (hk : k < steps.length) {slot : Slot} :
    Filled (steps.take k) slot ↔ slot = .input ∨ ∃ j, ∃ hj : j < k, steps[j].writes = some slot := by
  rw [Filled]
  apply or_congr_right
  constructor
  · rintro ⟨s, hs, hwrites⟩
    obtain ⟨j, hj, rfl⟩ := List.mem_take_iff_getElem.1 hs
    exact ⟨j, (Nat.lt_min.1 hj).1, hwrites⟩
  · rintro ⟨j, hj, hwrites⟩
    exact ⟨_, List.mem_take_iff_getElem.2 ⟨j, Nat.lt_min.2 ⟨hj, Nat.lt_trans hj hk⟩, rfl⟩, hwrites⟩

theorem stashContract_iff {steps : List Step} :
    StashContract steps ↔ (steps.map Step.name).Nodup ∧
      ∀ k (hk : k < steps.length), ∀ slot ∈ steps[k].reads, Filled (steps.take k) slot := by
  constructor
  · intro h
    exact ⟨h.names, fun k hk slot hslot => (filled_take hk).2 (h.reads k hk slot hslot)⟩
  · intro h
    exact ⟨h.1, fun k hk slot hslot => (filled_take hk).1 (h.2 k hk slot hslot)⟩

theorem stashContract_concat {steps : List Step} {step : Step} :
    StashContract (steps ++ [step]) ↔ StashContract steps ∧
      (∀ slot ∈ step.reads, Filled steps slot) ∧ step.name ∉ steps.map Step.name := by
  have hnames : ((steps ++ [step]).map Step.name).Nodup ↔
      (steps.map Step.name).Nodup ∧ step.name ∉ steps.map Step.name := by
    rw [List.map_append, List.map_singleton, ← List.concat_eq_append, List.nodup_concat, and_comm]
  simp only [stashContract_iff, hnames]
  constructor
  · rintro ⟨⟨hnodup, hnew⟩, hreads⟩
    refine ⟨⟨hnodup, fun k hk slot hslot => ?_⟩, fun slot hslot => ?_, hnew⟩
    · have hserved := hreads k (by simp; omega) slot
      rw [List.getElem_append_left hk, List.take_append_of_le_length (Nat.le_of_lt hk)] at hserved
      exact hserved hslot
    · simpa using hreads steps.length (by simp) slot (by simpa using hslot)
  · rintro ⟨⟨hnodup, hreads⟩, hserved, hnew⟩
    refine ⟨⟨hnodup, hnew⟩, fun k hk slot hslot => ?_⟩
    obtain hk' | rfl : k < steps.length ∨ k = steps.length := by simp at hk; omega
    · rw [List.getElem_append_left hk'] at hslot
      rw [List.take_append_of_le_length (Nat.le_of_lt hk')]
      exact hreads k hk' slot hslot
    · simpa using hserved slot (by simpa using hslot)

theorem StashContract.of_append {steps rest : List Step} (h : StashContract (steps ++ rest)) :
    StashContract steps := by
  induction rest using List.reverseRecOn with
  | nil => simpa using h
  | append_singleton rest step ih =>
    rw [← List.append_assoc] at h
    exact ih (stashContract_concat.1 h).1

namespace Pipeline

/-- Why a step is refused.  Of the slots that are not filled, the first is named. -/
inductive Refuses (p : Pipeline) (step : Step) : PipelineError → Prop
  | unsatisfiedRead {before after : List Slot} {slot : Slot} :
      step.reads = before ++ slot :: after → (∀ x ∈ before, p.has x = true) → p.has slot = false →
      Refuses p step (.unsatisfiedRead step.name slot)
  | duplicateStepName :
      (∀ slot ∈ step.reads, p.has slot = true) → step.name ∈ p.stepNames →
      Refuses p step (.duplicateStepName step.name)

theorem push_eq_ok {p p' : Pipeline} {step : Step} :
    p.push step = .ok p' ↔
      ((∀ slot ∈ step.reads, p.has slot = true) ∧ step.name ∉ p.stepNames) ∧
        p.append step = p' := by
  constructor
  · intro h
    rw [push] at h
    split at h
    · cases h
    · rename_i hfind
      split at h
      · cases h
      · rename_i hname
        exact ⟨⟨by simpa using hfind, hname⟩, Except.ok.inj h⟩
  · rintro ⟨⟨hreads, hname⟩, rfl⟩
    exact push_of_reads hreads hname

theorem push_eq_error {p : Pipeline} {step : Step} {e : PipelineError} :
    p.push step = .error e ↔ p.Refuses step e := by
  constructor
  · intro h
    rw [push] at h
    split at h
    · rename_i slot hfind
      obtain ⟨hslot, before, after, hreads, hbefore⟩ := List.find?_eq_some_iff_append.1 hfind
      cases h
      exact .unsatisfiedRead hreads (by simpa using hbefore) (by simpa using hslot)
    · rename_i hfind
      split at h
      · rename_i hname
        cases h
        exact .duplicateStepName (by simpa using hfind) hname
      · cases h
  · intro h
    cases h with
    | @unsatisfiedRead before after slot hreads hbefore hslot =>
      have hfind : step.reads.find? (fun slot => !p.has slot) = some slot :=
        List.find?_eq_some_iff_append.2
          ⟨by simpa using hslot, before, after, hreads, by simpa using hbefore⟩
      rw [push, hfind]
    | duplicateStepName hreads hname =>
      have hfind : step.reads.find? (fun slot => !p.has slot) = none := by simpa using hreads
      rw [stepNames] at hname
      simp only [push, hfind, hname, if_true]

abbrev InPlace := ExceptT PipelineError (StateM Pipeline)

def pushInPlace (step : Step) : InPlace Unit := do
  let p ← get
  if let some slot := step.reads.find? fun slot => !p.has slot then
    throw (.unsatisfiedRead step.name slot)
  if p.steps.any fun s => s.name = step.name then
    throw (.duplicateStepName step.name)
  if let some slot := step.writes then
    modify fun p => { p with stash := p.stash.write slot }
  modify fun p => { p with steps := p.steps ++ [step] }

inductive Call
  | push (step : Step)
  | mergeExtraFields (fields : FieldMap)

namespace Call

def inPlace : Call → InPlace Unit
  | .push step => pushInPlace step
  | .mergeExtraFields fields => modify fun p => p.mergeExtraFields fields

def step? : Call → Option Step
  | .push step => some step
  | .mergeExtraFields _ => none

end Call

def call (p : Pipeline) (c : Call) : Except PipelineError Unit × Pipeline := c.inPlace.run.run p

def afterCalls (p : Pipeline) (calls : List Call) : Pipeline :=
  calls.foldl (fun p c => (p.call c).2) p

def answers (p : Pipeline) : List Call → List (Except PipelineError Unit)
  | [] => []
  | c :: calls => (p.call c).1 :: (p.call c).2.answers calls

def pushed (calls : List Call) : List Step := calls.filterMap Call.step?

@[simp] theorem pushed_push (step : Step) (calls : List Call) :
    pushed (.push step :: calls) = step :: pushed calls := rfl

@[simp] theorem pushed_mergeExtraFields (fields : FieldMap) (calls : List Call) :
    pushed (.mergeExtraFields fields :: calls) = pushed calls := rfl

def accepted (p : Pipeline) (calls : List Call) : List Step :=
  (calls.zip (p.answers calls)).filterMap fun c => if c.2.isOk then c.1.step? else none

theorem run_get_bind {α : Type} (p : Pipeline) (f : Pipeline → InPlace α) :
    (get >>= f).run.run p = (f p).run.run p := rfl

theorem call_push (p : Pipeline) (step : Step) :
    p.call (.push step) = match p.push step with
      | .ok p' => (.ok (), p')
      | .error e => (.error e, p) := by
  have hany : (p.steps.any fun s => s.name = step.name) =
      decide (step.name ∈ p.steps.map Step.name) := by
    rw [Bool.eq_iff_iff]
    simp
  rw [call, Call.inPlace, pushInPlace, run_get_bind, push, hany]
  cases step.reads.find? fun slot => !p.has slot with
  | some slot => rfl
  | none =>
    by_cases hname : step.name ∈ p.steps.map Step.name
    · simp only [hname, decide_true, if_true]
      rfl
    · simp only [hname, decide_false, if_false]
      cases step.writes <;> rfl

theorem call_push_of_ok {p p' : Pipeline} {step : Step} (h : p.push step = .ok p') :
    p.call (.push step) = (.ok (), p') := by
  rw [call_push, h]

theorem call_push_of_error {p : Pipeline} {step : Step} {e : PipelineError}
    (h : p.push step = .error e) : p.call (.push step) = (.error e, p) := by
  rw [call_push, h]

theorem call_mergeExtraFields (p : Pipeline) (fields : FieldMap) :
    p.call (.mergeExtraFields fields) = (.ok (), p.mergeExtraFields fields) := rfl

structure Consistent (p : Pipeline) : Prop where
  contract : StashContract p.steps
  has_iff : ∀ slot, p.has slot = true ↔ Filled p.steps slot

theorem consistent_new (operation : Operation) (field : String) :
    (new operation field).Consistent := by
  refine ⟨stashContract_nil, fun slot => ?_⟩
  simp [has, new, Filled]

variable {p : Pipeline}

theorem Consistent.push_accepts (h : p.Consistent) {step : Step} :
    (∃ p', p.push step = .ok p') ↔ StashContract (p.steps ++ [step]) := by
  simp only [push_eq_ok, exists_and_left, exists_eq', and_true, stashContract_concat, h.contract,
    h.has_iff, true_and, stepNames]

theorem Consistent.append (h : p.Consistent) {step : Step}
    (hstep : StashContract (p.steps ++ [step])) : (p.append step).Consistent := by
  refine ⟨hstep, fun slot => ?_⟩
  rw [has_append, Bool.or_eq_true, decide_eq_true_eq, h.has_iff, steps_append, filled_concat,
    or_comm]

theorem Consistent.call (h : p.Consistent) (c : Call) : (p.call c).2.Consistent := by
  cases c with
  | push step =>
    cases hpush : p.push step with
    | ok p' =>
      have hstep := h.push_accepts.1 ⟨p', hpush⟩
      obtain ⟨-, rfl⟩ := push_eq_ok.1 hpush
      rw [call_push_of_ok hpush]
      exact h.append hstep
    | error e =>
      rw [call_push_of_error hpush]
      exact h
  | mergeExtraFields fields => exact ⟨h.contract, h.has_iff⟩

theorem Consistent.afterCalls (h : p.Consistent) (calls : List Call) :
    (p.afterCalls calls).Consistent := by
  induction calls generalizing p with
  | nil => exact h
  | cons c calls ih => exact ih (h.call c)

theorem steps_afterCalls (p : Pipeline) (calls : List Call) :
    (p.afterCalls calls).steps = p.steps ++ p.accepted calls := by
  induction calls generalizing p with
  | nil => simp [afterCalls, accepted]
  | cons c calls ih =>
    have hrest := ih (p.call c).2
    rw [accepted] at hrest
    rw [afterCalls, List.foldl_cons, ← afterCalls, hrest, accepted, answers, List.zip_cons_cons]
    cases c with
    | push step =>
      cases hpush : p.push step with
      | ok p' =>
        obtain ⟨-, rfl⟩ := push_eq_ok.1 hpush
        simp [call_push_of_ok hpush, Call.step?, Except.isOk, Except.toBool]
      | error e => simp [call_push_of_error hpush, Except.isOk, Except.toBool]
    | mergeExtraFields fields => simp [call_mergeExtraFields, Call.step?, mergeExtraFields]

theorem Consistent.answers_ok (h : p.Consistent) (calls : List Call) :
    (∀ answer ∈ p.answers calls, answer = .ok ()) ↔ StashContract (p.steps ++ pushed calls) := by
  -- The steps so far grow with the induction, so the contract is stated for what comes behind them.
  induction calls generalizing p with
  | nil => simp [answers, pushed, h.contract]
  | cons c calls ih =>
    rw [answers, List.forall_mem_cons, ih (h.call c)]
    cases c with
    | push step =>
      rw [pushed_push, List.append_cons]
      cases hpush : p.push step with
      | ok p' =>
        obtain ⟨-, rfl⟩ := push_eq_ok.1 hpush
        simp [call_push_of_ok hpush]
      | error e =>
        -- No list that goes on with a refused step keeps the contract either.
        have hstep : ¬ StashContract (p.steps ++ [step]) := by
          rw [← h.push_accepts, hpush]
          simp
        simp only [call_push_of_error hpush, reduceCtorEq, false_and, false_iff]
        exact fun hrest => hstep hrest.of_append
    | mergeExtraFields fields => simp [call_mergeExtraFields, mergeExtraFields]

def ofCalls (operation : Operation) (field : String) (calls : List Call) : Pipeline :=
  (new operation field).afterCalls calls

structure KeepsContract (operation : Operation) (field : String) (calls : List Call) : Prop where
  contract : StashContract (ofCalls operation field calls).steps
  has_iff : ∀ slot, (ofCalls operation field calls).has slot = true ↔
    slot = .input ∨ ∃ s ∈ (ofCalls operation field calls).steps, s.writes = some slot
  accepts : ∀ step, (∃ p, (ofCalls operation field calls).push step = .ok p) ↔
    (∀ slot ∈ step.reads, (ofCalls operation field calls).has slot = true) ∧
      step.name ∉ (ofCalls operation field calls).stepNames
  refuses : ∀ step e, (ofCalls operation field calls).push step = .error e ↔
    (ofCalls operation field calls).Refuses step e
  accepted_inPlace : ∀ step p, (ofCalls operation field calls).push step = .ok p →
    (ofCalls operation field calls).call (.push step) = (.ok (), p)
  refused_inPlace : ∀ step e, (ofCalls operation field calls).push step = .error e →
    (ofCalls operation field calls).call (.push step) = (.error e, ofCalls operation field calls)
  steps : (ofCalls operation field calls).steps = (new operation field).accepted calls
  inFull : (∀ answer ∈ (new operation field).answers calls, answer = .ok ()) ↔
    StashContract (pushed calls)

/-- A pipeline keeps its contract under any calls, and accepts all that it can. -/
theorem calls_keepContract (operation : Operation) (field : String) (calls : List Call) :
    KeepsContract operation field calls where
  contract := ((consistent_new operation field).afterCalls calls).contract
  has_iff := ((consistent_new operation field).afterCalls calls).has_iff
  accepts := by
    intro step
    simp only [push_eq_ok, exists_and_left, exists_eq', and_true]
  refuses := fun _ _ => push_eq_error
  accepted_inPlace := fun _ _ => call_push_of_ok
  refused_inPlace := fun _ _ => call_push_of_error
  steps := steps_afterCalls (new operation field) calls
  inFull := (consistent_new operation field).answers_ok calls

end Pipeline

end ResolverPipeline
