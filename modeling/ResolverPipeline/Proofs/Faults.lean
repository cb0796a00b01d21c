import ResolverPipeline.Proofs.Compilation

namespace ResolverPipeline

variable {handles : Handles} {app : AppConfig} {operation : Operation} {field : String}
  {α β : Type}

def OnlyReferences (x : Except FieldError α) : Prop :=
  ∀ e, x = .error e → ∃ location source, e = .reference location source

namespace OnlyReferences

theorem ok (a : α) : OnlyReferences (.ok a) := by
  intro e h
  cases h

theorem locate (location : String) (x : Except ReferenceError α) :
    OnlyReferences (locate location x) := by
  intro e h
  obtain ⟨source, -, rfl⟩ := locate_eq_error.1 h
  exact ⟨location, source, rfl⟩

theorem bind {x : Except FieldError α} {f : α → Except FieldError β} (hx : OnlyReferences x)
    (hf : ∀ a, OnlyReferences (f a)) : OnlyReferences (x >>= f) := by
  intro e h
  obtain h | ⟨a, -, h⟩ := bind_eq_error.1 h
  · exact hx e h
  · exact hf a e h

theorem resolveEntries (place : String → String) (scope : Scope)
    (entries : List (String × String)) :
    OnlyReferences (resolveEntries place scope entries) := by
  induction entries with
  | nil => exact ok []
  | cons entry rest ih =>
    apply bind (locate _ _)
    intro key
    apply bind (locate _ _)
    intro e
    apply bind ih
    intro rs
    exact ok _

theorem guard (name pk sk : String) (scope : Scope) :
    OnlyReferences (Step.guard handles name pk sk scope) := by
  rw [Step.guard_eq]
  apply bind (locate _ _)
  intro p
  apply bind (locate _ _)
  intro k
  exact ok _

theorem emit (name : String) (envelope : Step.Envelope) (scope : Scope) :
    OnlyReferences (Step.emit handles name envelope scope) := by
  rw [Step.emit_eq, Step.resolveDetail_eq]
  apply bind (resolveEntries _ _ _)
  intro detail
  apply bind (locate _ _)
  intro source
  apply bind (locate _ _)
  intro bus
  apply bind (locate _ _)
  intro event
  exact ok _

theorem step? {d : Descriptor} {name : StepKind → String} {scope : Scope}
    {built : Except FieldError Step} (h : d.step? handles app name scope = some built) :
    OnlyReferences built := by
  cases d with
  | add fields => cases h
  | guard pk sk =>
    cases h
    exact guard _ _ _ _
  | db access =>
    cases h
    rw [Step.data_eq]
    exact ok _
  | emit event data =>
    cases h
    exact emit _ _ _

theorem stepsFrom (n : Nat) (stored : Bool) (ds : List Descriptor) :
    OnlyReferences (stepsFrom handles app operation field n stored ds) := by
  induction ds generalizing n stored with
  | nil => exact ok []
  | cons d rest ih =>
    cases hd : d.step? handles app (stepName operation field · n) (.pipeline stored) with
    | none =>
      rw [stepsFrom_cons_of_none hd]
      exact ih n stored
    | some built =>
      rw [stepsFrom_cons_of_some hd]
      apply bind (step? hd)
      intro step
      apply bind (ih _ _)
      intro tail
      exact ok _

end OnlyReferences

def FieldError.IsMistake (e : FieldError) : Prop :=
  (∃ location source, e = .reference location source) ∨ e = .emptyPipeline ∨
    e = .noExecutableSteps ∨ (∃ tag, e = .unsupportedSingleStep tag) ∨
    ∃ action key, e = .missingKey action key

theorem directKey_mistake {access : DbAccess} {key : String} {value : Option String}
    {e : FieldError} (h : ResolverTemplates.directKey access key value = .error e) :
    e.IsMistake := by
  cases value with
  | none =>
    cases h
    exact .inr (.inr (.inr (.inr ⟨_, _, rfl⟩)))
  | some value =>
    rw [ResolverTemplates.directKey] at h
    exact .inl (OnlyReferences.bind (.locate _ _) (fun _ => .ok _) e h)

theorem directKeys_mistake {access : DbAccess} {e : FieldError}
    (h : ResolverTemplates.directKeys access = .error e) : e.IsMistake := by
  obtain ⟨action, pk, sk⟩ := access
  cases action with
  | get => cases h
  | create => cases h
  | remove => cases h
  | list =>
    simp only [ResolverTemplates.directKeys, bind_eq_error, except_pure] at h
    obtain h | ⟨p, -, h | ⟨k, -, h⟩⟩ := h
    · exact directKey_mistake h
    · exact directKey_mistake h
    · cases h

theorem compileField_mistake {resolver : Resolver} {e : FieldError}
    (h : (compileField handles app operation field resolver).result = .error e) :
    e.IsMistake := by
  cases resolver with
  | single d =>
    cases d with
    | db access =>
      rw [compileField_unit, bind_eq_error] at h
      obtain h | ⟨keys, -, h⟩ := h
      · exact directKeys_mistake h
      · cases h
    | add fields =>
      cases h
      exact .inr (.inr (.inr (.inl ⟨_, rfl⟩)))
    | guard pk sk =>
      cases h
      exact .inr (.inr (.inr (.inl ⟨_, rfl⟩)))
    | emit event data =>
      cases h
      exact .inr (.inr (.inr (.inl ⟨_, rfl⟩)))
  | pipeline ds =>
    rw [compileField_pipeline] at h
    split at h
    · cases h
      exact .inr (.inl rfl)
    · split at h
      · cases h
        exact .inr (.inr (.inl rfl))
      · rw [ResolverTemplates.resolveExtra_eq] at h
        refine .inl (OnlyReferences.bind (.stepsFrom 0 false ds) ?_ e h)
        intro steps
        exact .bind (.resolveEntries _ _ _) fun _ => .ok _

/-- A compile fails at a field of the definition, with the error of that very field, and by a mistake
in it: a step that its pipeline refuses or a template that cannot be filled in does not occur. -/
theorem compile_error_mistake {d : Definition} {e : CompileError}
    (h : (compile handles d).result = .error e) :
    (∃ resolver, (e.operation, e.field, resolver) ∈ d.resolvers.fields ∧
      (compileField handles d.config e.operation e.field resolver).result = .error e.source) ∧
    ((∃ location source, e.source = .reference location source) ∨ e.source = .emptyPipeline ∨
      e.source = .noExecutableSteps ∨ (∃ tag, e.source = .unsupportedSingleStep tag) ∨
      ∃ action key, e.source = .missingKey action key) ∧
    (∀ refusal, e.source ≠ .pipeline refusal) ∧ ∀ fault, e.source ≠ .template fault := by
  obtain ⟨resolver, hmem, hfield⟩ := compile_error h
  have hmistake := compileField_mistake hfield
  refine ⟨⟨resolver, hmem, hfield⟩, hmistake, ?_, ?_⟩
  · intro refusal heq
    simp [FieldError.IsMistake, heq] at hmistake
  · intro fault heq
    simp [FieldError.IsMistake, heq] at hmistake

def earlyResult : Definition where
  schema := ""
  resolvers := {
    query := .ofList [("note", .single (.db ⟨.get, none, none⟩))]
    mutation := .ofList [
      ("share", .pipeline [.guard "#owner" "profile", .db ⟨.get, none, none⟩])] }
  config := { name := "notes" }

theorem earlyResult_compile_error :
    ∃ e, (compile {} earlyResult).result = .error e ∧
      e.source = .reference "step 'mshareguard0' pk" (.resultNotAvailable "#owner") ∧
      (∀ refusal, e.source ≠ .pipeline refusal) ∧ ∀ fault, e.source ≠ .template fault := by
  have h : (compile {} earlyResult).result = .error ⟨.mutation, "share",
      .reference "step 'mshareguard0' pk" (.resultNotAvailable "#owner")⟩ := by
    decide +kernel
  exact ⟨_, h, rfl, (compile_error_mistake h).2.2⟩

end ResolverPipeline
