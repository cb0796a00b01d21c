import ResolverPipeline.Proofs.Outcome

namespace ResolverPipeline

def Plain (s : String) : Prop := '"' ∉ s.toList ∧ '$' ∉ s.toList ∧ '#' ∉ s.toList

instance (s : String) : Decidable (Plain s) := by unfold Plain; infer_instance

theorem plain_iff_find?_reserved {s : String} :
    Plain s ↔ s.toList.find? isReserved = none := by
  simp only [Plain, List.find?_eq_none, isReserved, Bool.or_eq_true, beq_iff_eq]
  grind

theorem plainText_eq_ok {s t : String} : plainText s = .ok t ↔ Plain s ∧ s = t := by
  rw [plain_iff_find?_reserved]
  unfold plainText
  split <;> simp_all

theorem fieldPath_eq_ok {value path t : String} :
    fieldPath value path = .ok t ↔ path ≠ "" ∧ Plain path ∧ path = t := by
  unfold fieldPath
  split <;> simp_all [plainText_eq_ok]

theorem quote_eq_ok {value t : String} :
    quote value = .ok t ↔ Plain value ∧ "\"" ++ value ++ "\"" = t := by
  simp only [quote, bind_eq_ok, plainText_eq_ok, except_pure, Except.ok.injEq]
  constructor
  · rintro ⟨_, ⟨h, rfl⟩, ht⟩
    exact ⟨h, ht⟩
  · rintro ⟨h, ht⟩
    exact ⟨value, ⟨h, rfl⟩, ht⟩

theorem Scope.resultBase_eq_ok {value base : String} {scope : Scope} :
    scope.resultBase value = .ok base ↔ scope = .pipeline true ∧ Slot.dbResult.path = base := by
  match scope with
  | .direct => simp [Scope.resultBase]
  | .pipeline false => simp [Scope.resultBase]
  | .pipeline true => simp [Scope.resultBase]

theorem marker_cases (value : String) :
    (∃ path, value = "$" ++ path) ∨ (∃ path, value = "#" ++ path) ∨
      ((∀ path, value ≠ "$" ++ path) ∧ ∀ path, value ≠ "#" ++ path) := by
  by_cases hi : ∃ path, value = "$" ++ path
  · exact .inl hi
  · by_cases hr : ∃ path, value = "#" ++ path
    · exact .inr (.inl hr)
    · exact .inr (.inr ⟨fun path h => hi ⟨path, h⟩, fun path h => hr ⟨path, h⟩⟩)

theorem resolveBase_input (path : String) (scope : Scope) :
    resolveBase ("$" ++ path) scope =
      return (.input, scope.inputBase ++ "." ++ (← fieldPath ("$" ++ path) path)) := by
  have h : ("$" ++ path).toList = '$' :: path.toList := by simp
  simp only [resolveBase, h, String.ofList_toList]

theorem resolveBase_result (path : String) (scope : Scope) :
    resolveBase ("#" ++ path) scope = do
      let base ← scope.resultBase ("#" ++ path)
      return (.result, base ++ "." ++ (← fieldPath ("#" ++ path) path)) := by
  have h : ("#" ++ path).toList = '#' :: path.toList := by simp
  simp only [resolveBase, h, String.ofList_toList]

theorem resolveBase_literal {value : String} (hi : ∀ path, value ≠ "$" ++ path)
    (hr : ∀ path, value ≠ "#" ++ path) (scope : Scope) :
    resolveBase value scope = return (.literal, ← quote value) := by
  unfold resolveBase
  split
  · rename_i path h
    exact absurd (by rw [← String.toList_inj]; simpa using h) (hi (String.ofList path))
  · rename_i path h
    exact absurd (by rw [← String.toList_inj]; simpa using h) (hr (String.ofList path))
  · rfl

/-- The kind of a value and its text in a scope, before the `@id` tokens are seen to. -/
inductive BaseText (scope : Scope) : String → ReferenceKind → String → Prop
  | input {path : String} : path ≠ "" → Plain path →
      BaseText scope ("$" ++ path) .input (scope.inputBase ++ "." ++ path)
  | result {path : String} : scope = .pipeline true → path ≠ "" → Plain path →
      BaseText scope ("#" ++ path) .result (Slot.dbResult.path ++ "." ++ path)
  | literal {value : String} : Plain value →
      BaseText scope value .literal ("\"" ++ value ++ "\"")

theorem Plain.ne_input {value : String} (h : Plain value) (path : String) :
    value ≠ "$" ++ path := by
  rintro rfl
  simp [Plain] at h

theorem Plain.ne_result {value : String} (h : Plain value) (path : String) :
    value ≠ "#" ++ path := by
  rintro rfl
  simp [Plain] at h

theorem resolveBase_of_baseText {value text : String} {scope : Scope} {kind : ReferenceKind}
    (h : BaseText scope value kind text) : resolveBase value scope = .ok (kind, text) := by
  cases h with
  | @input path hne hp =>
    rw [resolveBase_input, fieldPath_eq_ok.2 ⟨hne, hp, rfl⟩]
    rfl
  | @result path hs hne hp =>
    rw [resolveBase_result, Scope.resultBase_eq_ok.2 ⟨hs, rfl⟩, fieldPath_eq_ok.2 ⟨hne, hp, rfl⟩]
    rfl
  | literal hp =>
    rw [resolveBase_literal hp.ne_input hp.ne_result, quote_eq_ok.2 ⟨hp, rfl⟩]
    rfl

theorem baseText_of_resolveBase {value text : String} {scope : Scope} {kind : ReferenceKind}
    (h : resolveBase value scope = .ok (kind, text)) : BaseText scope value kind text := by
  obtain ⟨path, rfl⟩ | ⟨path, rfl⟩ | ⟨hi, hr⟩ := marker_cases value
  · rw [resolveBase_input] at h
    simp only [bind_eq_ok, fieldPath_eq_ok, except_pure, Except.ok.injEq, Prod.mk.injEq] at h
    obtain ⟨_, ⟨hne, hp, rfl⟩, rfl, rfl⟩ := h
    exact .input hne hp
  · rw [resolveBase_result] at h
    simp only [bind_eq_ok, fieldPath_eq_ok, Scope.resultBase_eq_ok, except_pure, Except.ok.injEq,
      Prod.mk.injEq] at h
    obtain ⟨_, ⟨hs, rfl⟩, _, ⟨hne, hp, rfl⟩, rfl, rfl⟩ := h
    exact .result hs hne hp
  · rw [resolveBase_literal hi hr] at h
    simp only [bind_eq_ok, quote_eq_ok, except_pure, Except.ok.injEq, Prod.mk.injEq] at h
    obtain ⟨_, ⟨hp, rfl⟩, rfl, rfl⟩ := h
    exact .literal hp

def freshText (value base : String) : String :=
  if mentionsId value then withFreshIds base else base

theorem resolve_eq_ok {value : String} {scope : Scope} {e : Expression} :
    resolve value scope = .ok e ↔ ∃ kind base, BaseText scope value kind base ∧
      e = ⟨kind, mentionsId value, freshText value base⟩ := by
  simp only [resolve, bind_eq_ok, except_pure, Except.ok.injEq, Prod.exists]
  constructor
  · rintro ⟨kind, base, h, rfl⟩
    exact ⟨kind, base, baseText_of_resolveBase h, rfl⟩
  · rintro ⟨kind, base, h, rfl⟩
    exact ⟨kind, base, resolveBase_of_baseText h, rfl⟩

def Scope.offersResult : Scope → Bool
  | .direct => false
  | .pipeline stored => stored

/-- What a value may look like, where `stored` says whether a result may be read: an input marker or,
with a result at hand, a result marker before a plain path, or plain text, which starts with neither. -/
inductive Valid (stored : Bool) : String → Prop
  | input {path : String} : path ≠ "" → Plain path → Valid stored ("$" ++ path)
  | result {path : String} : stored = true → path ≠ "" → Plain path → Valid stored ("#" ++ path)
  | literal {value : String} : Plain value → Valid stored value

theorem resolve_accepts {value : String} {scope : Scope} :
    (∃ e, resolve value scope = .ok e) ↔ Valid scope.offersResult value := by
  constructor
  · rintro ⟨e, h⟩
    obtain ⟨kind, base, hbase, -⟩ := resolve_eq_ok.1 h
    cases hbase with
    | input hne hp => exact .input hne hp
    | result hscope hne hp => exact .result (by rw [hscope]; rfl) hne hp
    | literal hp => exact .literal hp
  · intro h
    cases h with
    | input hne hp => exact ⟨_, resolve_eq_ok.2 ⟨_, _, .input hne hp, rfl⟩⟩
    | result hoffers hne hp =>
      have hscope : scope = .pipeline true := by
        cases scope with
        | direct => cases hoffers
        | pipeline stored => rw [Scope.offersResult] at hoffers; rw [hoffers]
      exact ⟨_, resolve_eq_ok.2 ⟨_, _, .result hscope hne hp, rfl⟩⟩
    | literal hp => exact ⟨_, resolve_eq_ok.2 ⟨_, _, .literal hp, rfl⟩⟩

theorem reads_of_resolve {value : String} {stored : Bool} {e : Expression} {slot : Slot}
    (h : resolve value (.pipeline stored) = .ok e) (hslot : e.reads (.pipeline stored) = some slot) :
    slot = .input ∨ slot = .dbResult ∧ stored = true := by
  obtain ⟨kind, base, hbase, rfl⟩ := resolve_eq_ok.1 h
  cases hbase with
  | input => simp_all [Expression.reads]
  | result hstored => simp_all [Expression.reads]
  | literal => simp [Expression.reads] at hslot

end ResolverPipeline
