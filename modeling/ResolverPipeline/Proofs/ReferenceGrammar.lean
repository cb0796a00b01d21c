import ResolverPipeline.Proofs.Occurrence

namespace ResolverPipeline

def Unmarked (value : String) : Prop := (∀ path, value ≠ "$" ++ path) ∧ ∀ path, value ≠ "#" ++ path

def FirstReserved (text : String) (c : Char) : Prop :=
  ∃ before after, text.toList = before ++ c :: after ∧ (c = '"' ∨ c = '$' ∨ c = '#') ∧
    ∀ b ∈ before, b ≠ '"' ∧ b ≠ '$' ∧ b ≠ '#'

/-- A value that is accepted in a scope, its kind, and what it is written as but for the tokens. -/
inductive Spelled : Scope → String → ReferenceKind → String → Prop
  | argument {path : String} : path ≠ "" → Plain path →
      Spelled .direct ("$" ++ path) .input ("$ctx.args." ++ path)
  | input {stored : Bool} {path : String} : path ≠ "" → Plain path →
      Spelled (.pipeline stored) ("$" ++ path) .input ("$ctx.stash.input." ++ path)
  | result {path : String} : path ≠ "" → Plain path →
      Spelled (.pipeline true) ("#" ++ path) .result ("$ctx.stash.dbresult." ++ path)
  | literal {scope : Scope} {value : String} : Plain value →
      Spelled scope value .literal ("\"" ++ value ++ "\"")

/-- A value that is refused in a scope, and why. -/
inductive Refused : Scope → String → ReferenceError → Prop
  | outsidePipeline {path : String} :
      Refused .direct ("#" ++ path) (.resultOutsidePipeline ("#" ++ path))
  | notAvailable {path : String} :
      Refused (.pipeline false) ("#" ++ path) (.resultNotAvailable ("#" ++ path))
  | noInputPath {scope : Scope} : Refused scope "$" (.emptyPath "$")
  | noResultPath : Refused (.pipeline true) "#" (.emptyPath "#")
  | inputPath {scope : Scope} {path : String} {c : Char} : FirstReserved path c →
      Refused scope ("$" ++ path) (.invalidCharacter path c)
  | resultPath {path : String} {c : Char} : FirstReserved path c →
      Refused (.pipeline true) ("#" ++ path) (.invalidCharacter path c)
  | literal {scope : Scope} {value : String} {c : Char} : Unmarked value → FirstReserved value c →
      Refused scope value (.invalidCharacter value c)

theorem firstReserved_iff {text : String} {c : Char} :
    FirstReserved text c ↔ text.toList.find? isReserved = some c := by
  have hreserved : ∀ b, isReserved b = true ↔ b = '"' ∨ b = '$' ∨ b = '#' := by
    simp [isReserved, or_assoc]
  simp only [List.find?_eq_some_iff_append, FirstReserved, Bool.not_eq_true', ← Bool.not_eq_true,
    hreserved, not_or]
  constructor
  · rintro ⟨before, after, htext, hc, hbefore⟩
    exact ⟨hc, before, after, htext, hbefore⟩
  · rintro ⟨hc, before, after, htext, hbefore⟩
    exact ⟨before, after, htext, hc, hbefore⟩

theorem plainText_eq_error {text : String} {e : ReferenceError} :
    plainText text = .error e ↔ ∃ c, FirstReserved text c ∧ .invalidCharacter text c = e := by
  simp only [firstReserved_iff, plainText]
  cases text.toList.find? isReserved <;> simp

theorem quote_eq_error {value : String} {e : ReferenceError} :
    quote value = .error e ↔ ∃ c, FirstReserved value c ∧ .invalidCharacter value c = e := by
  simp [quote, bind_eq_error, plainText_eq_error]

@[simp] theorem not_firstReserved_empty (c : Char) : ¬ FirstReserved "" c := by
  simp [FirstReserved]

theorem fieldPath_eq_error {value path : String} {e : ReferenceError} :
    fieldPath value path = .error e ↔ path = "" ∧ .emptyPath value = e ∨
      ∃ c, FirstReserved path c ∧ .invalidCharacter path c = e := by
  unfold fieldPath
  split
  · rename_i hpath
    simp [hpath]
  · rename_i hpath
    simp [hpath, plainText_eq_error]

theorem resolve_eq_error {value : String} {scope : Scope} {e : ReferenceError} :
    resolve value scope = .error e ↔ resolveBase value scope = .error e := by
  simp [resolve, bind_eq_error]

theorem resolve_input_eq_error {path : String} {scope : Scope} {e : ReferenceError} :
    resolve ("$" ++ path) scope = .error e ↔ path = "" ∧ .emptyPath ("$" ++ path) = e ∨
      ∃ c, FirstReserved path c ∧ .invalidCharacter path c = e := by
  simp [resolve_eq_error, resolveBase_input, bind_eq_error, fieldPath_eq_error]

theorem resolve_result_eq_error {path : String} {scope : Scope} {e : ReferenceError} :
    resolve ("#" ++ path) scope = .error e ↔ scope.resultBase ("#" ++ path) = .error e ∨
      scope = .pipeline true ∧ (path = "" ∧ .emptyPath ("#" ++ path) = e ∨
        ∃ c, FirstReserved path c ∧ .invalidCharacter path c = e) := by
  simp only [resolve_eq_error, resolveBase_result, bind_eq_error, Scope.resultBase_eq_ok,
    fieldPath_eq_error]
  simp

theorem resolve_literal_eq_error {value : String} (h : Unmarked value) {scope : Scope}
    {e : ReferenceError} : resolve value scope = .error e ↔
      ∃ c, FirstReserved value c ∧ .invalidCharacter value c = e := by
  simp [resolve_eq_error, resolveBase_literal h.1 h.2, bind_eq_error, quote_eq_error]

theorem resolve_of_refused {value : String} {scope : Scope} {e : ReferenceError}
    (h : Refused scope value e) : resolve value scope = .error e := by
  cases h with
  | outsidePipeline => exact resolve_result_eq_error.2 (.inl rfl)
  | notAvailable => exact resolve_result_eq_error.2 (.inl rfl)
  | noInputPath => exact resolve_input_eq_error.2 (.inl ⟨rfl, rfl⟩)
  | noResultPath => exact resolve_result_eq_error.2 (.inr ⟨rfl, .inl ⟨rfl, rfl⟩⟩)
  | inputPath hc => exact resolve_input_eq_error.2 (.inr ⟨_, hc, rfl⟩)
  | resultPath hc => exact resolve_result_eq_error.2 (.inr ⟨rfl, .inr ⟨_, hc, rfl⟩⟩)
  | literal hvalue hc => exact (resolve_literal_eq_error hvalue).2 ⟨_, hc, rfl⟩

theorem refused_of_resolve {value : String} {scope : Scope} {e : ReferenceError}
    (h : resolve value scope = .error e) : Refused scope value e := by
  obtain ⟨path, rfl⟩ | ⟨path, rfl⟩ | hvalue := marker_cases value
  · obtain ⟨rfl, rfl⟩ | ⟨c, hc, rfl⟩ := resolve_input_eq_error.1 h
    · exact .noInputPath
    · exact .inputPath hc
  · obtain h | ⟨rfl, ⟨rfl, rfl⟩ | ⟨c, hc, rfl⟩⟩ := resolve_result_eq_error.1 h
    · match scope with
      | .direct =>
        cases h
        exact .outsidePipeline
      | .pipeline false =>
        cases h
        exact .notAvailable
      | .pipeline true => cases h
    · exact .noResultPath
    · exact .resultPath hc
  · obtain ⟨c, hc, rfl⟩ := (resolve_literal_eq_error hvalue).1 h
    exact .literal hvalue hc

theorem baseText_iff_spelled {value base : String} {scope : Scope} {kind : ReferenceKind} :
    BaseText scope value kind base ↔ Spelled scope value kind base := by
  constructor
  · intro h
    cases h with
    | input hne hp =>
      cases scope with
      | direct => exact .argument hne hp
      | pipeline stored => exact .input hne hp
    | result hscope hne hp =>
      subst hscope
      exact .result hne hp
    | literal hp => exact .literal hp
  · intro h
    cases h with
    | argument hne hp => exact .input hne hp
    | input hne hp => exact .input hne hp
    | result hne hp => exact .result rfl hne hp
    | literal hp => exact .literal hp

theorem withFreshIds_eq (text : String) :
    withFreshIds text = "$util.str.toReplace(" ++ text ++ ", \"@id\", $util.autoId())" := by
  have htoken : ", \"" ++ (idToken ++ "\", $util.autoId())") = ", \"@id\", $util.autoId())" := by
    decide +kernel
  unfold withFreshIds
  generalize "$util.str.toReplace(" = opening
  rw [String.append_assoc, String.append_assoc, htoken]

theorem resolve_eq_ok_iff_spelled {value : String} {scope : Scope} {e : Expression} :
    resolve value scope = .ok e ↔ ∃ base, Spelled scope value e.kind base ∧
      (e.generatesId = true ↔ Contains value "@id") ∧
      e.text = if e.generatesId then "$util.str.toReplace(" ++ base ++ ", \"@id\", $util.autoId())"
        else base := by
  obtain ⟨kind, generates, text⟩ := e
  simp only [resolve_eq_ok, baseText_iff_spelled, freshText, withFreshIds_eq, ← mentionsId_iff,
    Expression.mk.injEq]
  constructor
  · rintro ⟨_, base, hbase, rfl, rfl, rfl⟩
    exact ⟨base, hbase, Iff.rfl, rfl⟩
  · rintro ⟨base, hbase, hgenerates, htext⟩
    obtain rfl : generates = mentionsId value := Bool.eq_iff_iff.2 hgenerates
    exact ⟨kind, base, hbase, rfl, rfl, htext⟩

theorem valid_input_iff {stored : Bool} {path : String} :
    Valid stored ("$" ++ path) ↔ path ≠ "" ∧ Plain path := by
  constructor
  · generalize hvalue : "$" ++ path = value
    intro h
    cases h with
    | input hne hp =>
      obtain rfl := String.append_right_inj _ |>.1 hvalue
      exact ⟨hne, hp⟩
    | result => simp [← String.toList_inj] at hvalue
    | literal hp => exact absurd hvalue.symm (hp.ne_input path)
  · rintro ⟨hne, hp⟩
    exact .input hne hp

theorem valid_result_iff {stored : Bool} {path : String} :
    Valid stored ("#" ++ path) ↔ stored = true ∧ path ≠ "" ∧ Plain path := by
  constructor
  · generalize hvalue : "#" ++ path = value
    intro h
    cases h with
    | input => simp [← String.toList_inj] at hvalue
    | result hstored hne hp =>
      obtain rfl := String.append_right_inj _ |>.1 hvalue
      exact ⟨hstored, hne, hp⟩
    | literal hp => exact absurd hvalue.symm (hp.ne_result path)
  · rintro ⟨hstored, hne, hp⟩
    exact .result hstored hne hp

theorem valid_literal_iff {stored : Bool} {value : String} (hvalue : Unmarked value) :
    Valid stored value ↔ Plain value := by
  constructor
  · intro h
    cases h with
    | input => exact absurd rfl (hvalue.1 _)
    | result => exact absurd rfl (hvalue.2 _)
    | literal hp => exact hp
  · exact .literal

theorem Scope.offersResult_iff {scope : Scope} :
    scope.offersResult = true ↔ scope = .pipeline true := by
  cases scope <;> simp [Scope.offersResult]

/-- Values are accepted by their grammar, and each comes out as it is spelled, with one call around that
if it asks for an identifier.  Any other value is refused: for its scope before its path is looked at,
for want of a path before its characters, and then for the first character that is reserved. -/
theorem resolve_byGrammar (scope : Scope) :
    (∀ path, (∃ e, resolve ("$" ++ path) scope = .ok e) ↔ path ≠ "" ∧ Plain path) ∧
    (∀ path, (∃ e, resolve ("#" ++ path) scope = .ok e) ↔
      scope = .pipeline true ∧ path ≠ "" ∧ Plain path) ∧
    (∀ value, Unmarked value → ((∃ e, resolve value scope = .ok e) ↔ Plain value)) ∧
    (∀ value e, resolve value scope = .ok e ↔ ∃ base, Spelled scope value e.kind base ∧
      (e.generatesId = true ↔ Contains value "@id") ∧
      e.text = if e.generatesId then "$util.str.toReplace(" ++ base ++ ", \"@id\", $util.autoId())"
        else base) ∧
    ∀ value refusal, resolve value scope = .error refusal ↔ Refused scope value refusal := by
  refine ⟨fun path => ?_, fun path => ?_, fun value hvalue => ?_, fun value e => ?_,
    fun value refusal => ?_⟩
  · rw [resolve_accepts, valid_input_iff]
  · rw [resolve_accepts, valid_result_iff, Scope.offersResult_iff]
  · rw [resolve_accepts, valid_literal_iff hvalue]
  · exact resolve_eq_ok_iff_spelled
  · exact ⟨refused_of_resolve, resolve_of_refused⟩

theorem faultyValues_byGrammar :
    Unmarked "@id$\"" ∧ (¬ ∃ e, resolve "@id$\"" .direct = .ok e) ∧
    resolve "@id$\"" .direct = .error (.invalidCharacter "@id$\"" '$') ∧
    resolve "$a#\"" .direct = .error (.invalidCharacter "a#\"" '#') ∧
    resolve "#" (.pipeline false) = .error (.resultNotAvailable "#") ∧
    resolve "#@id" (.pipeline true) =
      .ok ⟨.result, true, "$util.str.toReplace($ctx.stash.dbresult.@id, \"@id\", $util.autoId())"⟩ := by
  have hunmarked : Unmarked "@id$\"" := by
    constructor <;> intro path h <;> simp [← String.toList_inj] at h
  obtain ⟨-, -, hliteral, -, hrefused⟩ := resolve_byGrammar .direct
  obtain ⟨-, -, -, -, hrefused'⟩ := resolve_byGrammar (.pipeline false)
  obtain ⟨-, -, -, hspelled, -⟩ := resolve_byGrammar (.pipeline true)
  refine ⟨hunmarked, ?_, ?_, ?_, ?_, ?_⟩
  · rw [hliteral _ hunmarked]
    decide +kernel
  · exact (hrefused _ _).2
      (.literal hunmarked ⟨['@', 'i', 'd'], ['"'], by decide +kernel, by decide, by simp⟩)
  · exact (hrefused _ _).2
      (@Refused.inputPath _ "a#\"" _ ⟨['a'], ['"'], by decide +kernel, by decide, by simp⟩)
  · exact (hrefused' _ _).2 (@Refused.notAvailable "")
  · have hbase : Spelled (.pipeline true) "#@id" .result "$ctx.stash.dbresult.@id" :=
      @Spelled.result "@id" (by decide) (by decide +kernel)
    exact (hspelled _ _).2 ⟨_, hbase, by decide +kernel, by decide +kernel⟩

end ResolverPipeline
