import ResolverPipeline.Proofs.Edits
import ResolverPipeline.Proofs.ReferenceGrammar

namespace ResolverPipeline

namespace Expression

def opening (e : Expression) : String := if e.generatesId then "$util.str.toReplace(" else ""

def closing (e : Expression) : String :=
  if e.generatesId then ", \"@id\", $util.autoId())" else ""

end Expression

theorem resolve_spelled {value : String} {scope : Scope} {e : Expression}
    (h : resolve value scope = .ok e) : ∃ base, Spelled scope value e.kind base ∧
      (e.generatesId = true ↔ Contains value "@id") ∧ e.text = e.opening ++ base ++ e.closing := by
  obtain ⟨base, hbase, hgenerates, htext⟩ := resolve_eq_ok_iff_spelled.1 h
  refine ⟨base, hbase, hgenerates, ?_⟩
  rw [htext, Expression.opening, Expression.closing]
  cases e.generatesId with
  | true => rfl
  | false => simp

/-- What a value comes to for a lone operation and at the start of a pipeline: the same, but that a path
into the input leads to the arguments there and to the stash here. -/
structure SameButInput (value : String) (direct stashed : Expression) : Prop where
  kind_eq : direct.kind = stashed.kind
  generatesId_eq : direct.generatesId = stashed.generatesId
  literal_or_input : direct.kind = .literal ∨ direct.kind = .input
  literal : direct.kind = .literal → direct.text = stashed.text
  input : direct.kind = .input → ∃ path, value = "$" ++ path ∧
    direct.text = direct.opening ++ ("$ctx.args." ++ path) ++ direct.closing ∧
    stashed.text = stashed.opening ++ ("$ctx.stash.input." ++ path) ++ stashed.closing

theorem spelled_direct_stashed {value base base' : String} {kind kind' : ReferenceKind}
    (hd : Spelled .direct value kind base) (hs : Spelled (.pipeline false) value kind' base') :
    kind = kind' ∧ (kind = .literal ∧ base = base' ∨ kind = .input ∧ ∃ path, value = "$" ++ path ∧
      base = "$ctx.args." ++ path ∧ base' = "$ctx.stash.input." ++ path) := by
  cases hd with
  | @argument path hne hp =>
    generalize hvalue : "$" ++ path = value at hs
    cases hs with
    | input =>
      obtain rfl := (String.append_right_inj _).1 hvalue
      exact ⟨rfl, .inr ⟨rfl, path, rfl, rfl, rfl⟩⟩
    | literal hp' => exact absurd hvalue.symm (hp'.ne_input path)
  | literal hp =>
    cases hs with
    | input => exact absurd rfl (hp.ne_input _)
    | literal => exact ⟨rfl, .inl ⟨rfl, rfl⟩⟩

theorem sameButInput_of_resolve {value : String} {direct stashed : Expression}
    (hd : resolve value .direct = .ok direct)
    (hs : resolve value (.pipeline false) = .ok stashed) : SameButInput value direct stashed := by
  obtain ⟨base, hbase, hgenerates, htext⟩ := resolve_spelled hd
  obtain ⟨base', hbase', hgenerates', htext'⟩ := resolve_spelled hs
  have hfresh : direct.generatesId = stashed.generatesId :=
    Bool.eq_iff_iff.2 (hgenerates.trans hgenerates'.symm)
  obtain ⟨hkind, ⟨hliteral, rfl⟩ | ⟨hinput, path, hvalue, rfl, rfl⟩⟩ :=
    spelled_direct_stashed hbase hbase'
  · refine ⟨hkind, hfresh, .inl hliteral, fun _ => ?_, fun h => ?_⟩
    · rw [htext, htext', Expression.opening, Expression.opening, Expression.closing,
        Expression.closing, hfresh]
    · rw [hliteral] at h
      cases h
  · refine ⟨hkind, hfresh, .inr hinput, fun h => ?_, fun _ => ⟨path, hvalue, htext, htext'⟩⟩
    rw [hinput] at h
    cases h

theorem resolve_error_of_scope {value : String} (hvalue : ∀ path, value ≠ "#" ++ path)
    {scope : Scope} {e : ReferenceError} (h : resolve value scope = .error e) (scope' : Scope) :
    resolve value scope' = .error e := by
  obtain ⟨path, rfl⟩ | ⟨path, rfl⟩ | hunmarked := marker_cases value
  · rw [resolve_input_eq_error] at h ⊢
    exact h
  · exact absurd rfl (hvalue path)
  · rw [resolve_literal_eq_error hunmarked] at h ⊢
    exact h

/-- A change of scope changes nothing but what may be read and where the input lies. -/
theorem resolve_acrossScopes (value : String) :
    (∀ e, resolve value (.pipeline false) = .ok e → resolve value (.pipeline true) = .ok e) ∧
    ((∃ e, resolve value .direct = .ok e) ↔ ∃ e, resolve value (.pipeline false) = .ok e) ∧
    (∀ direct stashed, resolve value .direct = .ok direct →
      resolve value (.pipeline false) = .ok stashed → SameButInput value direct stashed) ∧
    ((∀ path, value ≠ "#" ++ path) → ∀ scope e, resolve value scope = .error e →
      ∀ scope', resolve value scope' = .error e) := by
  refine ⟨fun e h => ?_, ?_, fun direct stashed => sameButInput_of_resolve,
    fun hvalue scope e => resolve_error_of_scope hvalue⟩
  · exact resolve_mono (by simp) h
  · rw [resolve_accepts, resolve_accepts]
    rfl

theorem movedToken_acrossScopes :
    (∃ direct stashed, resolve "$@id" .direct = .ok direct ∧
      resolve "$@id" (.pipeline false) = .ok stashed ∧
      resolve "$@id" (.pipeline true) = .ok stashed ∧ SameButInput "$@id" direct stashed ∧
      direct.text = "$util.str.toReplace($ctx.args.@id, \"@id\", $util.autoId())" ∧
      stashed.text = "$util.str.toReplace($ctx.stash.input.@id, \"@id\", $util.autoId())") ∧
    (∀ path, "$a#" ≠ "#" ++ path) ∧
    resolve "$a#" .direct = .error (.invalidCharacter "a#" '#') ∧
    resolve "$a#" (.pipeline true) = .error (.invalidCharacter "a#" '#') := by
  obtain ⟨hmono, -, hsame, -⟩ := resolve_acrossScopes "$@id"
  obtain ⟨-, -, -, herror⟩ := resolve_acrossScopes "$a#"
  have hdirect : resolve "$@id" .direct = .ok ⟨.input, true,
      "$util.str.toReplace($ctx.args.@id, \"@id\", $util.autoId())"⟩ := by decide +kernel
  have hstashed : resolve "$@id" (.pipeline false) = .ok ⟨.input, true,
      "$util.str.toReplace($ctx.stash.input.@id, \"@id\", $util.autoId())"⟩ := by decide +kernel
  have hmarker : ∀ path, "$a#" ≠ "#" ++ path := by
    intro path h
    simp [← String.toList_inj] at h
  have hrefused : resolve "$a#" .direct = .error (.invalidCharacter "a#" '#') := by decide +kernel
  exact ⟨⟨_, _, hdirect, hstashed, hmono _ hstashed, hsame _ _ hdirect hstashed, rfl, rfl⟩, hmarker,
    hrefused, herror hmarker _ _ hrefused _⟩

end ResolverPipeline
