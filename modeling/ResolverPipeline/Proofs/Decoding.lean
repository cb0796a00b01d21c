import Mathlib.Data.List.TakeWhile
import ResolverPipeline.Proofs.Reference

namespace ResolverPipeline

def fromMarker (s : String) : List Char := s.toList.dropWhile fun c => !isReserved c

/-- That the two texts are the same once they are from their first quote or marker on. -/
def Anchored (r r' : String) : Prop := fromMarker r = fromMarker r' → r = r'

def Marked (s : String) : Prop := s.toList.head?.any isReserved = true

instance (s : String) : Decidable (Marked s) := by unfold Marked; infer_instance

section FromMarker

variable {a b r r' : String}

theorem fromMarker_eq_nil : fromMarker a = [] ↔ Plain a := by
  rw [fromMarker, List.dropWhile_eq_nil_iff, plain_iff_find?_reserved, List.find?_eq_none]
  simp

theorem fromMarker_plain_append (h : Plain a) (r : String) :
    fromMarker (a ++ r) = fromMarker r := by
  rw [← fromMarker_eq_nil] at h
  simp_all [fromMarker]

theorem fromMarker_append (h : ¬ Plain a) (r : String) :
    fromMarker (a ++ r) = fromMarker a ++ r.toList := by
  rw [← fromMarker_eq_nil] at h
  rw [fromMarker, String.toList_append, List.dropWhile_append, if_neg, fromMarker]
  simpa [fromMarker] using h

theorem not_plain_of_head? {c : Char} (h : (fromMarker a).head? = some c) : ¬ Plain a := by
  intro hplain
  rw [fromMarker_eq_nil.2 hplain] at h
  cases h

theorem head?_fromMarker_append {c : Char} (h : (fromMarker a).head? = some c) (r : String) :
    (fromMarker (a ++ r)).head? = some c := by
  rw [fromMarker_append (not_plain_of_head? h), List.head?_append, h, Option.some_or]

theorem Marked.append (h : Marked a) (r : String) : Marked (a ++ r) := by
  unfold Marked at h ⊢
  rw [String.toList_append]
  cases ha : a.toList with
  | nil => simp [ha] at h
  | cons c cs => simpa [ha] using h

theorem Marked.fromMarker_eq (h : Marked a) : fromMarker a = a.toList := by
  unfold Marked at h
  unfold fromMarker
  cases ha : a.toList with
  | nil => rfl
  | cons c cs => simp_all

namespace Anchored

theorem refl (r : String) : Anchored r r := fun _ => rfl

theorem of_marked (h : Marked r) (h' : Marked r') : Anchored r r' := by
  intro heq
  rwa [h.fromMarker_eq, h'.fromMarker_eq, String.toList_inj] at heq

theorem of_fixed {s : String} (hs : ¬ Plain s) (r r' : String) : Anchored (s ++ r) (s ++ r') := by
  intro heq
  rw [fromMarker_append hs, fromMarker_append hs, List.append_cancel_left_eq,
    String.toList_inj] at heq
  rw [heq]

theorem append (s : String) (h : Anchored r r') : Anchored (s ++ r) (s ++ r') := by
  by_cases hs : Plain s
  · intro heq
    rw [fromMarker_plain_append hs, fromMarker_plain_append hs] at heq
    rw [h heq]
  · exact of_fixed hs r r'

end Anchored

theorem plain_append_inj (ha : Plain a) (hb : Plain b) (hr : Anchored r r')
    (h : a ++ r = b ++ r') : a = b ∧ r = r' := by
  have hfrom : fromMarker r = fromMarker r' := by
    rw [← fromMarker_plain_append ha, h, fromMarker_plain_append hb]
  obtain rfl := hr hfrom
  exact ⟨(String.append_left_inj r).1 h, rfl⟩

end FromMarker

section Resolved

variable {scope scope' : Scope} {v v' t t' r r' : String} {k k' : ReferenceKind}

theorem input_ne_result (x y : String) :
    Slot.input.path ++ x ≠ Slot.dbResult.path ++ y := by
  intro h
  have hchars := congrArg String.toList h
  simp [Slot.path, Slot.key] at hchars

theorem inputBase_ne_quote (scope : Scope) (x y : String) : scope.inputBase ++ x ≠ "\"" ++ y := by
  intro h
  have hchars := congrArg String.toList h
  cases scope <;> simp [Scope.inputBase, Slot.path] at hchars

theorem dbResult_ne_quote (x y : String) : Slot.dbResult.path ++ x ≠ "\"" ++ y := by
  intro h
  have hchars := congrArg String.toList h
  simp [Slot.path] at hchars

theorem baseText_inj (hscope : scope.inputBase = scope'.inputBase) (ht : BaseText scope v k t)
    (ht' : BaseText scope' v' k' t') (hr : Anchored r r') (h : t ++ r = t' ++ r') :
    v = v' ∧ r = r' := by
  cases ht with
  | @input path hne hp =>
    cases ht' with
    | @input path' hne' hp' =>
      simp only [hscope, String.append_assoc, String.append_right_inj] at h
      obtain ⟨rfl, rfl⟩ := plain_append_inj hp hp' hr h
      exact ⟨rfl, rfl⟩
    | result hs' hne' hp' =>
      subst hs'
      rw [hscope] at h
      simp only [String.append_assoc] at h
      exact absurd h (input_ne_result _ _)
    | literal hp' =>
      simp only [String.append_assoc] at h
      exact absurd h (inputBase_ne_quote _ _ _)
  | result hs hne hp =>
    subst hs
    cases ht' with
    | @input path' hne' hp' =>
      rw [← hscope] at h
      simp only [String.append_assoc] at h
      exact absurd h.symm (input_ne_result _ _)
    | result hs' hne' hp' =>
      simp only [String.append_assoc, String.append_right_inj] at h
      obtain ⟨rfl, rfl⟩ := plain_append_inj hp hp' hr h
      exact ⟨rfl, rfl⟩
    | literal hp' =>
      simp only [String.append_assoc] at h
      exact absurd h (dbResult_ne_quote _ _)
  | literal hp =>
    cases ht' with
    | @input path' hne' hp' =>
      simp only [String.append_assoc] at h
      exact absurd h.symm (inputBase_ne_quote _ _ _)
    | result hs' hne' hp' =>
      simp only [String.append_assoc] at h
      exact absurd h.symm (dbResult_ne_quote _ _)
    | literal hp' =>
      simp only [String.append_assoc, String.append_right_inj] at h
      obtain ⟨rfl, hquote⟩ := plain_append_inj hp hp' (.of_fixed (by decide) _ _) h
      exact ⟨rfl, (String.append_right_inj _).1 hquote⟩

theorem baseText_ne_fresh (ht : BaseText scope v k t) (x y : String) :
    t ++ x ≠ "$util.str.toReplace(" ++ y := by
  intro h
  have hchars := congrArg String.toList h
  -- A reference starts with the path of a slot and a literal with a quote; the call starts like neither.
  cases ht with
  | input => cases scope <;> simp [Scope.inputBase, Slot.path] at hchars
  | result => simp [Slot.path] at hchars
  | literal => simp at hchars

theorem withFreshIds_append (text more : String) :
    withFreshIds text ++ more = "$util.str.toReplace(" ++
      (text ++ (", \"" ++ (idToken ++ ("\", $util.autoId())" ++ more)))) := by
  unfold withFreshIds
  generalize "$util.str.toReplace(" = opening, ", \"" = comma, "\", $util.autoId())" = closing
  simp only [String.append_assoc]

theorem resolved_inj {e e' : Expression} (hscope : scope.inputBase = scope'.inputBase)
    (he : resolve v scope = .ok e) (he' : resolve v' scope' = .ok e') (hr : Anchored r r')
    (h : e.text ++ r = e'.text ++ r') : v = v' ∧ r = r' := by
  obtain ⟨kind, base, hbase, rfl⟩ := resolve_eq_ok.1 he
  obtain ⟨kind', base', hbase', rfl⟩ := resolve_eq_ok.1 he'
  simp only [freshText] at h
  cases hv : mentionsId v with
  | true =>
    cases hv' : mentionsId v' with
    | true =>
      simp only [hv, hv', if_true, withFreshIds_append, String.append_right_inj] at h
      obtain ⟨rfl, hclose⟩ := baseText_inj hscope hbase hbase'
        (((hr.append _).append _).append _) h
      simpa using hclose
    | false =>
      simp only [hv, hv', if_true, Bool.false_eq_true, if_false, withFreshIds_append] at h
      exact absurd h.symm (baseText_ne_fresh hbase' _ _)
  | false =>
    cases hv' : mentionsId v' with
    | true =>
      simp only [hv, hv', if_true, Bool.false_eq_true, if_false, withFreshIds_append] at h
      exact absurd h (baseText_ne_fresh hbase _ _)
    | false =>
      simp only [hv, hv', Bool.false_eq_true, if_false] at h
      exact baseText_inj hscope hbase hbase' hr h

theorem marked_resolved {e : Expression} (he : resolve v scope = .ok e) : Marked e.text := by
  obtain ⟨kind, base, hbase, rfl⟩ := resolve_eq_ok.1 he
  have hinput : Marked scope.inputBase := by
    cases scope with
    | direct => decide
    | pipeline stored => exact (by decide : Marked Slot.input.path)
  have hresult : Marked Slot.dbResult.path := by decide
  have hquote : Marked "\"" := by decide
  have hopen : Marked "$util.str.toReplace(" := by decide
  simp only [freshText]
  split
  · have hfresh := withFreshIds_append base ""
    rw [String.append_empty] at hfresh
    rw [hfresh]
    exact hopen.append _
  · cases hbase with
    | input => exact (hinput.append _).append _
    | result => exact (hresult.append _).append _
    | literal => exact (hquote.append _).append _

end Resolved

end ResolverPipeline
