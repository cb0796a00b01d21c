import Mathlib.Data.List.Infix
import ResolverPipeline.Proofs.Reference

namespace ResolverPipeline

/-- Whether no occurrence of `word` begins in the text, whatever comes behind it. -/
def avoids (word : List Char) : List Char → Bool
  | [] => true
  | c :: cs => !word.isPrefixOf (c :: cs) && !(c :: cs).isPrefixOf word && avoids word cs

section Avoids

variable {word longer text more : List Char} {c : Char}

theorem avoids_cons : avoids word (c :: text) ↔
    (¬ word <+: c :: text) ∧ (¬ c :: text <+: word) ∧ avoids word text := by
  simp only [avoids, Bool.and_eq_true, Bool.not_eq_true', ← Bool.not_eq_true,
    List.isPrefixOf_iff_prefix, and_assoc]

theorem not_prefix_append (h : avoids word (c :: text)) : ¬ word <+: (c :: text) ++ more := by
  rw [avoids_cons] at h
  intro hword
  cases List.prefix_or_prefix_of_prefix hword (List.prefix_append (c :: text) more) with
  | inl hle => exact h.1 hle
  | inr hle => exact h.2.1 hle

theorem avoids_append (ht : avoids word text) (hm : avoids word more) :
    avoids word (text ++ more) := by
  induction text with
  | nil => exact hm
  | cons c cs ih =>
    obtain ⟨-, htext, hrest⟩ := avoids_cons.1 ht
    rw [List.cons_append, avoids_cons]
    refine ⟨not_prefix_append ht, fun h => ?_, ih hrest⟩
    exact htext ((List.prefix_append (c :: cs) more).trans h)

theorem avoids_longer (hlonger : word <+: longer) (h : avoids word text) : avoids longer text := by
  induction text with
  | nil => rfl
  | cons c cs ih =>
    rw [avoids_cons] at h ⊢
    obtain ⟨hword, htext, hrest⟩ := h
    refine ⟨?_, ?_, ih hrest⟩
    · intro h
      exact hword (hlonger.trans h)
    · intro h
      cases List.prefix_or_prefix_of_prefix h hlonger with
      | inl h => exact htext h
      | inr h => exact hword h

theorem avoids_of_not_mem (h : c ∉ text) : avoids (c :: word) text := by
  induction text with
  | nil => rfl
  | cons c' cs ih =>
    rw [List.mem_cons, not_or] at h
    rw [avoids_cons, List.cons_prefix_cons, List.cons_prefix_cons]
    exact ⟨fun hword => h.1 hword.1, fun htext => h.1 htext.1.symm, ih h.2⟩

theorem not_isInfix_of_avoids (hne : word ≠ []) (h : avoids word text) : ¬ word <:+: text := by
  induction text with
  | nil => simpa using hne
  | cons c cs ih =>
    rw [avoids_cons] at h
    rw [List.infix_cons_iff, not_or]
    exact ⟨h.1, ih h.2.2⟩

end Avoids

def Contains (text word : String) : Prop := word.toList <:+: text.toList

instance (text word : String) : Decidable (Contains text word) :=
  decidable_of_iff (occurs word.toList text.toList = true) occurs_iff_isInfix

def Avoids (word text : String) : Prop := avoids word.toList text.toList = true

instance (word text : String) : Decidable (Avoids word text) := by unfold Avoids; infer_instance

theorem mentionsId_iff {value : String} : mentionsId value = true ↔ Contains value "@id" :=
  occurs_iff_isInfix

theorem contains_chars {word text : List Char} :
    Contains (String.ofList text) (String.ofList word) ↔ occurs word text = true := by
  rw [Contains, String.toList_ofList, String.toList_ofList, occurs_iff_isInfix]

theorem Contains.append_left {text word : String} (h : Contains text word) (more : String) :
    Contains (text ++ more) word := by
  rw [Contains, String.toList_append]
  exact h.trans (List.prefix_append _ _).isInfix

theorem Contains.append_right {more word : String} (h : Contains more word) (text : String) :
    Contains (text ++ more) word := by
  rw [Contains, String.toList_append]
  exact h.trans (List.suffix_append _ _).isInfix

namespace Avoids

variable {word longer text more : String}

theorem of_chars {word text : List Char} (h : avoids word text = true) :
    Avoids (String.ofList word) (String.ofList text) := by
  rw [Avoids, String.toList_ofList, String.toList_ofList]
  exact h

theorem append (ht : Avoids word text) (hm : Avoids word more) : Avoids word (text ++ more) := by
  rw [Avoids, String.toList_append]
  exact avoids_append ht hm

theorem longer_word (hlonger : word.toList <+: longer.toList) (h : Avoids word text) :
    Avoids longer text :=
  avoids_longer hlonger h

theorem not_contains (hne : word ≠ "") (h : Avoids word text) : ¬ Contains text word := by
  apply not_isInfix_of_avoids _ h
  simpa using hne

end Avoids

theorem Plain.avoids_marker {text : String} (h : Plain text) : Avoids "$" text :=
  avoids_of_not_mem h.2.1

end ResolverPipeline
