import ResolverPipeline.Assembly

namespace ResolverPipeline

theorem toDigits_injective {n m : Nat} (h : Nat.toDigits 10 n = Nat.toDigits 10 m) : n = m := by
  have hn := congrArg (fun ds => Nat.ofDigitChars 10 ds 0) h
  simpa using hn

theorem takeWhile_fragment (k : StepKind) (xs : List Char) :
    (k.fragment.toList.reverse ++ xs).takeWhile Char.isDigit = [] := by
  cases k <;> rfl

theorem takeWhile_ordinal (k : StepKind) (n : Nat) (xs : List Char) :
    (xs ++ k.fragment.toList ++ Nat.toDigits 10 n).reverse.takeWhile Char.isDigit =
      (Nat.toDigits 10 n).reverse := by
  have hdigits : ∀ c ∈ (Nat.toDigits 10 n).reverse, c.isDigit := by
    intro c hc
    exact Nat.isDigit_of_mem_toDigits (by decide) (by decide) (List.mem_reverse.1 hc)
  rw [List.reverse_append, List.reverse_append, List.takeWhile_append_of_pos hdigits,
    takeWhile_fragment, List.append_nil]

theorem ordinal_inj {xs ys : List Char} {k k' : StepKind} {n n' : Nat}
    (h : xs ++ k.fragment.toList ++ Nat.toDigits 10 n =
      ys ++ k'.fragment.toList ++ Nat.toDigits 10 n') :
    xs ++ k.fragment.toList = ys ++ k'.fragment.toList ∧ n = n' := by
  have hn : n = n' := by
    apply toDigits_injective
    apply List.reverse_inj.1
    rw [← takeWhile_ordinal k n xs, h, takeWhile_ordinal]
  subst hn
  exact ⟨List.append_cancel_right h, rfl⟩

theorem fragment_of_suffix {k k' : StepKind} (h : k.fragment.toList <:+ k'.fragment.toList) :
    k = k' := by
  revert h
  cases k <;> cases k' <;> decide

theorem fragment_inj {xs ys : List Char} {k k' : StepKind}
    (h : xs ++ k.fragment.toList = ys ++ k'.fragment.toList) : xs = ys ∧ k = k' := by
  have hk : k = k' := by
    have hsuffix : k'.fragment.toList <:+ xs ++ k.fragment.toList := h ▸ List.suffix_append ys _
    obtain hle | hle := List.suffix_or_suffix_of_suffix (List.suffix_append xs _) hsuffix
    · exact fragment_of_suffix hle
    · exact (fragment_of_suffix hle).symm
  subst hk
  exact ⟨List.append_cancel_right h, rfl⟩

theorem toList_stepName (operation : Operation) (field : String) (k : StepKind) (n : Nat) :
    (stepName operation field k n).toList =
      (match operation with
        | .mutation => 'm'
        | .query => 'q') :: (field.toList ++ k.fragment.toList ++ Nat.toDigits 10 n) := by
  cases operation <;> simp [stepName]

theorem stepName_inj {o o' : Operation} {f f' : String} {k k' : StepKind} {n n' : Nat}
    (h : stepName o f k n = stepName o' f' k' n') : o = o' ∧ f = f' ∧ k = k' ∧ n = n' := by
  rw [← String.toList_inj, toList_stepName, toList_stepName, List.cons.injEq] at h
  obtain ⟨hmarker, htail⟩ := h
  obtain ⟨hbase, hn⟩ := ordinal_inj htail
  obtain ⟨hfield, hk⟩ := fragment_inj hbase
  refine ⟨?_, String.toList_inj.1 hfield, hk, hn⟩
  revert hmarker
  cases o <;> cases o' <;> simp

end ResolverPipeline
