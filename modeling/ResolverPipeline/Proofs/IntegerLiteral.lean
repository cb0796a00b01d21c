import Mathlib.Data.List.TakeWhile
import ResolverPipeline.Proofs.JsonText
import ResolverPipeline.Proofs.Rounding

namespace ResolverPipeline

open Decimal

namespace Json

section Scanning

def digitsOf (n : Int) : List Char := Nat.toDigits 10 n.natAbs

theorem toList_toString (n : Int) :
    (toString n).toList = (if n < 0 then ['-'] else []) ++ digitsOf n := by
  cases n with
  | ofNat m =>
    have htext : toString (Int.ofNat m) = toString m := rfl
    rw [htext, Nat.toString_eq_ofList_toDigits, String.toList_ofList, if_neg (by simp)]
    rfl
  | negSucc m =>
    have htext : toString (Int.negSucc m) = "-" ++ toString (m + 1) := rfl
    rw [htext, String.toList_append, Nat.toString_eq_ofList_toDigits, if_pos (Int.negSucc_lt_zero m)]
    exact congrArg (['-'] ++ ·) String.toList_ofList

theorem isDigit_of_mem {n : Nat} {c : Char} (h : c ∈ Nat.toDigits 10 n) :
    Number.isDigit c = true := by
  have := Nat.isDigit_of_mem_toDigits (by norm_num) le_rfl h
  simpa [Number.isDigit, Char.isDigit, Char.le_def] using this

theorem toDigits_head {n : Nat} (hn : 0 < n) :
    ∃ c cs, Nat.toDigits 10 n = c :: cs ∧ Number.digitValue c ≠ 0 := by
  induction n using Nat.strongRecOn with
  | ind n ih =>
    obtain hlt | hge := Nat.lt_or_ge n 10
    · have hdigit : ∀ k < 10, 0 < k → Number.digitValue (Nat.digitChar k) ≠ 0 := by decide
      exact ⟨_, [], Nat.toDigits_of_lt_base hlt, hdigit n hlt hn⟩
    · obtain ⟨c, cs, heq, hc⟩ := ih (n / 10) (by omega) (by omega)
      refine ⟨c, cs ++ [(n % 10).digitChar], ?_, hc⟩
      rw [Nat.toDigits_of_base_le (by norm_num) hge, heq, List.cons_append]

theorem scanDigits_toDigits (n : Nat) :
    Number.scanDigits (Nat.toDigits 10 n) = ((Nat.toDigits 10 n).map Number.digitValue, []) := by
  have hall : ∀ c ∈ Nat.toDigits 10 n, Number.isDigit c = true := fun _ => isDigit_of_mem
  rw [Number.scanDigits, List.takeWhile_eq_self_iff.2 hall, List.dropWhile_eq_nil_iff.2 hall]

theorem scanInteger_toDigits (n : Nat) : Number.scanInteger (Nat.toDigits 10 n) =
    some ((Nat.toDigits 10 n).map Number.digitValue, []) := by
  rw [Number.scanInteger, scanDigits_toDigits]
  obtain rfl | hn := Nat.eq_zero_or_pos n
  · rfl
  · obtain ⟨c, cs, heq, hc⟩ := toDigits_head hn
    rw [heq, List.map_cons]
    split
    · rename_i h
      cases h
    · rename_i h
      simp only [Prod.mk.injEq, List.cons.injEq] at h
      exact absurd h.1.1 hc
    · rfl

def Number.Literal.ofInt (n : Int) : Number.Literal :=
  ⟨decide (n < 0), (digitsOf n).map digitValue, [], none⟩

theorem scan_negative {cs : List Char} {ds : List Nat} (h : Number.scanInteger cs = some (ds, [])) :
    Number.scan ('-' :: cs) = some (⟨true, ds, [], none⟩, []) := by
  have hscan : Number.scan ('-' :: cs) = (Number.scanInteger cs).bind fun r =>
      (Number.scanFraction r.2).bind fun r' => (Number.scanExponent r'.2).bind fun r'' =>
        some (⟨true, r.1, r'.1, r''.1⟩, r''.2) := rfl
  rw [hscan, h]
  rfl

theorem scan_positive {c : Char} {cs : List Char} {ds : List Nat} (hc : c ≠ '-')
    (h : Number.scanInteger (c :: cs) = some (ds, [])) :
    Number.scan (c :: cs) = some (⟨false, ds, [], none⟩, []) := by
  rw [Number.scan]
  · simp only [h, Option.bind_eq_bind, Option.bind_some]
    rfl
  · exact fun rest heq => hc (List.cons.inj heq).1

theorem isDigit_head (n : Nat) : ∃ c cs, Nat.toDigits 10 n = c :: cs ∧ Number.isDigit c = true := by
  obtain ⟨c, cs, heq⟩ := List.exists_cons_of_ne_nil (Nat.toDigits_ne_nil (b := 10) (n := n))
  exact ⟨c, cs, heq, isDigit_of_mem (heq ▸ List.mem_cons_self)⟩

theorem scan_toString (n : Int) : Number.scan (toString n).toList = some (.ofInt n, []) := by
  have hinteger := scanInteger_toDigits n.natAbs
  rw [toList_toString, Number.Literal.ofInt, digitsOf]
  split_ifs with hneg
  · simpa [hneg] using scan_negative hinteger
  · obtain ⟨c, cs, heq, hc⟩ := isDigit_head n.natAbs
    rw [heq] at hinteger ⊢
    have hminus : c ≠ '-' := by
      rintro rfl
      cases hc
    simpa [hneg] using scan_positive hminus hinteger

theorem next_number {c : Char} (h : c = '-' ∨ Number.isDigit c = true) (cs : List Char) :
    Token.next (c :: cs) = (Number.scan (c :: cs)).map fun r => (.number r.1.value?, r.2) := by
  have hother : ∀ d : Char, d ≠ '-' → Number.isDigit d = false → c ≠ d := by
    rintro d hminus hdigit rfl
    obtain h | h := h
    · exact hminus h
    · rw [hdigit] at h
      cases h
  rw [Token.next]
  · cases Number.scan (c :: cs) <;> rfl
  · exact List.cons_ne_nil c cs
  all_goals exact fun _ heq => hother _ (by decide) (by decide) (List.cons.inj heq).1

theorem toString_head (n : Int) :
    ∃ c cs, (toString n).toList = c :: cs ∧ (c = '-' ∨ Number.isDigit c = true) := by
  rw [toList_toString, digitsOf]
  split_ifs
  · exact ⟨_, _, rfl, .inl rfl⟩
  · obtain ⟨c, cs, heq, hc⟩ := isDigit_head n.natAbs
    exact ⟨c, cs, heq, .inr hc⟩

theorem ofText_toString (n : Int) :
    Parsed.ofText (toString n) = ⟨.number (Number.Literal.ofInt n).value?, true⟩ := by
  obtain ⟨c, cs, htext, hstart⟩ := toString_head n
  have hblank : Token.isBlank c = false := by
    rw [Bool.eq_false_iff]
    intro h
    simp only [Token.isBlank, Bool.or_eq_true, beq_iff_eq] at h
    obtain ((rfl | rfl) | rfl) | rfl := h <;> exact absurd hstart (by decide)
  have hscan := scan_toString n
  have hnext := next_number hstart cs
  rw [htext] at hscan
  rw [hscan, Option.map_some] at hnext
  have hscans : Scans (c :: cs) [.number (Number.Literal.ofInt n).value?] :=
    Scans.next hblank hnext (Nat.zero_le _) scans_nil
  have htokens : Token.scan (toString n).toList = [.number (Number.Literal.ofInt n).value?] := by
    rw [Token.scan, htext]
    exact hscans _ le_rfl
  rw [Parsed.ofText, htokens]
  rfl

end Scanning

section Gathering

theorem ofDigits_toDigits (n : Nat) :
    Number.ofDigits ((Nat.toDigits 10 n).map Number.digitValue) = n := by
  rw [Number.ofDigits, List.foldl_map]
  exact Nat.ofDigitChars_ten_toDigits

theorem digitValue_lt {n d : Nat} (h : d ∈ (Nat.toDigits 10 n).map Number.digitValue) : d < 10 := by
  obtain ⟨c, hc, rfl⟩ := List.mem_map.1 h
  have hdigit := isDigit_of_mem hc
  simp only [Number.isDigit, Bool.and_eq_true, decide_eq_true_eq, Char.le_def] at hdigit
  have hle : c.toNat ≤ 57 := hdigit.2
  have hzero : '0'.toNat = 48 := rfl
  rw [Number.digitValue, hzero]
  omega

theorem foldl_digits (n : Nat) (ds : List Nat) :
    ds.foldl (fun n d => 10 * n + d) n = n * 10 ^ ds.length + Number.ofDigits ds := by
  induction ds generalizing n with
  | nil => simp [Number.ofDigits]
  | cons d ds ih =>
    rw [Number.ofDigits, List.foldl_cons, List.foldl_cons, ih, ih (10 * 0 + d), List.length_cons]
    ring

theorem ofDigits_cons (d : Nat) (ds : List Nat) :
    Number.ofDigits (d :: ds) = d * 10 ^ ds.length + Number.ofDigits ds := by
  have h := foldl_digits d ds
  rwa [show ds.foldl (fun n d => 10 * n + d) d = Number.ofDigits (d :: ds) by
    simp [Number.ofDigits]] at h

theorem ofDigits_lt {ds : List Nat} (h : ∀ d ∈ ds, d < 10) : Number.ofDigits ds < 10 ^ ds.length := by
  induction ds with
  | nil => simp [Number.ofDigits]
  | cons d ds ih =>
    rw [List.forall_mem_cons] at h
    have hrest := ih h.2
    have hfirst : (d + 1) * 10 ^ ds.length ≤ 10 * 10 ^ ds.length := Nat.mul_le_mul_right _ h.1
    rw [ofDigits_cons, List.length_cons, Nat.pow_succ']
    linarith

theorem gather_spec {n : Nat} {ds : List Nat} {m : Nat} {rest : List Nat}
    (hn : n < 2 ^ 64) (h : Number.gather n ds = (m, rest)) :
    m < 2 ^ 64 ∧
      n * 10 ^ ds.length + Number.ofDigits ds = m * 10 ^ rest.length + Number.ofDigits rest ∧
      (∀ d ∈ rest, d ∈ ds) ∧
      (rest = [] ∨ ∃ d tail, rest = d :: tail ∧ 2 ^ 64 ≤ m * 10 + d) := by
  induction ds generalizing n with
  | nil =>
    rw [Number.gather, Prod.mk.injEq] at h
    obtain ⟨rfl, rfl⟩ := h
    exact ⟨hn, rfl, fun _ h => h, .inl rfl⟩
  | cons d ds ih =>
    rw [Number.gather, Nat.pow_eq] at h
    split at h
    · rename_i hfits
      obtain ⟨hlt, hvalue, hmem, hstop⟩ := ih hfits h
      refine ⟨hlt, ?_, fun e he => List.mem_cons_of_mem _ (hmem e he), hstop⟩
      rw [← hvalue, ofDigits_cons, List.length_cons]
      ring
    -- The digit that does not fit any more is the first of those left over.
    · rename_i hbig
      rw [Prod.mk.injEq] at h
      obtain ⟨rfl, rfl⟩ := h
      exact ⟨hn, rfl, fun _ h => h, .inr ⟨d, ds, rfl, by omega⟩⟩

/-- That `m` is what stands before the last `k` digits of `n`, and has nearly 64 bits at least. -/
structure Leading (n m k : Nat) : Prop where
  bits : 2 ^ 60 ≤ m
  lower : m * 10 ^ k ≤ n
  upper : n < (m + 1) * 10 ^ k

theorem gather_toDigits (n : Nat) :
    (n < 2 ^ 64 ∧ Number.gather 0 ((Nat.toDigits 10 n).map Number.digitValue) = (n, [])) ∨
      2 ^ 64 ≤ n ∧ ∃ m d rest,
        Number.gather 0 ((Nat.toDigits 10 n).map Number.digitValue) = (m, d :: rest) ∧
          Leading n m (rest.length + 1) := by
  obtain ⟨m, rest, hgather⟩ :
      ∃ m rest, Number.gather 0 ((Nat.toDigits 10 n).map Number.digitValue) = (m, rest) := ⟨_, _, rfl⟩
  obtain ⟨hlt, hvalue, hmem, hstop⟩ := gather_spec (Nat.two_pow_pos 64) hgather
  rw [ofDigits_toDigits, zero_mul, zero_add] at hvalue
  obtain rfl | ⟨d, tail, rfl, hbig⟩ := hstop
  · obtain rfl : n = m := by simpa [Number.ofDigits] using hvalue
    exact .inl ⟨hlt, hgather⟩
  · have hdigits : ∀ e ∈ d :: tail, e < 10 := fun e he => digitValue_lt (hmem e he)
    have hrest := ofDigits_lt hdigits
    have hd := hdigits d List.mem_cons_self
    refine .inr ⟨?_, m, d, tail, hgather, by omega, ?_, ?_⟩
    · rw [hvalue, ofDigits_cons, List.length_cons, pow_succ]
      calc 2 ^ 64 ≤ m * 10 + d := hbig
        _ ≤ (m * 10 + d) * 10 ^ tail.length := Nat.le_mul_of_pos_right _ (by positivity)
        _ ≤ m * (10 ^ tail.length * 10) + (d * 10 ^ tail.length + Number.ofDigits tail) := by linarith
    · rw [hvalue, List.length_cons]
      omega
    · rw [hvalue, List.length_cons] at *
      linarith

def Word (n : Int) : Prop := -2 ^ 63 ≤ n ∧ n < 2 ^ 64

theorem value?_of_word {n : Int} (h : Word n) :
    (Number.Literal.ofInt n).value? = some (.whole n) := by
  obtain ⟨hlow, hhigh⟩ := h
  obtain ⟨-, hgather⟩ | ⟨hbig, -⟩ := gather_toDigits n.natAbs
  · rw [Number.Literal.value?, Number.Literal.ofInt, digitsOf]
    simp only [hgather, Nat.pow_eq]
    by_cases hneg : n < 0
    · simp only [hneg, decide_true, Bool.not_true, Bool.false_eq_true, if_false]
      rw [if_pos (by simp; omega)]
      congr 2
      omega
    · simp only [hneg, decide_false, Bool.not_false, if_true]
      congr 2
      omega
  · omega

theorem value?_of_not_word {n : Int} (h : ¬ Word n) : ∃ m k : Nat, Leading n.natAbs m k ∧
    (Number.Literal.ofInt n).value? =
      (Number.scale m k).map fun x => .real (.finite (decide (n < 0)) x) := by
  rw [Word, not_and_or] at h
  rw [Number.Literal.value?, Number.Literal.ofInt, digitsOf]
  obtain ⟨hsmall, hgather⟩ | ⟨hbig, m, d, rest, hgather, hleading⟩ := gather_toDigits n.natAbs
  · have hneg : n < 0 := by omega
    refine ⟨n.natAbs, 0, ⟨by omega, by simp, by simp⟩, ?_⟩
    simp only [hgather, Nat.pow_eq, hneg, decide_true, Bool.not_true, Bool.false_eq_true, if_false]
    rw [if_neg (by simp; omega)]
    cases Number.scale n.natAbs 0 <;> rfl
  · refine ⟨m, rest.length + 1, hleading, ?_⟩
    simp only [hgather, Number.gather, List.length_nil, List.length_cons, Nat.sub_zero,
      Nat.cast_zero, sub_zero]
    cases Number.scale m (rest.length + 1 : Nat) <;> rfl

end Gathering

section Scaling

open Magnitude

variable {m k : Nat} (hm : 2 ^ 60 ≤ m)

include hm

theorem product_ge {a b : Magnitude} (ha : a.Rounded m) (hb : b.Rounded (10 ^ k : Nat)) :
    2 ^ 59 ≤ a.value * b.value := by
  have hmcast : (2 ^ 60 : ℚ) ≤ m := by exact_mod_cast hm
  have hten : (1 : ℚ) ≤ (10 ^ k : Nat) := by exact_mod_cast Nat.one_le_pow _ _ (by norm_num)
  have hage := ha.bounds.1
  have hbge := hb.bounds.1
  calc (2 ^ 59 : ℚ) ≤ ((1 - 1 / 2 ^ 53) * 2 ^ 60) * ((1 - 1 / 2 ^ 53) * 1) := by norm_num
    _ ≤ a.value * b.value := by
        refine mul_le_mul ?_ ?_ (by norm_num) (by linarith) <;> linarith

theorem scale_rounded {y : Magnitude} (h : Number.scale m k = some y) :
    ∃ a b : Magnitude, a.Rounded m ∧ b.Rounded (10 ^ k : Nat) ∧ y.Rounded (a.value * b.value) := by
  rw [Number.scale] at h
  simp only [Option.bind_eq_bind, Option.bind_eq_some_iff] at h
  obtain ⟨a, ha, h⟩ := h
  have ha := Rounded.of_ofNat? (by omega) ha
  rw [if_pos (Int.natCast_nonneg k), ha.toCanonical.isZero_eq_false, if_neg (by decide)] at h
  split at h
  · cases h
  · rw [Option.bind_eq_some_iff] at h
    obtain ⟨b, hb, h⟩ := h
    have hb := Rounded.of_ofNat? (Nat.pow_pos (by norm_num)) hb
    simp only [Int.toNat_natCast] at hb
    have hge := product_ge hm ha hb
    exact ⟨a, b, ha, hb, .of_mul? ha.toCanonical hb.toCanonical (by linarith) h⟩

theorem exists_scale (h : m * 10 ^ k < 2 ^ 1023) : ∃ y, Number.scale m k = some y := by
  have hmpos : 0 < m := by omega
  have hten : 0 < 10 ^ k := Nat.pow_pos (by norm_num)
  have hmle : m ≤ 2 ^ 1023 := (Nat.le_mul_of_pos_right m hten).trans h.le
  have htenle : 10 ^ k ≤ 2 ^ 1023 := (Nat.le_mul_of_pos_left _ hmpos).trans h.le
  obtain ⟨a, ha⟩ := exists_ofNat? hmpos hmle
  obtain ⟨b, hb⟩ := exists_ofNat? hten htenle
  have hround := Rounded.of_ofNat? hmpos ha
  have hround' := Rounded.of_ofNat? hten hb
  have hproduct : a.value * b.value ≤ 3 / 2 * 2 ^ 1023 := by
    have hcast : (m : ℚ) * (10 ^ k : Nat) ≤ 2 ^ 1023 := by exact_mod_cast h.le
    have hle := mul_le_mul hround.bounds.2 hround'.bounds.2 hround'.toCanonical.value_pos.le
      (by positivity)
    have hpos : (0 : ℚ) ≤ (m : ℚ) * (10 ^ k : Nat) := by positivity
    generalize (2 : ℚ) ^ 1023 = limit at *
    calc a.value * b.value ≤ (1 + 1 / 2 ^ 52) * m * ((1 + 1 / 2 ^ 52) * (10 ^ k : Nat)) := hle
      _ = (1 + 1 / 2 ^ 52) ^ 2 * ((m : ℚ) * (10 ^ k : Nat)) := by ring
      _ ≤ 3 / 2 * ((m : ℚ) * (10 ^ k : Nat)) := mul_le_mul_of_nonneg_right (by norm_num) hpos
      _ ≤ 3 / 2 * limit := by linarith
  obtain ⟨y, hy⟩ := exists_mul? hround.toCanonical hround'.toCanonical hproduct
  obtain ⟨limit, hlimit, hbeyond⟩ : ∃ limit ≤ 309, 2 ^ 1023 < 10 ^ limit :=
    ⟨309, le_rfl, by decide +kernel⟩
  have hk : k < limit := (Nat.pow_lt_pow_iff_right (by norm_num)).1 (htenle.trans_lt hbeyond)
  refine ⟨y, ?_⟩
  rw [Number.scale, ha]
  simp only [Option.bind_eq_bind, Option.bind_some]
  rw [if_pos (Int.natCast_nonneg k), hround.toCanonical.isZero_eq_false, if_neg (by decide),
    if_neg (by omega), Int.toNat_natCast, Nat.pow_eq, hb, Option.bind_some, hy]

end Scaling

end Json

end ResolverPipeline
