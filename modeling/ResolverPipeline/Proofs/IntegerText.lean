import ResolverPipeline.Proofs.IntegerLiteral
import ResolverPipeline.Proofs.Reference
import ResolverPipeline.Proofs.ShortestDecimal
import ResolverPipeline.Reading.Definition
import ResolverPipeline.Reading.Format

/-!
Raw values that are written as integers.  A raw value is kept as text, and an integer's text is the
integer's own as long as the integer fits into 64 bits.  Beyond, it is the shortest decimal of a number
near to the integer.
-/

namespace ResolverPipeline

open Decimal Document

namespace Json

section Reading

theorem read_toString (n : Int) :
    Format.json.read Document.readRaw (toString n) =
      match (Number.Literal.ofInt n).value? with
      | some v => .ok v.text
      | none => .error .malformed := by
  rw [Format.read, Json.read, ofText_toString]
  cases (Number.Literal.ofInt n).value? with
  | none => rfl
  | some v => cases v <;> rfl

theorem toString_eq_signed (n : Int) : toString n = signed (decide (n < 0)) (toString n.natAbs) := by
  cases n with
  | ofNat m => rfl
  | negSucc m => rw [decide_eq_true (Int.negSucc_lt_zero m)]; rfl

def withSign (negative : Bool) (m : Nat) : Int := if negative then -m else m

theorem toString_withSign (negative : Bool) {m : Nat} (hm : 0 < m) :
    toString (withSign negative m) = signed negative (toString m) := by
  rw [toString_eq_signed]
  cases negative
  · rw [withSign, if_neg (by decide), decide_eq_false (by omega)]
    rfl
  · simp [withSign, hm]

theorem withSign_eq_iff (n : Int) (m : Nat) :
    withSign (decide (n < 0)) m = n ↔ m = n.natAbs := by
  by_cases h : n < 0
  · simp only [withSign, h, decide_true, if_true]
    omega
  · simp only [withSign, h, decide_false, Bool.false_eq_true, if_false]
    omega

theorem natAbs_withSign (negative : Bool) (m : Nat) : (withSign negative m).natAbs = m := by
  cases negative <;> simp [withSign]

theorem withSign_neg_iff {p : Prop} [Decidable p] {m : Nat} (hm : 0 < m) :
    withSign (decide p) m < 0 ↔ p := by
  by_cases h : p
  · simp [withSign, h, hm]
  · simp only [withSign, h, decide_false, Bool.false_eq_true, if_false, iff_false]
    omega

theorem natAbs_withSign_sub (n : Int) (m : Nat) :
    (withSign (decide (n < 0)) m - n).natAbs = ((m : Int) - n.natAbs).natAbs := by
  by_cases h : n < 0
  · simp only [withSign, h, decide_true, if_true]
    omega
  · simp only [withSign, h, decide_false, Bool.false_eq_true, if_false]
    omega

theorem plain_eq_toString {x : Magnitude} (hx : x.Canonical) (hfinite : x.exponent ≤ 971)
    (hwhole : 0 ≤ x.exponent) (negative : Bool) : ∃ d t : Nat, x.IsShortest ⟨d, t⟩ ∧ 0 < d ∧
      (Binary64.finite negative x).plain = toString (withSign negative (d * 10 ^ t)) := by
  have hshortest := Magnitude.shortest_isShortest hx hfinite
  have hpos := hx.digits_pos (hshortest.covers hx hfinite)
  have hexponent := hshortest.exponent_nonneg hx hfinite hwhole
  generalize heq : x.shortest .up = d at *
  obtain ⟨digits, exponent⟩ := d
  obtain ⟨t, rfl⟩ := Int.eq_ofNat_of_zero_le hexponent
  refine ⟨digits, t, hshortest, hpos, ?_⟩
  rw [toString_withSign _ (by positivity), Binary64.plain, hx.isZero_eq_false, heq,
    Numeral.positional_whole hpos hexponent, Nat.toString_eq_ofList_toDigits]
  rfl

end Reading

section Nearness

open Magnitude

variable {n m k : Nat}

theorem Leading.bounds (h : Leading n m k) :
    (m : ℚ) * (10 ^ k : Nat) ≤ n ∧ (n : ℚ) ≤ (1 + 1 / 2 ^ 60) * (m * (10 ^ k : Nat)) := by
  have hbits : (2 ^ 60 : ℚ) ≤ m := by exact_mod_cast h.bits
  have hlower : (m : ℚ) * (10 ^ k : Nat) ≤ n := by exact_mod_cast h.lower
  have hupper : (n : ℚ) ≤ (m + 1) * (10 ^ k : Nat) := by exact_mod_cast h.upper.le
  have hten : (0 : ℚ) ≤ (10 ^ k : Nat) := Nat.cast_nonneg _
  have hcut : 2 ^ 60 * ((10 ^ k : Nat) : ℚ) ≤ m * (10 ^ k : Nat) := by gcongr
  exact ⟨hlower, by linarith⟩

theorem product_bounds {a b : Magnitude} {p q : ℚ} (hp : 0 ≤ p) (hq : 0 ≤ q) (ha : a.Rounded p)
    (hb : b.Rounded q) : (1 - 1 / 2 ^ 53) ^ 2 * (p * q) ≤ a.value * b.value ∧
      a.value * b.value ≤ (1 + 1 / 2 ^ 52) ^ 2 * (p * q) := by
  have hapos := ha.toCanonical.value_pos
  have hbpos := hb.toCanonical.value_pos
  constructor
  · calc (1 - 1 / 2 ^ 53) ^ 2 * (p * q) = ((1 - 1 / 2 ^ 53) * p) * ((1 - 1 / 2 ^ 53) * q) := by ring
      _ ≤ a.value * b.value :=
          mul_le_mul ha.bounds.1 hb.bounds.1 (mul_nonneg (by norm_num) hq) hapos.le
  · calc a.value * b.value ≤ ((1 + 1 / 2 ^ 52) * p) * ((1 + 1 / 2 ^ 52) * q) :=
          mul_le_mul ha.bounds.2 hb.bounds.2 hbpos.le (mul_nonneg (by norm_num) hp)
      _ = (1 + 1 / 2 ^ 52) ^ 2 * (p * q) := by ring

theorem near_of_leading (h : Leading n m k) {a b y : Magnitude} (ha : a.Rounded m)
    (hb : b.Rounded (10 ^ k : Nat)) (hy : y.Rounded (a.value * b.value)) {d : Nat} (hd : y.Covers d) :
    (1 - 1 / 2 ^ 50) * (n : ℚ) ≤ d ∧ (d : ℚ) ≤ (1 + 1 / 2 ^ 50) * n := by
  have hcut := h.bounds
  have hproduct := product_bounds (Nat.cast_nonneg m) (Nat.cast_nonneg (10 ^ k)) ha hb
  have hround := hy.bounds
  have herror := abs_le.1 (hy.toCanonical.abs_sub_le hy.bits hd)
  have hpos : (0 : ℚ) ≤ n := Nat.cast_nonneg n
  generalize (m : ℚ) * (10 ^ k : Nat) = p at *
  norm_num at hproduct hround herror hcut ⊢
  constructor <;> linarith

theorem natAbs_sub_le {d : Nat}
    (h : (1 - 1 / 2 ^ 50) * (n : ℚ) ≤ d ∧ (d : ℚ) ≤ (1 + 1 / 2 ^ 50) * n) :
    ((d : Int) - n).natAbs * 2 ^ 50 ≤ n := by
  have hlower : (2 ^ 50 : ℚ) * n ≤ 2 ^ 50 * d + n := by linarith
  have hupper : (2 ^ 50 : ℚ) * d ≤ 2 ^ 50 * n + n := by linarith
  have hlower' : 2 ^ 50 * n ≤ 2 ^ 50 * d + n := by exact_mod_cast hlower
  have hupper' : 2 ^ 50 * d ≤ 2 ^ 50 * n + n := by exact_mod_cast hupper
  omega

theorem exponent_nonneg {y : Magnitude} {q : ℚ} (hy : y.Rounded q) (hq : 2 ^ 59 ≤ q) :
    0 ≤ y.exponent := by
  by_contra! hlt
  have hscale : (2 : ℚ) ^ y.exponent ≤ 1 := zpow_le_one_of_nonpos₀ one_le_two hlt.le
  have hm : (y.mantissa : ℚ) ≤ 2 ^ 53 := by exact_mod_cast hy.mantissa_lt.le
  have hvalue : y.value ≤ 2 ^ 53 * 1 := by
    rw [value]
    gcongr
  have hge := hy.bounds.1
  linarith

end Nearness

/-- That an integer is written as the shortest decimal of the number that its digits are read as. -/
def ShortestAsRead (n : Int) : Prop :=
  ∃ (x : Magnitude) (d : Numeral),
    (Number.Literal.ofInt n).value? = some (.real (.finite (decide (n < 0)) x)) ∧
      x.IsShortest d ∧ d.value = n.natAbs

/-- How far an integer `k` may be from the `n` in place of which it is read: it has the sign of `n`, lies
at most a part in `2 ^ 50` off, and has seventeen digits at most before its zeros. -/
structure Near (n k : Int) : Prop where
  sign : k < 0 ↔ n < 0
  error : (k - n).natAbs * 2 ^ 50 ≤ n.natAbs
  digits : ∃ d t : Nat, d < 10 ^ 17 ∧ k.natAbs = d * 10 ^ t

theorem text_of_not_word {n : Int} (hn : ¬ Word n) {v : Number}
    (hv : (Number.Literal.ofInt n).value? = some v) :
    ∃ k : Int, v.text = toString k ∧ (k = n ↔ ShortestAsRead n) ∧ Near n k := by
  obtain ⟨m, k, hleading, hvalue⟩ := value?_of_not_word hn
  rw [hvalue, Option.map_eq_some_iff] at hv
  obtain ⟨y, hy, rfl⟩ := hv
  rw [hy, Option.map_some] at hvalue
  obtain ⟨a, b, ha, hb, hround⟩ := scale_rounded hleading.bits hy
  have hfinite := hround.finite
  have hcanonical := hround.toCanonical
  -- as the number is whole its text is an integer's
  have hwhole := exponent_nonneg hround (product_ge hleading.bits ha hb)
  obtain ⟨d, t, hshortest, hd, htext⟩ :=
    plain_eq_toString hcanonical hfinite hwhole (decide (n < 0))
  have hdecimal : Numeral.value ⟨d, t⟩ = (d * 10 ^ t : Nat) := by
    rw [Numeral.value, zpow_natCast]
    push_cast
    rfl
  have hcovers := hshortest.covers hcanonical hfinite
  rw [hdecimal] at hcovers
  have hnear := near_of_leading hleading ha hb hround hcovers
  refine ⟨withSign (decide (n < 0)) (d * 10 ^ t), htext, ?_, ?_, ?_, ?_⟩
  · rw [withSign_eq_iff]
    constructor
    · exact fun heq => ⟨y, ⟨d, t⟩, hvalue, hshortest, by rw [hdecimal, heq]⟩
    · rintro ⟨x, d', hx, hd', hvalue'⟩
      rw [hvalue] at hx
      obtain rfl : y = x := by simpa using hx
      obtain rfl := hshortest.unique hcanonical hfinite hd'
      rw [hdecimal] at hvalue'
      exact_mod_cast hvalue'
  · exact withSign_neg_iff (by positivity)
  · rw [natAbs_withSign_sub]
    exact natAbs_sub_le hnear
  · exact ⟨d, t, hshortest.digits_lt hcanonical hfinite, natAbs_withSign _ _⟩

end Json

theorem mem_toString {n : Int} {c : Char} (h : c ∈ (toString n).toList) :
    c = '-' ∨ Json.Number.isDigit c = true := by
  rw [Json.toList_toString, List.mem_append] at h
  obtain h | h := h
  · split_ifs at h
    · exact .inl (List.mem_singleton.1 h)
    · cases h
  · exact .inr (Json.isDigit_of_mem h)

theorem resolve_toString (n : Int) (scope : Scope) :
    resolve (toString n) scope = .ok ⟨.literal, false, "\"" ++ toString n ++ "\""⟩ := by
  have hnot {c : Char} (hminus : c ≠ '-') (hdigit : Json.Number.isDigit c = false) :
      c ∉ (toString n).toList := by
    intro h
    obtain rfl | h := mem_toString h
    · exact hminus rfl
    · rw [hdigit] at h
      cases h
  have hplain : Plain (toString n) :=
    ⟨hnot (by decide) rfl, hnot (by decide) rfl, hnot (by decide) rfl⟩
  have hfresh : mentionsId (toString n) = false := by
    rw [Bool.eq_false_iff]
    intro h
    have hmem : '@' ∈ idToken.toList := by decide
    exact hnot (by decide) rfl ((occurs_iff_isInfix.1 h).subset hmem)
  exact resolve_eq_ok.2 ⟨.literal, _, .literal hplain, by rw [freshText, hfresh]; rfl⟩

/-- An integer that fits into 64 bits is read as its own text.  Beyond, the text read is that of a near
integer, and it is the integer's own exactly where that is the shortest decimal of the number its digits
are rounded to.  Whatever is read resolves to a literal with that text. -/
theorem integerText_read (n : Int) (scope : Scope) :
    (n.natAbs < 2 ^ 1023 → ∃ text, Format.json.read Document.readRaw (toString n) = .ok text) ∧
      ∀ text, Format.json.read Document.readRaw (toString n) = .ok text → ∃ k : Int,
        text = toString k ∧
          resolve text scope = .ok ⟨.literal, false, "\"" ++ toString k ++ "\""⟩ ∧
          (k = n ↔ Json.Word n ∨ Json.ShortestAsRead n) ∧ (Json.Word n ∨ Json.Near n k) := by
  rw [Json.read_toString]
  by_cases hn : Json.Word n
  · rw [Json.value?_of_word hn]
    refine ⟨fun _ => ⟨_, rfl⟩, fun text h => ⟨n, (Except.ok.inj h).symm, ?_, ?_, .inl hn⟩⟩
    · rw [← Except.ok.inj h]
      exact resolve_toString n scope
    · exact iff_of_true rfl (.inl hn)
  · constructor
    · intro hlt
      obtain ⟨m, k, hleading, hvalue⟩ := Json.value?_of_not_word hn
      obtain ⟨y, hy⟩ := Json.exists_scale hleading.bits (hleading.lower.trans_lt hlt)
      rw [hvalue, hy]
      exact ⟨_, rfl⟩
    · intro text h
      cases hvalue : (Json.Number.Literal.ofInt n).value? with
      | none =>
        rw [hvalue] at h
        cases h
      | some v =>
        rw [hvalue] at h
        obtain ⟨k, htext, hiff, hnear⟩ := Json.text_of_not_word hn hvalue
        obtain rfl : v.text = text := Except.ok.inj h
        refine ⟨k, htext, ?_, ?_, .inr hnear⟩
        · rw [htext]
          exact resolve_toString k scope
        · rw [hiff, or_iff_right hn]

/-- The first integer beyond 64 bits is read as another one. -/
theorem integerText_changed :
    Format.json.read Document.readRaw (toString (2 ^ 64 : Int)) = .ok "18446744073709552000" ∧
      "18446744073709552000" ≠ toString (2 ^ 64 : Int) := by
  decide +kernel

end ResolverPipeline
