import Mathlib.Algebra.Order.Field.Power
import Mathlib.Tactic.FieldSimp
import Mathlib.Tactic.Linarith
import Mathlib.Tactic.NormNum
import Mathlib.Tactic.Positivity
import Mathlib.Tactic.Ring
import ResolverPipeline.Decimal.Shortest

namespace ResolverPipeline.Decimal

theorem zpow_eq_div {b : ℚ} (hb : b ≠ 0) (t : ℤ) : b ^ t = b ^ t.toNat / b ^ (-t).toNat := by
  rw [eq_div_iff (pow_ne_zero _ hb), ← zpow_natCast, ← zpow_natCast, ← zpow_add₀ hb]
  congr 1
  omega

/-- That `m` is the whole number nearest to `q`; a half belongs to the even neighbour. -/
structure RoundsTo (q : ℚ) (m : ℕ) : Prop where
  lower : (m : ℚ) - 1 / 2 ≤ q
  upper : q ≤ (m : ℚ) + 1 / 2
  half : q = m - 1 / 2 ∨ q = m + 1 / 2 → m % 2 = 0

theorem RoundsTo.le {q q' : ℚ} {m m' : ℕ} (h : RoundsTo q m) (h' : RoundsTo q' m') (hq : q ≤ q') :
    m ≤ m' := by
  by_contra hlt
  have hsucc : (m' : ℚ) + 1 ≤ m := by exact_mod_cast Nat.lt_of_not_le hlt
  have hlower := h.lower
  have hupper := h'.upper
  -- only a tie in the middle of two neighbours is left, and one of these is odd
  have heq : m = m' + 1 := by
    have : (m : ℚ) = m' + 1 := by linarith
    exact_mod_cast this
  have heven := h.half (.inl (by linarith))
  have heven' := h'.half (.inr (by linarith))
  omega

theorem RoundsTo.unique {q : ℚ} {m m' : ℕ} (h : RoundsTo q m) (h' : RoundsTo q m') : m = m' :=
  Nat.le_antisymm (h.le h' le_rfl) (h'.le h le_rfl)

theorem roundsTo_natCast (m : ℕ) : RoundsTo m m := ⟨by linarith, by linarith, by
  rintro (h | h) <;> linarith⟩

theorem roundDiv_roundsTo (num : ℕ) {den : ℕ} (hden : 0 < den) :
    RoundsTo ((num : ℚ) / den) (roundDiv num den) := by
  have hpos : (0 : ℚ) < den := by exact_mod_cast hden
  have hq : (num : ℚ) / den = (num / den : ℕ) + ((num % den : ℕ) : ℚ) / den := by
    rw [div_eq_iff hpos.ne', add_mul, div_mul_cancel₀ _ hpos.ne']
    exact_mod_cast (Nat.div_add_mod' num den).symm
  have hmod : ((num % den : ℕ) : ℚ) / den < 1 := by
    rw [div_lt_one hpos]
    exact_mod_cast Nat.mod_lt num hden
  have hmod₀ : 0 ≤ ((num % den : ℕ) : ℚ) / den := by positivity
  have habove : den < 2 * (num % den) ↔ 1 / 2 < ((num % den : ℕ) : ℚ) / den := by
    rw [div_lt_div_iff₀ two_pos hpos]
    norm_cast
    omega
  have htie : 2 * (num % den) = den ↔ ((num % den : ℕ) : ℚ) / den = 1 / 2 := by
    rw [div_eq_div_iff hpos.ne' two_ne_zero]
    norm_cast
    omega
  rw [hq, roundDiv]
  generalize num / den = a at *
  generalize ((num % den : ℕ) : ℚ) / den = f at *
  simp only [Bool.or_eq_true, Bool.and_eq_true, decide_eq_true_eq, beq_iff_eq, habove, htie]
  split
  · rename_i hup
    have hsucc : ((a + 1 : ℕ) : ℚ) = a + 1 := Nat.cast_succ a
    refine ⟨?_, by linarith, ?_⟩
    · obtain hup | ⟨hup, -⟩ := hup <;> linarith
    · rintro (h | h)
      · obtain hup | ⟨-, hodd⟩ := hup
        · linarith
        · omega
      · linarith
  · rename_i hdown
    rw [not_or, not_and] at hdown
    refine ⟨by linarith, by linarith, ?_⟩
    rintro (h | h)
    · linarith
    · have := hdown.2 (by linarith)
      omega

namespace Magnitude

def value (x : Magnitude) : ℚ := x.mantissa * 2 ^ x.exponent

def low (x : Magnitude) : ℚ := x.quarterBounds.1 * 2 ^ (x.exponent - 2)

def high (x : Magnitude) : ℚ := x.quarterBounds.2 * 2 ^ (x.exponent - 2)

/-- That a ratio lies in the interval around the number.  The ends belong to an even mantissa. -/
def Covers (x : Magnitude) (q : ℚ) : Prop :=
  (x.low < q ∧ q < x.high) ∨ (x.mantissa % 2 = 0 ∧ (q = x.low ∨ q = x.high))

/-- That a magnitude other than zero has all of its 53 bits, or the least exponent. -/
structure Canonical (x : Magnitude) : Prop where
  mantissa_pos : 0 < x.mantissa
  mantissa_lt : x.mantissa < 2 ^ 53
  exponent_ge : -1074 ≤ x.exponent
  full : 2 ^ 52 ≤ x.mantissa ∨ x.exponent = -1074

theorem two_zpow_pos (e : ℤ) : (0 : ℚ) < 2 ^ e := zpow_pos two_pos e

theorem quarter (e : ℤ) : (2 : ℚ) ^ (e - 2) = 2 ^ e / 4 := by
  rw [zpow_sub₀ two_ne_zero]
  norm_num

theorem high_eq (x : Magnitude) : x.high = (x.mantissa + 1 / 2) * 2 ^ x.exponent := by
  rw [high, quarter, quarterBounds]
  push_cast
  ring

theorem low_eq_of_power {x : Magnitude} (hm : x.mantissa = 2 ^ 52) (he : -1074 < x.exponent) :
    x.low = (x.mantissa - 1 / 4) * 2 ^ x.exponent := by
  simp only [low, quarter, quarterBounds, Nat.pow_eq, hm, he, decide_true, Bool.and_true, if_true]
  push_cast
  ring

theorem low_eq {x : Magnitude} (hx : x.Canonical) (h : x.mantissa ≠ 2 ^ 52 ∨ x.exponent = -1074) :
    x.low = (x.mantissa - 1 / 2) * 2 ^ x.exponent := by
  have hpos := hx.mantissa_pos
  have hcond : ¬ (x.mantissa = 2 ^ 52 ∧ -1074 < x.exponent) := by omega
  simp only [low, quarter, quarterBounds, Nat.pow_eq, Bool.and_eq_true, decide_eq_true_eq, hcond,
    if_false]
  rw [Nat.cast_sub (by omega)]
  push_cast
  ring

theorem Canonical.low_bounds {x : Magnitude} (hx : x.Canonical) :
    (x.mantissa - 1 / 2) * 2 ^ x.exponent ≤ x.low ∧
      x.low ≤ (x.mantissa - 1 / 4) * 2 ^ x.exponent := by
  have hpos := two_zpow_pos x.exponent
  by_cases h : x.mantissa ≠ 2 ^ 52 ∨ x.exponent = -1074
  · rw [low_eq hx h]
    constructor <;> gcongr
    norm_num
  · have hge := hx.exponent_ge
    rw [low_eq_of_power (by omega) (by omega)]
    constructor <;> gcongr
    norm_num

section Interval

variable {x y : Magnitude} {q q' r : ℚ}

theorem Canonical.low_lt_value (hx : x.Canonical) : x.low < x.value := by
  have hpos := two_zpow_pos x.exponent
  have hlow := hx.low_bounds.2
  rw [value]
  linarith

theorem value_lt_high : x.value < x.high := by
  have hpos := two_zpow_pos x.exponent
  rw [high_eq, value]
  linarith

theorem Canonical.covers_iff (hx : x.Canonical) :
    x.Covers q ↔ x.low ≤ q ∧ q ≤ x.high ∧ (q = x.low ∨ q = x.high → x.mantissa % 2 = 0) := by
  have hlt := hx.low_lt_value.trans value_lt_high
  constructor
  · rintro (⟨hlow, hhigh⟩ | ⟨heven, rfl | rfl⟩)
    · exact ⟨hlow.le, hhigh.le, by rintro (h | h) <;> linarith⟩
    · exact ⟨le_rfl, hlt.le, fun _ => heven⟩
    · exact ⟨hlt.le, le_rfl, fun _ => heven⟩
  · rintro ⟨hlow, hhigh, hends⟩
    by_cases h : q = x.low ∨ q = x.high
    · exact .inr ⟨hends h, h⟩
    · rw [not_or] at h
      exact .inl ⟨lt_of_le_of_ne hlow (Ne.symm h.1), lt_of_le_of_ne hhigh h.2⟩

theorem Canonical.covers_value (hx : x.Canonical) : x.Covers x.value :=
  .inl ⟨hx.low_lt_value, value_lt_high⟩

theorem Canonical.covers_between (hx : x.Canonical) (h : x.Covers q) (h' : x.Covers q')
    (hq : q ≤ r) (hr : r ≤ q') : x.Covers r := by
  rw [hx.covers_iff] at h h' ⊢
  refine ⟨h.1.trans hq, hr.trans h'.2.1, ?_⟩
  rintro (heq | heq)
  · exact h.2.2 (.inl (le_antisymm (hq.trans heq.le) h.1))
  · exact h'.2.2 (.inr (le_antisymm h'.2.1 (heq.ge.trans hr)))

theorem Canonical.roundsTo (hx : x.Canonical) (h : x.Covers q) :
    RoundsTo (q / 2 ^ x.exponent) x.mantissa := by
  have hpos := two_zpow_pos x.exponent
  have hlow := hx.low_bounds.1
  rw [hx.covers_iff, high_eq] at h
  obtain ⟨hge, hle, hends⟩ := h
  refine ⟨(le_div_iff₀ hpos).2 (hlow.trans hge), (div_le_iff₀ hpos).2 hle, ?_⟩
  rintro (heq | heq)
  · rw [div_eq_iff hpos.ne'] at heq
    exact hends (.inl (le_antisymm (heq.le.trans hlow) hge))
  · rw [div_eq_iff hpos.ne'] at heq
    exact hends (.inr heq)

theorem Canonical.lt_of_covers (hx : x.Canonical) (h : x.Covers q) :
    1 / 2 * 2 ^ (-1074 : ℤ) < q := by
  by_contra! hle
  have hscale : (2 : ℚ) ^ (-1074 : ℤ) ≤ 2 ^ x.exponent :=
    zpow_le_zpow_right₀ one_le_two hx.exponent_ge
  have hhalf : RoundsTo (1 / 2) 0 := ⟨by norm_num, by norm_num, fun _ => rfl⟩
  have hm := (hx.roundsTo h).le hhalf (by
    rw [div_le_iff₀ (two_zpow_pos _)]
    linarith)
  have := hx.mantissa_pos
  omega

theorem Canonical.covers_of_roundsTo (hx : x.Canonical)
    (h : RoundsTo (q / 2 ^ x.exponent) x.mantissa)
    (hfull : 2 ^ 52 * 2 ^ x.exponent ≤ q ∨ x.exponent = -1074) : x.Covers q := by
  have hpos := two_zpow_pos x.exponent
  have hhigh : q ≤ x.high := by
    rw [high_eq, ← div_le_iff₀ hpos]
    exact h.upper
  have heven : q = x.high → x.mantissa % 2 = 0 := by
    rw [high_eq, ← div_eq_iff hpos.ne']
    exact fun heq => h.half (.inr heq)
  rw [hx.covers_iff]
  by_cases hpower : x.mantissa ≠ 2 ^ 52 ∨ x.exponent = -1074
  · have hlow : x.low ≤ q := by
      rw [low_eq hx hpower, ← le_div_iff₀ hpos]
      exact h.lower
    refine ⟨hlow, hhigh, ?_⟩
    rintro (heq | heq)
    · rw [low_eq hx hpower, ← div_eq_iff hpos.ne'] at heq
      exact h.half (.inl heq)
    · exact heven heq
  · have hge := hx.exponent_ge
    obtain ⟨hm, he⟩ : x.mantissa = 2 ^ 52 ∧ -1074 < x.exponent := by omega
    refine ⟨?_, hhigh, fun _ => by omega⟩
    rw [low_eq_of_power hm he, hm]
    push_cast
    linarith [hfull.resolve_right he.ne']

theorem Canonical.low_ge (hx : x.Canonical) (he : -1074 < x.exponent) :
    (2 ^ 52 - 1 / 4) * 2 ^ x.exponent ≤ x.low := by
  have hpos := two_zpow_pos x.exponent
  have hfull : 2 ^ 52 ≤ x.mantissa := hx.full.resolve_right he.ne'
  obtain heq | hne := eq_or_ne x.mantissa (2 ^ 52)
  · rw [low_eq_of_power heq he, heq]
    push_cast
    exact le_rfl
  · have hsucc : (2 : ℚ) ^ 52 + 1 ≤ x.mantissa := by exact_mod_cast lt_of_le_of_ne hfull hne.symm
    rw [low_eq hx (.inl hne)]
    exact mul_le_mul_of_nonneg_right (by linarith) hpos.le

theorem Canonical.high_le (hx : x.Canonical) : x.high ≤ (2 ^ 53 - 1 / 2) * 2 ^ x.exponent := by
  have hpos := two_zpow_pos x.exponent
  have hlt : (x.mantissa : ℚ) + 1 ≤ 2 ^ 53 := by exact_mod_cast hx.mantissa_lt
  rw [high_eq]
  gcongr
  linarith

theorem Canonical.exponent_le (hx : x.Canonical) (hy : y.Canonical) (h : x.Covers q)
    (h' : y.Covers q) : y.exponent ≤ x.exponent := by
  by_contra! hlt
  have hpos := two_zpow_pos x.exponent
  have hlow := hy.low_ge (by have := hx.exponent_ge; omega)
  have hdouble : 2 * (2 : ℚ) ^ x.exponent ≤ 2 ^ y.exponent := by
    rw [← zpow_one_add₀ two_ne_zero]
    exact zpow_le_zpow_right₀ one_le_two (by omega)
  rw [hx.covers_iff, high_eq] at h
  rw [hy.covers_iff] at h'
  -- the two intervals can only meet at the end of the lower one, whose mantissa is odd then
  have hmeet : (2 ^ 53 - 1 / 2 : ℚ) * 2 ^ x.exponent ≤ q := by linarith [h'.1]
  have hge : (2 ^ 53 - 1 / 2 : ℚ) ≤ x.mantissa + 1 / 2 :=
    le_of_mul_le_mul_right (hmeet.trans h.2.1) hpos
  have hlast : (x.mantissa : ℚ) = 2 ^ 53 - 1 := by
    have hlt : (x.mantissa : ℚ) + 1 ≤ 2 ^ 53 := by exact_mod_cast hx.mantissa_lt
    linarith
  have heven : x.mantissa % 2 = 0 := h.2.2 (.inr (le_antisymm h.2.1 (by
    rw [hlast]
    linarith)))
  have hodd : x.mantissa + 1 = 2 ^ 53 := by
    have : (x.mantissa : ℚ) + 1 = 2 ^ 53 := by linarith
    exact_mod_cast this
  omega

theorem Canonical.covers_unique (hx : x.Canonical) (hy : y.Canonical) (h : x.Covers q)
    (h' : y.Covers q) : x = y := by
  have hexponent := le_antisymm (hy.exponent_le hx h' h) (hx.exponent_le hy h h')
  have hround := hy.roundsTo h'
  rw [← hexponent] at hround
  have hmantissa := (hx.roundsTo h).unique hround
  cases x
  cases y
  simp_all

end Interval

section Ratio

theorem mantissaAt_roundsTo (num : ℕ) {den : ℕ} (hden : 0 < den) (e : ℤ) :
    RoundsTo ((num : ℚ) / den / 2 ^ e) (mantissaAt num den e) := by
  rw [mantissaAt]
  split
  · rename_i he
    have hround := roundDiv_roundsTo num (Nat.mul_pos hden (Nat.two_pow_pos e.toNat))
    rw [zpow_eq_div two_ne_zero e, show (-e).toNat = 0 by omega, pow_zero, div_one, div_div]
    push_cast at hround
    exact hround
  · rename_i he
    have hround := roundDiv_roundsTo (num * 2 ^ (-e).toNat) hden
    rw [zpow_eq_div two_ne_zero e, show e.toNat = 0 by omega, pow_zero, one_div, div_inv_eq_mul,
      div_mul_eq_mul_div]
    push_cast at hround
    exact hround

theorem two_zpow_log2_le {n : ℕ} (hn : 0 < n) : (2 : ℚ) ^ (n.log2 : ℤ) ≤ n := by
  rw [zpow_natCast]
  exact_mod_cast Nat.log2_self_le hn.ne'

theorem lt_two_zpow_log2 (n : ℕ) : (n : ℚ) < 2 ^ (n.log2 + 1 : ℤ) := by
  rw [← Nat.cast_succ, zpow_natCast]
  exact_mod_cast Nat.lt_log2_self

variable {num den : ℕ} (hnum : 0 < num) (hden : 0 < den)

include hnum hden in
theorem ratio_bounds {low : ℤ} (hlow : low = (num.log2 : ℤ) - den.log2 - 53) :
    2 ^ 52 * 2 ^ low ≤ (num : ℚ) / den ∧ (num : ℚ) / den < 2 ^ 53 * 2 ^ (low + 1) := by
  have hpos : (0 : ℚ) < den := by exact_mod_cast hden
  have hsplit : (2 : ℚ) ^ 53 * 2 ^ low * 2 ^ (den.log2 : ℤ) = 2 ^ (num.log2 : ℤ) := by
    rw [← zpow_natCast (2 : ℚ) 53, ← zpow_add₀ two_ne_zero, ← zpow_add₀ two_ne_zero]
    congr 1
    push_cast
    omega
  have hnumLow := two_zpow_log2_le hnum
  have hnumHigh := lt_two_zpow_log2 num
  have hdenLow := two_zpow_log2_le hden
  have hdenHigh := lt_two_zpow_log2 den
  rw [zpow_add_one₀ two_ne_zero] at hnumHigh hdenHigh
  rw [le_div_iff₀ hpos, div_lt_iff₀ hpos, zpow_add_one₀ two_ne_zero]
  have hscale := two_zpow_pos low
  constructor
  · calc (2 : ℚ) ^ 52 * 2 ^ low * den ≤ 2 ^ 52 * 2 ^ low * (2 ^ (den.log2 : ℤ) * 2) := by gcongr
      _ = 2 ^ (num.log2 : ℤ) := by rw [← hsplit]; ring
      _ ≤ num := hnumLow
  · calc (num : ℚ) < 2 ^ (num.log2 : ℤ) * 2 := hnumHigh
      _ = 2 ^ 53 * (2 ^ low * 2) * 2 ^ (den.log2 : ℤ) := by rw [← hsplit]; ring
      _ ≤ 2 ^ 53 * (2 ^ low * 2) * den := by gcongr

theorem fits_iff (num : ℕ) {den : ℕ} (hden : 0 < den) (low : ℤ) :
    (if 0 ≤ low then num < Nat.pow 2 53 * (den * Nat.pow 2 low.toNat)
      else num * Nat.pow 2 (-low).toNat < Nat.pow 2 53 * den) ↔
        (num : ℚ) / den < 2 ^ 53 * 2 ^ low := by
  have hpos : (0 : ℚ) < den := by exact_mod_cast hden
  rw [div_lt_iff₀ hpos, zpow_eq_div two_ne_zero low]
  simp only [Nat.pow_eq]
  split
  · rename_i h
    rw [show (-low).toNat = 0 by omega, pow_zero, div_one, mul_assoc, mul_comm (2 ^ low.toNat : ℚ)]
    exact_mod_cast Iff.rfl
  · rename_i h
    rw [show low.toNat = 0 by omega, pow_zero, mul_one_div, div_mul_eq_mul_div,
      lt_div_iff₀ (by positivity)]
    exact_mod_cast Iff.rfl

include hnum hden in
theorem exponentFor_bounds :
    -1074 ≤ exponentFor num den ∧
      (num : ℚ) / den < 2 ^ 53 * 2 ^ exponentFor num den ∧
      (2 ^ 52 * 2 ^ exponentFor num den ≤ (num : ℚ) / den ∨ exponentFor num den = -1074) := by
  obtain ⟨hge, hlt⟩ := ratio_bounds hnum hden rfl
  have hfits := fits_iff num hden ((num.log2 : ℤ) - den.log2 - 53)
  rw [exponentFor]
  simp only [hfits]
  generalize (num.log2 : ℤ) - den.log2 - 53 = low at *
  generalize (num : ℚ) / den = q at *
  -- The lengths tell the ratio up to a factor of four, which leaves two exponents to choose from.
  set e := if q < 2 ^ 53 * 2 ^ low then low else low + 1 with he
  have hbounds : 2 ^ 52 * 2 ^ e ≤ q ∧ q < 2 ^ 53 * 2 ^ e := by
    rw [he]
    split
    · exact ⟨hge, by assumption⟩
    · refine ⟨?_, hlt⟩
      rw [zpow_add_one₀ two_ne_zero]
      linarith
  have hmono : (2 : ℚ) ^ e ≤ 2 ^ max e (-1074) := zpow_le_zpow_right₀ one_le_two (le_max_left _ _)
  refine ⟨le_max_right _ _, by linarith [hbounds.2], ?_⟩
  obtain h | h := le_total e (-1074)
  · exact .inr (max_eq_right h)
  · rw [max_eq_left h]
    exact .inl hbounds.1

def rounded (num den : ℕ) : Magnitude :=
  let e := exponentFor num den
  let m := mantissaAt num den e
  if m = Nat.pow 2 53 then ⟨Nat.pow 2 52, e + 1⟩ else ⟨m, e⟩

include hnum in
theorem ofRatio?_eq : ofRatio? num den =
    if (rounded num den).mantissa = 0 then some zero
    else if (rounded num den).exponent ≤ 971 then some (rounded num den) else none := by
  rw [ofRatio?, if_neg hnum.ne', rounded]

theorem covers_carry {e : ℤ} {q : ℚ} (he : -1074 ≤ e) (hq : q < 2 ^ 53 * 2 ^ e)
    (h : RoundsTo (q / 2 ^ e) (2 ^ 53)) :
    Canonical ⟨2 ^ 52, e + 1⟩ ∧ Covers ⟨2 ^ 52, e + 1⟩ q := by
  have hpos := two_zpow_pos e
  have hcanonical : Canonical ⟨2 ^ 52, e + 1⟩ :=
    ⟨Nat.two_pow_pos 52, Nat.pow_lt_pow_right one_lt_two (by omega), Int.le_add_one he, .inl le_rfl⟩
  have hlower := h.lower
  rw [le_div_iff₀ hpos] at hlower
  push_cast at hlower
  refine ⟨hcanonical, hcanonical.covers_iff.2 ⟨?_, ?_, fun _ => by norm_num⟩⟩
  · rw [low_eq_of_power rfl (Int.lt_add_one_of_le he), zpow_add_one₀ two_ne_zero]
    push_cast
    linarith
  · rw [high_eq, zpow_add_one₀ two_ne_zero]
    push_cast
    linarith

include hnum hden in
theorem rounded_spec (h : (rounded num den).mantissa ≠ 0) :
    (rounded num den).Canonical ∧ (rounded num den).Covers ((num : ℚ) / den) := by
  obtain ⟨hleast, hlt, hfull⟩ := exponentFor_bounds hnum hden
  have hround := mantissaAt_roundsTo num hden (exponentFor num den)
  simp only [rounded, Nat.pow_eq] at h ⊢
  generalize exponentFor num den = e at *
  generalize mantissaAt num den e = m at *
  generalize (num : ℚ) / den = q at *
  have hpos := two_zpow_pos e
  have hle : m ≤ 2 ^ 53 :=
    hround.le (roundsTo_natCast _) (((div_lt_iff₀ hpos).2 hlt).le.trans (by push_cast; rfl))
  split at h
  · rename_i hm
    rw [if_pos hm]
    exact covers_carry hleast hlt (hm ▸ hround)
  · rename_i hm
    rw [if_neg hm]
    have hbits : 2 ^ 52 ≤ m ∨ e = -1074 := by
      refine hfull.imp_left fun hfull => (roundsTo_natCast _).le hround ?_
      rw [le_div_iff₀ hpos]
      exact_mod_cast hfull
    have hcanonical : Canonical ⟨m, e⟩ :=
      ⟨Nat.pos_of_ne_zero h, lt_of_le_of_ne hle hm, hleast, hbits⟩
    exact ⟨hcanonical, hcanonical.covers_of_roundsTo hround hfull⟩

include hnum hden in
theorem rounded_ne_zero (h : 1 / 2 * 2 ^ (-1074 : ℤ) < (num : ℚ) / den) :
    (rounded num den).mantissa ≠ 0 := by
  obtain ⟨-, -, hfull⟩ := exponentFor_bounds hnum hden
  have hround := mantissaAt_roundsTo num hden (exponentFor num den)
  simp only [rounded, Nat.pow_eq]
  generalize exponentFor num den = e at *
  generalize mantissaAt num den e = m at *
  have hpos := two_zpow_pos e
  split
  · exact (Nat.two_pow_pos 52).ne'
  · rintro rfl
    have hupper := hround.upper
    rw [div_le_iff₀ hpos, Nat.cast_zero, zero_add] at hupper
    obtain hfull | rfl := hfull <;> linarith

include hnum hden in
/-- Rounding gives the number around which the ratio lies, as long as that number is finite. -/
theorem ofRatio?_eq_some_iff {x : Magnitude} (hx : x.Canonical) :
    ofRatio? num den = some x ↔ x.exponent ≤ 971 ∧ x.Covers ((num : ℚ) / den) := by
  rw [ofRatio?_eq hnum]
  constructor
  · intro h
    split at h
    · obtain rfl : zero = x := Option.some.inj h
      exact absurd hx.mantissa_pos (lt_irrefl 0)
    · rename_i hne
      split at h
      · rename_i hle
        obtain rfl := Option.some.inj h
        exact ⟨hle, (rounded_spec hnum hden hne).2⟩
      · cases h
  · rintro ⟨hle, hcovers⟩
    have hne := rounded_ne_zero hnum hden (hx.lt_of_covers hcovers)
    obtain ⟨hcanonical, hrounded⟩ := rounded_spec hnum hden hne
    obtain rfl := hcanonical.covers_unique hx hrounded hcovers
    rw [if_neg hne, if_pos hle]

include hnum hden in
theorem exists_ofRatio? (h : (num : ℚ) / den ≤ 3 / 2 * 2 ^ 1023) :
    ∃ x, ofRatio? num den = some x := by
  by_cases hne : (rounded num den).mantissa = 0
  · exact ⟨zero, by rw [ofRatio?_eq hnum, if_pos hne]⟩
  · obtain ⟨hcanonical, hcovers⟩ := rounded_spec hnum hden hne
    refine ⟨rounded num den, (ofRatio?_eq_some_iff hnum hden hcanonical).2 ⟨?_, hcovers⟩⟩
    by_contra! hgt
    have hlow := hcanonical.low_ge (by omega)
    have hge := (hcanonical.covers_iff.1 hcovers).1
    have hscale : (2 : ℚ) ^ (972 : ℤ) ≤ 2 ^ (rounded num den).exponent :=
      zpow_le_zpow_right₀ one_le_two hgt
    have hlimit : (2 : ℚ) ^ 1023 = 2 ^ 51 * 2 ^ (972 : ℤ) := by
      rw [← zpow_natCast, ← zpow_natCast, ← zpow_add₀ two_ne_zero]
      rfl
    have hpos := two_zpow_pos 972
    rw [hlimit] at h
    clear hlimit
    generalize (2 : ℚ) ^ (972 : ℤ) = a at *
    generalize (2 : ℚ) ^ (rounded num den).exponent = b at *
    linarith

end Ratio

section Product

variable {x y z : Magnitude}

theorem Canonical.value_pos (hx : x.Canonical) : 0 < x.value := by
  have hpos : (0 : ℚ) < x.mantissa := by exact_mod_cast hx.mantissa_pos
  have := two_zpow_pos x.exponent
  rw [value]
  positivity

theorem Canonical.low_pos (hx : x.Canonical) : 0 < x.low := by
  have hpos := two_zpow_pos x.exponent
  have hone : (1 : ℚ) ≤ x.mantissa := by exact_mod_cast hx.mantissa_pos
  have hlow := hx.low_bounds.1
  have : 0 < ((x.mantissa : ℚ) - 1 / 2) * 2 ^ x.exponent := mul_pos (by linarith) hpos
  linarith

theorem ratio_pos (hx : x.Canonical) : 0 < x.ratio.1 ∧ 0 < x.ratio.2 := by
  have hpos := hx.mantissa_pos
  rw [ratio]
  split
  · exact ⟨Nat.mul_pos hpos (Nat.two_pow_pos _), one_pos⟩
  · exact ⟨hpos, Nat.two_pow_pos _⟩

theorem ratio_value (x : Magnitude) : (x.ratio.1 : ℚ) / x.ratio.2 = x.value := by
  rw [ratio, value, zpow_eq_div two_ne_zero]
  split
  · rename_i h
    rw [show (-x.exponent).toNat = 0 by omega]
    simp
  · rename_i h
    rw [show x.exponent.toNat = 0 by omega]
    simp [div_eq_mul_inv]

theorem product_value (x y : Magnitude) :
    ((x.ratio.1 * y.ratio.1 : ℕ) : ℚ) / (x.ratio.2 * y.ratio.2 : ℕ) = x.value * y.value := by
  rw [← ratio_value, ← ratio_value, div_mul_div_comm]
  push_cast
  rfl

end Product

section Error

variable {x y z : Magnitude} {q : ℚ}

structure Rounded (x : Magnitude) (q : ℚ) : Prop extends x.Canonical where
  bits : 2 ^ 52 ≤ x.mantissa
  finite : x.exponent ≤ 971
  covers : x.Covers q

theorem Canonical.isZero_eq_false (hx : x.Canonical) : x.isZero = false := by
  rw [isZero, beq_eq_false_iff_ne]
  exact hx.mantissa_pos.ne'

theorem Canonical.bits_of_one_le (hx : x.Canonical) (h : x.Covers q) (hq : 1 ≤ q) :
    2 ^ 52 ≤ x.mantissa := by
  refine hx.full.resolve_right fun he => ?_
  have hhigh := hx.high_le
  have hle := (hx.covers_iff.1 h).2.1
  have hscale : (2 : ℚ) ^ x.exponent ≤ 2 ^ (-53 : ℤ) := by
    rw [he]
    exact zpow_le_zpow_right₀ one_le_two (by norm_num)
  norm_num at hscale
  linarith

theorem Rounded.of_ofRatio? {num den : ℕ} (hnum : 0 < num) (hden : 0 < den)
    (hone : 1 ≤ (num : ℚ) / den) (hx : ofRatio? num den = some x) : x.Rounded ((num : ℚ) / den) := by
  have hleast : (2 : ℚ) ^ (-1074 : ℤ) ≤ 1 := zpow_le_one_of_nonpos₀ one_le_two (by norm_num)
  have hne := rounded_ne_zero hnum hden (by linarith)
  rw [ofRatio?_eq hnum, if_neg hne] at hx
  split at hx
  · rename_i hfinite
    obtain rfl := Option.some.inj hx
    obtain ⟨hcanonical, hcovers⟩ := rounded_spec hnum hden hne
    exact ⟨hcanonical, hcanonical.bits_of_one_le hcovers hone, hfinite, hcovers⟩
  · cases hx

theorem Rounded.of_ofNat? {n : ℕ} (hn : 0 < n) (hx : ofNat? n = some x) : x.Rounded n := by
  have hone : (1 : ℚ) ≤ n := by exact_mod_cast hn
  simpa using Rounded.of_ofRatio? hn one_pos (by simpa using hone) hx

theorem Rounded.of_mul? (hx : x.Canonical) (hy : y.Canonical) (hone : 1 ≤ x.value * y.value)
    (hz : x.mul? y = some z) : z.Rounded (x.value * y.value) := by
  have hxpos := ratio_pos hx
  have hypos := ratio_pos hy
  rw [← product_value] at hone ⊢
  exact .of_ofRatio? (Nat.mul_pos hxpos.1 hypos.1) (Nat.mul_pos hxpos.2 hypos.2) hone hz

theorem exists_ofNat? {n : ℕ} (hn : 0 < n) (h : n ≤ 2 ^ 1023) : ∃ x, ofNat? n = some x := by
  refine exists_ofRatio? hn one_pos ?_
  have hle : (n : ℚ) ≤ 2 ^ 1023 := by exact_mod_cast h
  have hpos : (0 : ℚ) < 2 ^ 1023 := by positivity
  rw [Nat.cast_one, div_one]
  generalize (2 : ℚ) ^ 1023 = a at *
  linarith

theorem exists_mul? (hx : x.Canonical) (hy : y.Canonical)
    (h : x.value * y.value ≤ 3 / 2 * 2 ^ 1023) : ∃ z, x.mul? y = some z := by
  have hxpos := ratio_pos hx
  have hypos := ratio_pos hy
  rw [← product_value] at h
  exact exists_ofRatio? (Nat.mul_pos hxpos.1 hypos.1) (Nat.mul_pos hxpos.2 hypos.2) h

theorem Canonical.abs_sub_le (hx : x.Canonical) (hbits : 2 ^ 52 ≤ x.mantissa) (h : x.Covers q) :
    |q - x.value| ≤ x.value / 2 ^ 53 := by
  have hpos := two_zpow_pos x.exponent
  have hm : (2 ^ 52 : ℚ) ≤ x.mantissa := by exact_mod_cast hbits
  have hround := hx.roundsTo h
  have hlower := hround.lower
  have hupper := hround.upper
  rw [le_div_iff₀ hpos] at hlower
  rw [div_le_iff₀ hpos] at hupper
  have hhalf : 1 / 2 * (2 : ℚ) ^ x.exponent ≤ x.value / 2 ^ 53 := by
    rw [value, le_div_iff₀ (by positivity)]
    calc 1 / 2 * (2 : ℚ) ^ x.exponent * 2 ^ 53 = 2 ^ 52 * 2 ^ x.exponent := by ring
      _ ≤ (x.mantissa : ℚ) * 2 ^ x.exponent := by gcongr
  rw [abs_le, value] at *
  constructor <;> linarith

theorem Rounded.bounds (h : x.Rounded q) :
    (1 - 1 / 2 ^ 53) * q ≤ x.value ∧ x.value ≤ (1 + 1 / 2 ^ 52) * q := by
  have herror := abs_le.1 (h.toCanonical.abs_sub_le h.bits h.covers)
  have hpos := h.toCanonical.value_pos
  constructor <;> linarith

end Error

end Magnitude

end ResolverPipeline.Decimal
