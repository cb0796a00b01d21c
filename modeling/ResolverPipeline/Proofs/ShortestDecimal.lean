import Mathlib.Data.Rat.Floor
import ResolverPipeline.Decimal.Notation
import ResolverPipeline.Proofs.Rounding

namespace ResolverPipeline.Decimal

def Numeral.value (d : Numeral) : ℚ := d.digits * 10 ^ d.exponent

theorem ten_zpow_pos (t : ℤ) : (0 : ℚ) < 10 ^ t := zpow_pos (by norm_num) t

theorem decimal_bounds {n : ℕ} (hn : 0 < n) (t : ℤ) :
    (10 : ℚ) ^ (t + (Nat.toDigits 10 n).length - 1) ≤ n * 10 ^ t ∧
      (n : ℚ) * 10 ^ t < 10 ^ (t + (Nat.toDigits 10 n).length) := by
  have hlt : n < 10 ^ (Nat.toDigits 10 n).length :=
    (Nat.length_toDigits_le_iff (by norm_num) Nat.length_toDigits_pos).1 le_rfl
  have hge : 10 ^ ((Nat.toDigits 10 n).length - 1) ≤ n := by
    by_contra! h
    obtain hone | hmany := Nat.eq_zero_or_pos ((Nat.toDigits 10 n).length - 1)
    · rw [hone] at h
      omega
    · have := (Nat.length_toDigits_le_iff (by norm_num) hmany).2 h
      omega
  have hpos : 0 < (Nat.toDigits 10 n).length := Nat.length_toDigits_pos
  generalize (Nat.toDigits 10 n).length = k at *
  obtain ⟨k, rfl⟩ := Nat.exists_eq_add_of_lt hpos
  have ht := ten_zpow_pos t
  rw [show t + ((0 + k + 1 : ℕ) : ℤ) - 1 = (k : ℤ) + t by push_cast; ring,
    show t + ((0 + k + 1 : ℕ) : ℤ) = ((k + 1 : ℕ) : ℤ) + t by push_cast; ring,
    zpow_add₀ (by norm_num), zpow_add₀ (by norm_num), zpow_natCast, zpow_natCast]
  rw [zero_add] at hlt hge
  rw [Nat.add_sub_cancel] at hge
  constructor
  · gcongr
    exact_mod_cast hge
  · gcongr
    exact_mod_cast hlt

section Places

theorem places_of_pow {k : ℕ} (hk : k ≤ 1024) :
    10 ^ (k * 30103 / 100000) ≤ 2 * 2 ^ k ∧ 2 ^ k ≤ 10 ^ (k * 30103 / 100000 + 1) := by
  have h : (List.range 1025).all (fun k =>
      decide (10 ^ (k * 30103 / 100000) ≤ 2 * 2 ^ k ∧ 2 ^ k ≤ 10 ^ (k * 30103 / 100000 + 1))) := by
    decide +kernel
  exact of_decide_eq_true (List.all_eq_true.1 h k (List.mem_range.2 (Nat.lt_succ_of_le hk)))

theorem places_of_inverse {k : ℕ} (hk : k ≤ 1074) :
    2 ^ k ≤ 2 * 10 ^ ((k * 30103 + 99999) / 100000) ∧
      10 ^ ((k * 30103 + 99999) / 100000) ≤ 10 * 2 ^ k := by
  have h : (List.range 1075).all (fun k => decide (2 ^ k ≤ 2 * 10 ^ ((k * 30103 + 99999) / 100000) ∧
      10 ^ ((k * 30103 + 99999) / 100000) ≤ 10 * 2 ^ k)) := by
    decide +kernel
  exact of_decide_eq_true (List.all_eq_true.1 h k (List.mem_range.2 (Nat.lt_succ_of_le hk)))

theorem places_bounds {a : ℤ} (hlow : -1074 ≤ a) (hhigh : a ≤ 1024) :
    (10 : ℚ) ^ (a * 30103 / 100000) ≤ 2 * 2 ^ a ∧ (2 : ℚ) ^ a ≤ 10 ^ (a * 30103 / 100000 + 1) := by
  rw [zpow_add_one₀ (by norm_num)]
  obtain ⟨k, rfl | rfl⟩ := a.eq_nat_or_neg
  · have hk := places_of_pow (k := k) (by omega)
    rw [pow_succ] at hk
    rw [show (k : ℤ) * 30103 / 100000 = ((k * 30103 / 100000 : ℕ) : ℤ) by norm_cast]
    simp only [zpow_natCast]
    exact_mod_cast hk
  · have hk := places_of_inverse (k := k) (by omega)
    rw [show -(k : ℤ) * 30103 / 100000 = -(((k * 30103 + 99999) / 100000 : ℕ) : ℤ) by omega]
    generalize (k * 30103 + 99999) / 100000 = j at *
    rw [zpow_neg, zpow_neg, zpow_natCast, zpow_natCast, inv_eq_one_div, inv_eq_one_div, mul_one_div,
      one_div_mul_eq_div, div_le_div_iff₀ (by positivity) (by positivity),
      div_le_div_iff₀ (by positivity) (by positivity)]
    norm_cast
    omega

theorem two_zpow_le_ten_zpow : (2 : ℚ) ^ (1200 : ℤ) ≤ 10 ^ (400 : ℤ) := by
  rw [show (1200 : ℤ) = 3 * 400 by norm_num, zpow_mul]
  exact zpow_le_zpow_left₀ (by norm_num) (by norm_num) (by norm_num)

end Places

namespace Magnitude

variable {x : Magnitude}

theorem Canonical.ten_zpow_lt_low (hx : x.Canonical) : (10 : ℚ) ^ (-400 : ℤ) < x.low := by
  have hone : (1 : ℚ) ≤ x.mantissa := by exact_mod_cast hx.mantissa_pos
  calc (10 : ℚ) ^ (-400 : ℤ) ≤ 2 ^ (-1200 : ℤ) := by
        rw [zpow_neg, zpow_neg]
        exact inv_anti₀ (two_zpow_pos _) two_zpow_le_ten_zpow
    _ < 2 ^ (x.exponent - 1) := zpow_lt_zpow_right₀ one_lt_two (by have := hx.exponent_ge; omega)
    _ = (1 - 1 / 2) * 2 ^ x.exponent := by rw [zpow_sub_one₀ two_ne_zero]; ring
    _ ≤ (x.mantissa - 1 / 2) * 2 ^ x.exponent := by
        have := two_zpow_pos x.exponent
        gcongr
    _ ≤ x.low := hx.low_bounds.1

theorem Canonical.high_lt_ten_zpow (hx : x.Canonical) (hfinite : x.exponent ≤ 971) :
    x.high < (10 : ℚ) ^ (400 : ℤ) :=
  calc x.high ≤ (2 ^ 53 - 1 / 2) * 2 ^ x.exponent := hx.high_le
    _ ≤ 2 ^ 53 * 2 ^ x.exponent := by
        have := two_zpow_pos x.exponent
        gcongr
        norm_num
    _ = 2 ^ (53 + x.exponent) := by rw [zpow_add₀ two_ne_zero]; norm_cast
    _ < 2 ^ (1200 : ℤ) := zpow_lt_zpow_right₀ one_lt_two (by omega)
    _ ≤ 10 ^ (400 : ℤ) := two_zpow_le_ten_zpow

theorem Canonical.ne_zero (hx : x.Canonical) : zero ≠ x := by
  rintro rfl
  exact absurd hx.mantissa_pos (lt_irrefl 0)

theorem Canonical.digits_pos (hx : x.Canonical) {n : ℕ} {t : ℤ} (h : x.Covers (n * 10 ^ t)) :
    0 < n := by
  rw [Nat.pos_iff_ne_zero]
  rintro rfl
  have hlow := hx.low_pos.trans_le (hx.covers_iff.1 h).1
  rw [Nat.cast_zero, zero_mul] at hlow
  exact hlow.false

theorem ofDecimal?_eq_some_iff (hx : x.Canonical) (hfinite : x.exponent ≤ 971) (n : ℕ) (t : ℤ) :
    ofDecimal? n t = some x ↔ x.Covers (n * 10 ^ t) := by
  have hne : ¬ some zero = some x := fun h => hx.ne_zero (Option.some.inj h)
  have hlow := hx.ten_zpow_lt_low
  have hhigh := hx.high_lt_ten_zpow hfinite
  rw [ofDecimal?]
  split
  · rename_i hn
    exact iff_of_false hne fun h => (hx.digits_pos h).ne' hn
  · rename_i hn
    obtain ⟨hge, hlt⟩ := decimal_bounds (Nat.pos_of_ne_zero hn) t
    generalize t + (Nat.toDigits 10 n).length = top at *
    dsimp only
    split
    · rename_i htop
      refine iff_of_false (by simp) fun h => ?_
      have hle := (hx.covers_iff.1 h).2.1
      have : (10 : ℚ) ^ (400 : ℤ) ≤ 10 ^ (top - 1) := zpow_le_zpow_right₀ (by norm_num) (by omega)
      linarith
    · split
      · rename_i htop
        refine iff_of_false hne fun h => ?_
        have hle := (hx.covers_iff.1 h).1
        have : (10 : ℚ) ^ top ≤ 10 ^ (-400 : ℤ) := zpow_le_zpow_right₀ (by norm_num) (by omega)
        linarith
      · rw [zpow_eq_div (by norm_num) t]
        split
        · rename_i ht
          have hten : 0 < 10 ^ t.toNat := Nat.pow_pos (by norm_num)
          have hround :=
            ofRatio?_eq_some_iff (Nat.mul_pos (Nat.pos_of_ne_zero hn) hten) one_pos hx
          rw [show (-t).toNat = 0 by omega]
          push_cast at hround
          simpa [hfinite] using hround
        · rename_i ht
          have hten : 0 < 10 ^ (-t).toNat := Nat.pow_pos (by norm_num)
          have hround := ofRatio?_eq_some_iff (Nat.pos_of_ne_zero hn) hten hx
          rw [show t.toNat = 0 by omega]
          push_cast at hround
          simpa [hfinite, div_eq_mul_inv] using hround

section Search

theorem compare_cast {a b : ℕ} {p q d : ℚ} (hd : 0 < d) (hp : p * d = a) (hq : q * d = b) :
    compare a b = compare p q := by
  obtain h | h | h := lt_trichotomy p q
  · have : (a : ℚ) < b := by
      rw [← hp, ← hq]
      gcongr
    rw [compare_lt_iff_lt.2 h, compare_lt_iff_lt]
    exact_mod_cast this
  · have : (a : ℚ) = b := by rw [← hp, ← hq, h]
    rw [compare_eq_iff_eq.2 h, compare_eq_iff_eq]
    exact_mod_cast this
  · have : (b : ℚ) < a := by
      rw [← hp, ← hq]
      gcongr
    rw [compare_gt_iff_gt.2 h, compare_gt_iff_gt]
    exact_mod_cast this

theorem compareDecimal_eq (x : Magnitude) (n : ℕ) (t : ℤ) (q : ℕ) :
    x.compareDecimal n t q = compare ((n : ℚ) * 10 ^ t) (q * 2 ^ (x.exponent - 2)) := by
  rw [compareDecimal]
  refine compare_cast (d := 10 ^ (-t).toNat * 2 ^ (-(x.exponent - 2)).toNat) (by positivity) ?_ ?_
  · rw [zpow_eq_div (by norm_num) t]
    simp only [Nat.pow_eq]
    push_cast
    field_simp
  · rw [zpow_eq_div two_ne_zero (x.exponent - 2)]
    simp only [Nat.pow_eq]
    push_cast
    field_simp

theorem readsBack_iff (hx : x.Canonical) (t : ℤ) (n : ℕ) :
    x.readsBack t n = true ↔ x.Covers (n * 10 ^ t) := by
  have hlt := hx.low_lt_value.trans value_lt_high
  rw [readsBack, Covers]
  simp only [compareDecimal_eq]
  rw [show (x.quarterBounds.1 : ℚ) * 2 ^ (x.exponent - 2) = x.low from rfl,
    show (x.quarterBounds.2 : ℚ) * 2 ^ (x.exponent - 2) = x.high from rfl]
  generalize (n : ℚ) * 10 ^ t = q
  obtain hlow | rfl | hlow := lt_trichotomy q x.low
  · have hhigh := hlow.trans hlt
    rw [compare_lt_iff_lt.2 hlow, compare_lt_iff_lt.2 hhigh]
    simp [hlow.not_gt, hlow.ne, hhigh.ne]
  · rw [compare_eq_iff_eq.2 rfl, compare_lt_iff_lt.2 hlt]
    simp
  · obtain hhigh | rfl | hhigh := lt_trichotomy q x.high
    · rw [compare_gt_iff_gt.2 hlow, compare_lt_iff_lt.2 hhigh]
      simp [hlow, hhigh]
    · rw [compare_gt_iff_gt.2 hlow, compare_eq_iff_eq.2 rfl]
      simp
    · rw [compare_gt_iff_gt.2 hlow, compare_gt_iff_gt.2 hhigh]
      simp [hhigh.not_gt, hlow.ne', hhigh.ne']

theorem floorAt_bounds (hx : x.Canonical) (t : ℤ) :
    (x.floorAt t : ℚ) * 10 ^ t ≤ x.value ∧ x.value < (x.floorAt t + 1 : ℕ) * 10 ^ t := by
  have hpos : 0 < x.ratio.2 := (ratio_pos hx).2
  rw [← ratio_value, zpow_eq_div (by norm_num) t, mul_div_assoc', mul_div_assoc',
    div_le_div_iff₀ (by positivity) (by positivity), div_lt_div_iff₀ (by positivity) (by positivity)]
  have hle := Nat.div_mul_le_self (x.ratio.1 * 10 ^ (-t).toNat) (x.ratio.2 * 10 ^ t.toNat)
  have hlt := Nat.lt_mul_div_succ (x.ratio.1 * 10 ^ (-t).toNat)
    (show 0 < x.ratio.2 * 10 ^ t.toNat by positivity)
  rw [show x.ratio.1 * 10 ^ (-t).toNat / (x.ratio.2 * 10 ^ t.toNat) = x.floorAt t from rfl] at hle hlt
  norm_cast
  constructor <;> linarith

theorem nearer_up (hx : x.Canonical) (t : ℤ) (n : ℕ) :
    x.nearer .up t n = if x.value < (n + 1 / 2) * 10 ^ t then n else n + 1 := by
  have hpos : 0 < x.ratio.2 := (ratio_pos hx).2
  rw [nearer]
  dsimp only
  rw [compare_cast (p := x.value) (q := (n + 1 / 2) * 10 ^ t)
    (d := 2 * x.ratio.2 * 10 ^ (-t).toNat) (by positivity)]
  · obtain h | h | h := lt_trichotomy x.value ((n + 1 / 2) * 10 ^ t)
    · rw [compare_lt_iff_lt.2 h, if_pos h]
    · rw [compare_eq_iff_eq.2 h, if_neg h.not_lt]
    · rw [compare_gt_iff_gt.2 h, if_neg h.not_gt]
  · rw [← ratio_value]
    simp only [Nat.pow_eq]
    push_cast
    field_simp
  · rw [zpow_eq_div (by norm_num) t]
    simp only [Nat.pow_eq]
    push_cast
    field_simp

structure Nearest (x : Magnitude) (t : ℤ) (n : ℕ) : Prop where
  covers : x.Covers (n * 10 ^ t)
  least : ∀ k : ℕ, x.Covers (k * 10 ^ t) → |n * 10 ^ t - x.value| ≤ |k * 10 ^ t - x.value|
  greatest : ∀ k : ℕ, x.Covers (k * 10 ^ t) → |n * 10 ^ t - x.value| = |k * 10 ^ t - x.value| → k ≤ n

theorem nearest_floorAt (hx : x.Canonical) {t : ℤ} (h : x.Covers (x.floorAt t * 10 ^ t))
    (hnext : x.Covers ((x.floorAt t + 1 : ℕ) * 10 ^ t) → x.value < (x.floorAt t + 1 / 2) * 10 ^ t) :
    x.Nearest t (x.floorAt t) := by
  obtain ⟨hfloor, hceil⟩ := floorAt_bounds hx t
  have hunit := ten_zpow_pos t
  have habs : |x.floorAt t * 10 ^ t - x.value| = x.value - x.floorAt t * 10 ^ t := by
    rw [abs_of_nonpos (by linarith), neg_sub]
  have habove {k : ℕ} (hk : x.Covers (k * 10 ^ t)) (hlt : x.floorAt t < k) :
      |x.floorAt t * 10 ^ t - x.value| < |k * 10 ^ t - x.value| := by
    have hle : ((x.floorAt t + 1 : ℕ) : ℚ) * 10 ^ t ≤ k * 10 ^ t := by
      gcongr
      exact hlt
    have hnear := hnext (hx.covers_between hx.covers_value hk hceil.le hle)
    rw [habs, abs_of_nonneg (by linarith)]
    push_cast at hle
    linarith
  refine ⟨h, fun k hk => ?_, fun k hk heq => ?_⟩
  · obtain hle | hlt := le_or_gt k (x.floorAt t)
    · have : (k : ℚ) * 10 ^ t ≤ x.floorAt t * 10 ^ t := by gcongr
      rw [habs, abs_of_nonpos (by linarith)]
      linarith
    · exact (habove hk hlt).le
  · exact Nat.le_of_not_lt fun hlt => (habove hk hlt).ne heq

theorem nearest_succ_floorAt (hx : x.Canonical) {t : ℤ}
    (h : x.Covers ((x.floorAt t + 1 : ℕ) * 10 ^ t))
    (hprevious : x.Covers (x.floorAt t * 10 ^ t) → (x.floorAt t + 1 / 2) * 10 ^ t ≤ x.value) :
    x.Nearest t (x.floorAt t + 1) := by
  obtain ⟨hfloor, hceil⟩ := floorAt_bounds hx t
  have hunit := ten_zpow_pos t
  have habs : |(x.floorAt t + 1 : ℕ) * 10 ^ t - x.value| =
      (x.floorAt t + 1 : ℕ) * 10 ^ t - x.value := abs_of_nonneg (by linarith)
  refine ⟨h, fun k hk => ?_, fun k hk heq => ?_⟩
  · rw [habs]
    obtain hle | hlt := le_or_gt k (x.floorAt t)
    · have hle : (k : ℚ) * 10 ^ t ≤ x.floorAt t * 10 ^ t := by gcongr
      have hnear := hprevious (hx.covers_between hk hx.covers_value hle hfloor)
      rw [abs_of_nonpos (by linarith)]
      push_cast
      linarith
    · have hge : ((x.floorAt t + 1 : ℕ) : ℚ) * 10 ^ t ≤ k * 10 ^ t := by
        gcongr
        exact hlt
      rw [abs_of_nonneg (by linarith)]
      linarith
  · by_contra! hlt
    have hge : ((x.floorAt t + 1 : ℕ) : ℚ) * 10 ^ t < k * 10 ^ t := by gcongr
    rw [habs, abs_of_nonneg (by linarith)] at heq
    linarith

theorem decimalAt?_eq_none_iff (hx : x.Canonical) (t : ℤ) :
    x.decimalAt? .up t = none ↔ ∀ n : ℕ, ¬ x.Covers (n * 10 ^ t) := by
  obtain ⟨hfloor, hceil⟩ := floorAt_bounds hx t
  have hunit := ten_zpow_pos t
  have hneighbours : x.decimalAt? .up t = none ↔
      ¬ x.Covers (x.floorAt t * 10 ^ t) ∧ ¬ x.Covers ((x.floorAt t + 1 : ℕ) * 10 ^ t) := by
    rw [← readsBack_iff hx, ← readsBack_iff hx, decimalAt?]
    cases x.readsBack t (x.floorAt t) <;> cases x.readsBack t (x.floorAt t + 1) <;> simp
  rw [hneighbours]
  refine ⟨fun ⟨hnot, hnot'⟩ n h => ?_, fun h => ⟨h _, h _⟩⟩
  obtain hle | hlt := le_or_gt n (x.floorAt t)
  · have hle : (n : ℚ) * 10 ^ t ≤ x.floorAt t * 10 ^ t := by gcongr
    exact hnot (hx.covers_between h hx.covers_value hle hfloor)
  · have hge : ((x.floorAt t + 1 : ℕ) : ℚ) * 10 ^ t ≤ n * 10 ^ t := by
      gcongr
      exact hlt
    exact hnot' (hx.covers_between hx.covers_value h hceil.le hge)

theorem decimalAt?_nearest (hx : x.Canonical) {t : ℤ} {n : ℕ} (h : x.decimalAt? .up t = some n) :
    x.Nearest t n := by
  rw [decimalAt?] at h
  split at h
  · rename_i hfloor hnext
    rw [readsBack_iff hx] at hfloor hnext
    rw [nearer_up hx] at h
    split at h
    · obtain rfl := Option.some.inj h
      exact nearest_floorAt hx hfloor fun _ => by assumption
    · obtain rfl := Option.some.inj h
      exact nearest_succ_floorAt hx hnext fun _ => le_of_not_gt (by assumption)
  · rename_i hfloor hnext
    obtain rfl := Option.some.inj h
    refine nearest_floorAt hx ((readsBack_iff hx t _).1 hfloor) fun hcovers => ?_
    rw [(readsBack_iff hx t _).2 hcovers] at hnext
    cases hnext
  · rename_i hfloor hnext
    obtain rfl := Option.some.inj h
    refine nearest_succ_floorAt hx ((readsBack_iff hx t _).1 hnext) fun hcovers => ?_
    rw [(readsBack_iff hx t _).2 hcovers] at hfloor
    cases hfloor
  · cases h

theorem shortestFrom_spec (tie : Tie) (x : Magnitude) (fuel : ℕ) (t : ℤ)
    (h : ∃ k < fuel, x.decimalAt? tie (t - k) ≠ none) :
    ∃ n s, x.shortestFrom tie fuel t = ⟨n, s⟩ ∧ x.decimalAt? tie s = some n ∧
      ∀ r, s < r → r ≤ t → x.decimalAt? tie r = none := by
  induction fuel generalizing t with
  | zero => simp at h
  | succ fuel ih =>
    rw [shortestFrom]
    cases hnow : x.decimalAt? tie t with
    | some n => exact ⟨n, t, rfl, hnow, fun r _ _ => by omega⟩
    | none =>
      obtain ⟨k, hk, hfound⟩ := h
      cases k with
      | zero => exact absurd (by simpa using hnow) hfound
      | succ k =>
        have hstep : t - (k + 1 : ℕ) = t - 1 - k := by
          push_cast
          ring
        rw [hstep] at hfound
        obtain ⟨n, s, heq, hs, hnone⟩ := ih (t - 1) ⟨k, by omega, hfound⟩
        refine ⟨n, s, heq, hs, fun r hr hle => ?_⟩
        obtain rfl | hlt := hle.eq_or_lt
        · exact hnow
        · exact hnone r hr (by omega)

theorem exists_covers (hx : x.Canonical) {t : ℤ} (h : (10 : ℚ) ^ t < x.high - x.low) :
    ∃ n : ℕ, x.Covers (n * 10 ^ t) := by
  have hunit := ten_zpow_pos t
  have hquotient : 0 ≤ x.low / 10 ^ t := div_nonneg hx.low_pos.le hunit.le
  have hfloor := Nat.floor_le hquotient
  have hsucc := Nat.lt_floor_add_one (x.low / 10 ^ t)
  rw [le_div_iff₀ hunit] at hfloor
  rw [div_lt_iff₀ hunit] at hsucc
  refine ⟨⌊x.low / 10 ^ t⌋₊ + 1, .inl ⟨?_, ?_⟩⟩
  · exact_mod_cast hsucc
  · push_cast
    linarith

theorem Canonical.width_ge (hx : x.Canonical) : 3 / 4 * 2 ^ x.exponent ≤ x.high - x.low := by
  have hlow := hx.low_bounds.2
  rw [high_eq]
  linarith

theorem Canonical.log2_le (hx : x.Canonical) : x.mantissa.log2 ≤ 52 := by
  have := (Nat.log2_lt hx.mantissa_pos.ne').2 hx.mantissa_lt
  omega

theorem high_lt_two_zpow (x : Magnitude) :
    x.high < 2 ^ ((x.mantissa.log2 : ℤ) + x.exponent + 1) := by
  have hsucc : (x.mantissa : ℚ) + 1 ≤ 2 ^ (x.mantissa.log2 + 1) := by
    exact_mod_cast Nat.lt_log2_self (n := x.mantissa)
  have hexponent : (x.mantissa.log2 : ℤ) + x.exponent + 1 =
      ((x.mantissa.log2 + 1 : ℕ) : ℤ) + x.exponent := by
    push_cast
    ring
  have hpos := two_zpow_pos x.exponent
  have hlt : (x.mantissa : ℚ) + 1 / 2 < 2 ^ (x.mantissa.log2 + 1) := by linarith
  rw [hexponent, zpow_add₀ two_ne_zero, zpow_natCast, high_eq]
  gcongr

theorem not_covers_above (hx : x.Canonical) (hfinite : x.exponent ≤ 971) {t : ℤ}
    (ht : x.powerAbove ≤ t) (n : ℕ) : ¬ x.Covers (n * 10 ^ t) := by
  have hlog := hx.log2_le
  have hleast := hx.exponent_ge
  intro h
  have hhigh := (hx.covers_iff.1 h).2.1
  have hn : (1 : ℚ) ≤ n := by exact_mod_cast hx.digits_pos h
  have hbelow := high_lt_two_zpow x
  have hplaces := (places_bounds (a := x.mantissa.log2 + x.exponent + 1) (by omega) (by omega)).2
  have hunit : (10 : ℚ) ^ x.powerAbove ≤ 10 ^ t := zpow_le_zpow_right₀ (by norm_num) ht
  rw [powerAbove] at hunit
  have := ten_zpow_pos t
  have : (10 : ℚ) ^ t ≤ n * 10 ^ t := le_mul_of_one_le_left this.le hn
  linarith

theorem exists_covers_below (hx : x.Canonical) (hfinite : x.exponent ≤ 971) :
    ∃ n : ℕ, x.Covers (n * 10 ^ (x.powerAbove - 19)) := by
  have hlog := hx.log2_le
  have hleast := hx.exponent_ge
  have hpos := two_zpow_pos x.exponent
  have hplaces := (places_bounds (a := x.mantissa.log2 + x.exponent + 1) (by omega) (by omega)).1
  have hbits : (2 : ℚ) ^ ((x.mantissa.log2 : ℤ) + x.exponent + 1) ≤ 2 ^ 53 * 2 ^ x.exponent := by
    rw [← zpow_natCast (2 : ℚ) 53, ← zpow_add₀ two_ne_zero]
    exact zpow_le_zpow_right₀ one_le_two (by push_cast; omega)
  refine exists_covers hx (lt_of_lt_of_le ?_ hx.width_ge)
  rw [powerAbove, show ∀ a : ℤ, a + 1 - 19 = a - 18 from fun a => by ring, zpow_sub₀ (by norm_num)]
  rw [div_lt_iff₀ (by positivity)]
  norm_num
  linarith

end Search

/-- The shortest decimal of a number: it reads back as the number, no decimal with a greater unit does,
and no other with its unit is nearer to the number, or as near and greater. -/
structure IsShortest (x : Magnitude) (d : Numeral) : Prop where
  readsBack : ofDecimal? d.digits d.exponent = some x
  fewest : ∀ n, ofDecimal? n (d.exponent + 1) ≠ some x
  nearest : ∀ n, ofDecimal? n d.exponent = some x →
    |d.value - x.value| ≤ |Numeral.value ⟨n, d.exponent⟩ - x.value|
  greatest : ∀ n, ofDecimal? n d.exponent = some x →
    |d.value - x.value| = |Numeral.value ⟨n, d.exponent⟩ - x.value| → n ≤ d.digits

section Unique

variable {d d' : Numeral} (hx : x.Canonical) (hfinite : x.exponent ≤ 971)

include hx hfinite

theorem IsShortest.covers (h : x.IsShortest d) : x.Covers d.value :=
  (ofDecimal?_eq_some_iff hx hfinite _ _).1 h.readsBack

theorem IsShortest.exponent_le (h : x.IsShortest d) (h' : x.IsShortest d') :
    d'.exponent ≤ d.exponent := by
  by_contra! hlt
  have hcovers := h'.covers hx hfinite
  refine h.fewest (d'.digits * 10 ^ (d'.exponent - (d.exponent + 1)).toNat) ?_
  have hvalue : ((d'.digits * 10 ^ (d'.exponent - (d.exponent + 1)).toNat : ℕ) : ℚ) *
      10 ^ (d.exponent + 1) = d'.digits * 10 ^ d'.exponent := by
    push_cast
    rw [← zpow_natCast, mul_assoc, ← zpow_add₀ (by norm_num), Int.toNat_of_nonneg (by omega)]
    congr 2
    ring
  rw [ofDecimal?_eq_some_iff hx hfinite, hvalue]
  exact hcovers

theorem IsShortest.unique (h : x.IsShortest d) (h' : x.IsShortest d') : d = d' := by
  obtain ⟨n, s⟩ := d
  obtain ⟨n', s'⟩ := d'
  obtain rfl : s = s' :=
    le_antisymm (h'.exponent_le hx hfinite h) (h.exponent_le hx hfinite h')
  have heq := le_antisymm (h.nearest n' h'.readsBack) (h'.nearest n h.readsBack)
  obtain rfl : n = n' :=
    le_antisymm (h'.greatest n h.readsBack heq.symm) (h.greatest n' h'.readsBack heq)
  rfl

end Unique

/-- The search finds the shortest decimal of every finite number but zero. -/
theorem shortest_isShortest (hx : x.Canonical) (hfinite : x.exponent ≤ 971) :
    x.IsShortest (x.shortest .up) := by
  -- Nineteen units below the first one a decimal reads back, and in the first one none does yet: the unit
  -- in which the search stops lies in between, and all those above it have been tried.
  have hfound : ∃ k < 20, x.decimalAt? .up (x.powerAbove - (k : ℕ)) ≠ none := by
    refine ⟨19, by norm_num, fun hnone => ?_⟩
    obtain ⟨n, hn⟩ := exists_covers_below hx hfinite
    exact (decimalAt?_eq_none_iff hx _).1 hnone n hn
  obtain ⟨n, s, heq, hs, hnone⟩ := shortestFrom_spec .up x 20 x.powerAbove hfound
  have hnearest := decimalAt?_nearest hx hs
  have hbelow : s < x.powerAbove := by
    by_contra! hle
    exact not_covers_above hx hfinite hle n hnearest.covers
  rw [shortest, heq]
  constructor
  · exact (ofDecimal?_eq_some_iff hx hfinite n s).2 hnearest.covers
  · intro k hk
    have hcovers := (ofDecimal?_eq_some_iff hx hfinite k (s + 1)).1 hk
    exact (decimalAt?_eq_none_iff hx _).1 (hnone (s + 1) (by omega) (by omega)) k hcovers
  · exact fun k hk => hnearest.least k ((ofDecimal?_eq_some_iff hx hfinite k s).1 hk)
  · exact fun k hk => hnearest.greatest k ((ofDecimal?_eq_some_iff hx hfinite k s).1 hk)

theorem Canonical.high_lt (hx : x.Canonical) : x.high < 10 ^ 16 * (x.high - x.low) := by
  have hpos := two_zpow_pos x.exponent
  have hhigh := hx.high_le
  by_cases h : x.mantissa ≠ 2 ^ 52 ∨ x.exponent = -1074
  · have hlow := low_eq hx h
    rw [high_eq] at *
    linarith
  · have hleast := hx.exponent_ge
    obtain ⟨hm, he⟩ : x.mantissa = 2 ^ 52 ∧ -1074 < x.exponent := by omega
    rw [high_eq, low_eq_of_power hm he, hm]
    push_cast
    linarith

theorem IsShortest.digits_lt {d : Numeral} (h : x.IsShortest d) (hx : x.Canonical)
    (hfinite : x.exponent ≤ 971) : d.digits < 10 ^ 17 := by
  have hcovers := h.covers hx hfinite
  have hwide : x.high - x.low ≤ 10 ^ (d.exponent + 1) := by
    by_contra! hlt
    obtain ⟨n, hn⟩ := exists_covers hx hlt
    exact h.fewest n ((ofDecimal?_eq_some_iff hx hfinite _ _).2 hn)
  have hle := (hx.covers_iff.1 hcovers).2.1
  rw [Numeral.value] at hle
  have hhigh := hx.high_lt
  have hunit := ten_zpow_pos d.exponent
  rw [zpow_add_one₀ (by norm_num)] at hwide
  have hlt : (d.digits : ℚ) * 10 ^ d.exponent < 10 ^ 17 * 10 ^ d.exponent := by linarith
  exact_mod_cast lt_of_mul_lt_mul_right hlt hunit.le

theorem IsShortest.exponent_nonneg {d : Numeral} (h : x.IsShortest d) (hx : x.Canonical)
    (hfinite : x.exponent ≤ 971) (hwhole : 0 ≤ x.exponent) : 0 ≤ d.exponent := by
  by_contra! hlt
  refine h.fewest (x.mantissa * 2 ^ x.exponent.toNat * 10 ^ (-(d.exponent + 1)).toNat) ?_
  have hvalue : ((x.mantissa * 2 ^ x.exponent.toNat * 10 ^ (-(d.exponent + 1)).toNat : ℕ) : ℚ) *
      10 ^ (d.exponent + 1) = x.value := by
    push_cast
    rw [value, ← zpow_natCast, ← zpow_natCast, mul_assoc, ← zpow_add₀ (by norm_num),
      Int.toNat_of_nonneg hwhole, Int.toNat_of_nonneg (by omega)]
    simp
  rw [ofDecimal?_eq_some_iff hx hfinite, hvalue]
  exact hx.covers_value

end Magnitude

section Text

theorem toDigits_zeros {n : ℕ} (hn : 0 < n) (k : ℕ) :
    Nat.toDigits 10 n ++ zeros k = Nat.toDigits 10 (n * 10 ^ k) := by
  induction k with
  | zero => simp [zeros]
  | succ k ih =>
    have hpos : 0 < n * 10 ^ k := by positivity
    rw [zeros, List.replicate_succ', ← List.append_assoc, ← zeros, ih,
      show ['0'] = Nat.toDigits 10 0 from rfl,
      Nat.toDigits_append_toDigits (by norm_num) hpos (by norm_num)]
    congr 1
    ring

theorem Numeral.positional_whole {d : Numeral} (hdigits : 0 < d.digits) (hexponent : 0 ≤ d.exponent) :
    d.positional = Nat.toDigits 10 (d.digits * 10 ^ d.exponent.toNat) := by
  rw [positional]
  simp only [hexponent, if_true]
  exact toDigits_zeros hdigits _

end Text

end ResolverPipeline.Decimal
