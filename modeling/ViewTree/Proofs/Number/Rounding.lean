import Mathlib.Algebra.Order.Field.Power
import Mathlib.Data.Int.Log
import Mathlib.Data.Rat.Floor
import Mathlib.Tactic.FieldSimp
import Mathlib.Tactic.Positivity
import Mathlib.Tactic.Ring
import ViewTree.Number.Decimal

/-!
# What rounding depends on

A double is read off a quotient by shifting, dividing and counting bits, and off a decimal with two
short cuts besides. This file says that none of that matters: **the double depends on the number
alone**, not on how it is given as a quotient (`ofRatio_congr`), nor on where the point stands in
the decimal (`toDouble_congr`). And a double that is rounded is itself (`ofRatio_self`).

The bridge is the rational number. The block of a quotient is its binary logarithm, which makes it
`Int.log 2`; the significand is a rounded division, which does not change when both sides are
multiplied. The short cuts are right because the greatest double is below `10 ^ 401` and half the
smallest one above `10 ^ -400`.

With that, the decimal that is written for a double reads back as it (`toDouble_shortest`). The
search for it tests exactly this; what is left is the exact expansion that stands at its end.
-/

set_option autoImplicit false

namespace ViewTree

namespace Double

variable {num den num' den' : Nat}

/-! ## The block -/

theorem zpow_le_div_iff (hden : 0 < den) (g : Int) :
    (2 : ℚ) ^ g ≤ (num : ℚ) / den ↔ den <<< g.toNat ≤ num <<< (-g).toNat := by
  have hpos : (0 : ℚ) < den := Nat.cast_pos.mpr hden
  rw [le_div_iff₀ hpos, Nat.shiftLeft_eq, Nat.shiftLeft_eq]
  obtain ⟨n, rfl | rfl⟩ := g.eq_nat_or_neg
  · rw [zpow_natCast, Int.toNat_natCast, Int.toNat_neg_natCast, pow_zero, mul_one, mul_comm]
    exact_mod_cast Iff.rfl
  · rw [zpow_neg, zpow_natCast, Int.toNat_neg_natCast, neg_neg, Int.toNat_natCast, pow_zero,
      mul_one, inv_mul_le_iff₀ (by positivity), mul_comm]
    exact_mod_cast Iff.rfl

theorem log_eq_of_le_of_lt {q : ℚ} {g : Int} (hle : (2 : ℚ) ^ g ≤ q) (hlt : q < 2 ^ (g + 1)) :
    Int.log 2 q = g := by
  have hpos : 0 < q := lt_of_lt_of_le (by positivity) hle
  have hlower := (Int.zpow_le_iff_le_log Nat.one_lt_two hpos).mp (by exact_mod_cast hle)
  have hupper := (Int.lt_zpow_iff_log_lt Nat.one_lt_two hpos).mp (by exact_mod_cast hlt)
  omega

/-- The exponent that is found by counting bits is the binary logarithm of the quotient. -/
theorem log2Ratio_eq (hnum : 0 < num) (hden : 0 < den) :
    log2Ratio num den = Int.log 2 ((num : ℚ) / den) := by
  have hbelow (n : Nat) (hn : 0 < n) : (2 : ℚ) ^ (n.log2 : Int) ≤ n := by
    rw [zpow_natCast]
    exact_mod_cast Nat.log2_self_le hn.ne'
  have habove (n : Nat) : (n : ℚ) < 2 ^ ((n.log2 : Int) + 1) := by
    have hlt : n < 2 ^ (n.log2 + 1) := Nat.lt_log2_self
    exact_mod_cast hlt
  have hpos : (0 : ℚ) < den := Nat.cast_pos.mpr hden
  -- The logarithm of the quotient is the difference of those of its sides, or one less.
  have hupper : (num : ℚ) / den < 2 ^ ((num.log2 : Int) - den.log2 + 1) := by
    rw [div_lt_iff₀ hpos]
    calc (num : ℚ) < 2 ^ ((num.log2 : Int) + 1) := habove num
      _ = 2 ^ ((num.log2 : Int) - den.log2 + 1) * 2 ^ (den.log2 : Int) := by
        rw [← zpow_add₀ (by norm_num)]
        congr 1
        omega
      _ ≤ _ := by
        have := hbelow den hden
        gcongr
  have hlower : (2 : ℚ) ^ ((num.log2 : Int) - den.log2 - 1) ≤ (num : ℚ) / den := by
    rw [le_div_iff₀ hpos]
    calc (2 : ℚ) ^ ((num.log2 : Int) - den.log2 - 1) * den
        ≤ 2 ^ ((num.log2 : Int) - den.log2 - 1) * 2 ^ ((den.log2 : Int) + 1) := by
          have := (habove den).le
          gcongr
      _ = 2 ^ (num.log2 : Int) := by
        rw [← zpow_add₀ (by norm_num)]
        congr 1
        omega
      _ ≤ num := hbelow num hnum
  unfold log2Ratio
  simp only
  split
  · rename_i h
    exact (log_eq_of_le_of_lt ((zpow_le_div_iff hden _).mpr h) hupper).symm
  · rename_i h
    refine (log_eq_of_le_of_lt hlower ?_).symm
    rw [sub_add_cancel]
    exact not_le.mp fun hle => h ((zpow_le_div_iff hden _).mp hle)

/-! ## The significand -/

theorem roundHalfEven_mul_left {c : Nat} (hc : 0 < c) (num den : Nat) :
    roundHalfEven (c * num) (c * den) = roundHalfEven num den := by
  have hlt (a b : Nat) : c * a < c * b ↔ a < b := Nat.mul_lt_mul_left hc
  simp only [roundHalfEven, Nat.mul_div_mul_left _ _ hc, Nat.mul_mod_mul_left,
    Nat.mul_left_comm 2 c, hlt]

theorem roundHalfEven_congr (hden : 0 < den) (hden' : 0 < den')
    (h : num * den' = num' * den) : roundHalfEven num den = roundHalfEven num' den' := by
  rw [← roundHalfEven_mul_left hden' num den, ← roundHalfEven_mul_left hden num' den',
    Nat.mul_comm den' num, h, Nat.mul_comm num' den, Nat.mul_comm den' den]

/-- A whole quotient is not rounded. -/
theorem roundHalfEven_mul_self (n : Nat) (hden : 0 < den) : roundHalfEven (n * den) den = n := by
  rw [roundHalfEven, Nat.mul_div_cancel _ hden, Nat.mul_mod_left, if_pos (by omega)]

/-! ## The rank -/

theorem mul_eq_mul_of_div_eq (hden : 0 < den) (hden' : 0 < den')
    (h : (num : ℚ) / den = num' / den') : num * den' = num' * den := by
  rw [div_eq_div_iff (Nat.cast_pos.mpr hden).ne' (Nat.cast_pos.mpr hden').ne'] at h
  exact_mod_cast h

theorem nearestRank_congr (hnum : 0 < num) (hden : 0 < den) (hnum' : 0 < num') (hden' : 0 < den')
    (h : (num : ℚ) / den = num' / den') : nearestRank num den = nearestRank num' den' := by
  have hunit : unitExponent num den = unitExponent num' den' := by
    rw [unitExponent, unitExponent, log2Ratio_eq hnum hden, log2Ratio_eq hnum' hden', h]
  have hcross := mul_eq_mul_of_div_eq hden hden' h
  simp only [nearestRank, hunit, Nat.shiftLeft_eq]
  congr 1
  refine roundHalfEven_congr (by positivity) (by positivity) ?_
  calc _ = num * den' * (2 ^ (-unitExponent num' den').toNat *
        2 ^ (unitExponent num' den').toNat) := by ring
    _ = _ := by rw [hcross]; ring

/-- **Rounding looks at the number only**: equal quotients round to the same double. -/
theorem ofRatio_congr (negative : Bool) (hden : 0 < den) (hden' : 0 < den')
    (h : (num : ℚ) / den = num' / den') :
    ofRatio negative num den = ofRatio negative num' den' := by
  have hcross := mul_eq_mul_of_div_eq hden hden' h
  rcases Nat.eq_zero_or_pos num with rfl | hnum
  · have hzero : num' = 0 := by
      rw [Nat.zero_mul] at hcross
      exact (Nat.mul_eq_zero.mp hcross.symm).resolve_right hden.ne'
    rw [hzero, ofRatio, ofRatio, if_pos rfl, if_pos rfl]
  · have hnum' : 0 < num' := by
      refine Nat.pos_of_ne_zero ?_
      rintro rfl
      rw [Nat.zero_mul] at hcross
      exact absurd hcross (Nat.mul_pos hnum hden').ne'
    simp only [ofRatio, hnum.ne', hnum'.ne', if_false,
      nearestRank_congr hnum hden hnum' hden' h]

/-! ## A double is its own rounding -/

theorem denominator_pos (x : Double) : 0 < x.denominator := by
  rw [denominator, Nat.shiftLeft_eq]
  positivity

theorem exponent_ge (x : Double) : -1074 ≤ x.exponent := by
  unfold exponent
  split
  · exact le_rfl
  · rename_i h
    have : 1 ≤ x.rank.val / blockSize := (Nat.one_le_div_iff (by decide)).mpr (not_lt.mp h)
    omega

/-- A double is its significand in units of a power of two. -/
theorem div_eq (x : Double) :
    (x.numerator : ℚ) / x.denominator = x.significand * 2 ^ x.exponent := by
  rw [numerator, denominator, Nat.shiftLeft_eq, Nat.shiftLeft_eq]
  push_cast
  obtain ⟨n, h | h⟩ := x.exponent.eq_nat_or_neg
  · rw [h, Int.toNat_natCast, Int.toNat_neg_natCast, zpow_natCast, pow_zero, mul_one, div_one]
  · rw [h, neg_neg, Int.toNat_natCast, Int.toNat_neg_natCast, zpow_neg, zpow_natCast, pow_zero,
      mul_one, one_mul, div_eq_mul_inv]

theorem rank_eq (x : Double) :
    (x.exponent + 1074).toNat * blockSize + x.significand = x.rank.val := by
  unfold exponent significand
  split
  · simp
  · rename_i h
    have hblock : 1 ≤ x.rank.val / blockSize := (Nat.one_le_div_iff (by decide)).mpr (not_lt.mp h)
    have hdiv := Nat.div_add_mod x.rank.val blockSize
    obtain ⟨k, hk⟩ := Nat.exists_eq_add_of_le hblock
    have hexponent : (((x.rank.val / blockSize : Nat) : Int) - 1075 + 1074).toNat = k := by omega
    rw [hexponent]
    rw [hk, Nat.mul_add, Nat.mul_one, Nat.mul_comm] at hdiv
    omega

theorem significand_lt (x : Double) : x.significand < 2 ^ 53 := by
  have hmod := Nat.mod_lt x.rank.val (show 0 < blockSize by decide)
  have hblock : blockSize = 2 ^ 52 := rfl
  unfold significand
  split <;> omega

theorem significand_pos {x : Double} (hx : x.rank.val ≠ 0) : 0 < x.significand := by
  unfold significand
  split
  · exact Nat.pos_of_ne_zero hx
  · exact Nat.add_pos_left (by decide) _

/-- Only the numbers of the lowest block have fewer than 53 significant bits. -/
theorem significand_ge_or (x : Double) : 2 ^ 52 ≤ x.significand ∨ x.exponent = -1074 := by
  unfold significand exponent
  split
  · exact .inr rfl
  · exact .inl (Nat.le_add_right _ _)

theorem unitExponent_self {x : Double} (hx : x.rank.val ≠ 0) :
    unitExponent x.numerator x.denominator = x.exponent := by
  have hpos := significand_pos hx
  have hnum : 0 < x.numerator := by
    rw [numerator, Nat.shiftLeft_eq]
    positivity
  have hupper : Int.log 2 ((x.significand : ℚ) * 2 ^ x.exponent) < 53 + x.exponent := by
    refine (Int.lt_zpow_iff_log_lt Nat.one_lt_two (by positivity)).mp ?_
    have hlt : (x.significand : ℚ) < 2 ^ (53 : ℤ) := by exact_mod_cast x.significand_lt
    rw [Nat.cast_ofNat, zpow_add₀ (by norm_num)]
    gcongr
  -- With 53 significant bits the exponent is what the logarithm says, and with fewer it is the
  -- least one, which is what the logarithm is cut off at.
  rw [unitExponent, log2Ratio_eq hnum x.denominator_pos, div_eq]
  have hexponent := x.exponent_ge
  rcases x.significand_ge_or with hlarge | hlowest
  · have hlower : 52 + x.exponent ≤ Int.log 2 ((x.significand : ℚ) * 2 ^ x.exponent) := by
      refine (Int.zpow_le_iff_le_log Nat.one_lt_two (by positivity)).mp ?_
      have hle : (2 : ℚ) ^ (52 : ℤ) ≤ x.significand := by exact_mod_cast hlarge
      rw [Nat.cast_ofNat, zpow_add₀ (by norm_num)]
      gcongr
    omega
  · omega

/-- **A double is its own rounding.** -/
theorem ofRatio_self (x : Double) : ofRatio x.negative x.numerator x.denominator = some x := by
  obtain ⟨negative, rank⟩ := x
  by_cases hx : rank.val = 0
  · have hrank : rank = ⟨0, by decide⟩ := Fin.ext hx
    subst hrank
    rfl
  · have hnum : numerator ⟨negative, rank⟩ ≠ 0 := by
      have hpos := significand_pos (x := ⟨negative, rank⟩) hx
      rw [numerator, Nat.shiftLeft_eq]
      positivity
    have hrank : nearestRank (numerator ⟨negative, rank⟩) (denominator ⟨negative, rank⟩) =
        rank.val := by
      rw [nearestRank, unitExponent_self hx]
      have hself := rank_eq ⟨negative, rank⟩
      simp only at hself ⊢
      rw [numerator, denominator, ← hself]
      congr 1
      simp only [Nat.shiftLeft_eq, one_mul]
      rw [Nat.mul_assoc, Nat.mul_comm (2 ^ (-exponent ⟨negative, rank⟩).toNat)]
      exact roundHalfEven_mul_self _ (by positivity)
    rw [ofRatio, if_neg hnum, dif_pos (by rw [hrank]; exact rank.isLt)]
    simp only [hrank]

theorem roundHalfEven_shiftLeft_eq_zero {k n : Nat} (hk : k < n) (h : 2 ^ n * num < den) :
    roundHalfEven (num <<< k) den = 0 := by
  have hhalf : 2 * num <<< k < den := by
    calc 2 * num <<< k = 2 ^ (k + 1) * num := by
          rw [Nat.shiftLeft_eq, Nat.pow_succ]
          ring
      _ ≤ 2 ^ n * num := Nat.mul_le_mul_right _ (Nat.pow_le_pow_right (by decide) hk)
      _ < den := h
  have hlt : num <<< k < den := by omega
  rw [roundHalfEven, Nat.div_eq_of_lt hlt, Nat.mod_eq_of_lt hlt, if_pos hhalf]

/-- A quotient of `2 ^ 1025` or more is too large for a double. -/
theorem ofRatio_of_large (negative : Bool) (hden : 0 < den) {n : Nat} (hn : 1025 ≤ n)
    (h : 2 ^ n * den ≤ num) : ofRatio negative num den = none := by
  have hnum : 0 < num := lt_of_lt_of_le (by positivity) h
  have hle : (2 : ℚ) ^ (n : ℤ) ≤ (num : ℚ) / den := by
    rw [zpow_natCast, le_div_iff₀ (Nat.cast_pos.mpr hden)]
    exact_mod_cast h
  have hlog : (n : ℤ) ≤ log2Ratio num den := by
    rw [log2Ratio_eq hnum hden]
    exact (Int.zpow_le_iff_le_log Nat.one_lt_two (by positivity)).mp hle
  have hblocks : 2047 ≤ (unitExponent num den + 1074).toNat := by
    unfold unitExponent
    omega
  have hrank : count ≤ nearestRank num den :=
    Nat.le_add_right_of_le (Nat.mul_le_mul_right _ hblocks)
  rw [ofRatio, if_neg hnum.ne', dif_neg (not_lt.mpr hrank)]

/-- A quotient below `2 ^ -1075` is rounded to zero. -/
theorem ofRatio_of_small (negative : Bool) {n : Nat} (hn : 1075 ≤ n) (h : 2 ^ n * num < den) :
    ofRatio negative num den = some (zero negative) := by
  rcases Nat.eq_zero_or_pos num with rfl | hnum
  · rfl
  · have hden : 0 < den := Nat.zero_lt_of_lt h
    have hlt : (num : ℚ) / den < 2 ^ (-n : ℤ) := by
      rw [div_lt_iff₀ (Nat.cast_pos.mpr hden), zpow_neg, zpow_natCast, ← div_eq_inv_mul,
        lt_div_iff₀ (by positivity), mul_comm]
      exact_mod_cast h
    have hlog : log2Ratio num den < -n := by
      rw [log2Ratio_eq hnum hden]
      exact (Int.lt_zpow_iff_log_lt Nat.one_lt_two (by positivity)).mp hlt
    have hunit : unitExponent num den = -1074 := by
      unfold unitExponent
      omega
    have hrank : nearestRank num den = 0 := by
      rw [nearestRank, hunit]
      exact (Nat.zero_add _).trans (roundHalfEven_shiftLeft_eq_zero (k := 1074) (by omega) h)
    rw [ofRatio, if_neg hnum.ne', dif_pos (by rw [hrank]; decide)]
    simp only [hrank, zero]

end Double

/-! ## Decimals -/

namespace Decimal

open Double (ofRatio ofRatio_congr ofRatio_self denominator_pos)

/-- The number that a decimal is. -/
def value (d : Decimal) : ℚ := d.significand * 10 ^ d.exponent

theorem div_eq_value (d : Decimal) :
    ((d.significand * Nat.pow 10 d.exponent.toNat : Nat) : ℚ) /
      (Nat.pow 10 (-d.exponent).toNat : Nat) = d.value := by
  rw [Nat.pow_eq, Nat.pow_eq, value]
  push_cast
  obtain ⟨n, h | h⟩ := d.exponent.eq_nat_or_neg
  · rw [h, Int.toNat_natCast, Int.toNat_neg_natCast, zpow_natCast, pow_zero, div_one]
  · rw [h, neg_neg, Int.toNat_natCast, Int.toNat_neg_natCast, zpow_neg, zpow_natCast, pow_zero,
      mul_one, div_eq_mul_inv]

theorem two_pow_le_ten_pow (n : Nat) : 2 ^ (3 * n) ≤ 10 ^ n := by
  rw [Nat.pow_mul]
  exact Nat.pow_le_pow_left (by decide) n

/-- **The short cuts are right**: a decimal is always read as the double nearest to its quotient. -/
theorem toDouble_eq_ofRatio (negative : Bool) (d : Decimal) :
    d.toDouble negative = ofRatio negative (d.significand * Nat.pow 10 d.exponent.toNat)
      (Nat.pow 10 (-d.exponent).toNat) := by
  unfold toDouble
  split
  · rename_i hzero
    rw [hzero, Nat.zero_mul]
    rfl
  · rename_i hsignificand
    split
    · rename_i hlarge
      have hexponent : (-d.exponent).toNat = 0 := by omega
      rw [hexponent]
      refine (Double.ofRatio_of_large negative Nat.one_pos (n := 3 * d.exponent.toNat)
        (by omega) ?_).symm
      rw [Nat.mul_one]
      exact (two_pow_le_ten_pow _).trans
        (Nat.le_mul_of_pos_left _ (Nat.pos_of_ne_zero hsignificand))
    · split
      · rename_i hsmall
        have hexponent : d.exponent.toNat = 0 := by omega
        rw [hexponent]
        refine (Double.ofRatio_of_small negative
          (n := 3 * (-d.exponent).toNat - (d.significand.log2 + 1)) (by omega) ?_).symm
        calc 2 ^ (3 * (-d.exponent).toNat - (d.significand.log2 + 1)) * (d.significand * 1)
            < 2 ^ (3 * (-d.exponent).toNat - (d.significand.log2 + 1)) *
                2 ^ (d.significand.log2 + 1) := by
              rw [Nat.mul_one]
              exact Nat.mul_lt_mul_of_pos_left Nat.lt_log2_self (by positivity)
          _ = 2 ^ (3 * (-d.exponent).toNat) := by
              rw [← Nat.pow_add]
              congr 1
              omega
          _ ≤ 10 ^ (-d.exponent).toNat := two_pow_le_ten_pow _
      · rfl

/-- A decimal is read as what any quotient is rounded to that is the same number. -/
theorem toDouble_eq_of_value {d : Decimal} {num den : Nat} (negative : Bool) (hden : 0 < den)
    (h : d.value = (num : ℚ) / den) : d.toDouble negative = ofRatio negative num den := by
  rw [toDouble_eq_ofRatio]
  exact ofRatio_congr negative (Nat.pow_pos (by decide)) hden (d.div_eq_value.trans h)

/-- **Where the point stands does not matter**: decimals that are the same number are read as the
same double. -/
theorem toDouble_congr {d e : Decimal} (negative : Bool) (h : d.value = e.value) :
    d.toDouble negative = e.toDouble negative := by
  rw [toDouble_eq_ofRatio negative e]
  exact toDouble_eq_of_value negative (Nat.pow_pos (by decide)) (h.trans e.div_eq_value.symm)

end Decimal

namespace Double

theorem value_exactDecimal (x : Double) :
    x.exactDecimal.value = (x.numerator : ℚ) / x.denominator := by
  unfold exactDecimal
  split
  · rename_i hneg
    obtain ⟨n, hn⟩ : ∃ n : Nat, x.exponent = -n := ⟨(-x.exponent).toNat, by omega⟩
    rw [Decimal.value, div_eq]
    simp only [hn, neg_neg, Int.toNat_natCast, Nat.pow_eq, zpow_neg, zpow_natCast]
    push_cast
    rw [show (10 : ℚ) = 5 * 2 by norm_num, mul_pow]
    field_simp
  · rename_i hpos
    have hexponent : (-x.exponent).toNat = 0 := by omega
    rw [Decimal.value, denominator, hexponent]
    simp

/-- **What is written for a double reads back as it.** -/
theorem toDouble_shortest (tie : Tie) (x : Double) :
    (x.shortest tie).toDouble x.negative = some x := by
  unfold shortest
  cases hfound : (List.range 17).findSome? fun n =>
      (x.neighbours tie (n + 1)).find? x.standsFor with
  | none =>
    rw [Option.getD_none, Decimal.toDouble_eq_of_value x.negative x.denominator_pos
      x.value_exactDecimal]
    exact x.ofRatio_self
  | some d =>
    obtain ⟨n, -, hd⟩ := List.exists_of_findSome?_eq_some hfound
    exact of_decide_eq_true (List.find?_some (p := x.standsFor) hd)

end Double

end ViewTree
