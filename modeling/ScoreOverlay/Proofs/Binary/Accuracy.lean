import Mathlib.Algebra.Order.Field.Power
import Mathlib.Data.Rat.Floor
import Mathlib.Tactic.FieldSimp
import Mathlib.Tactic.Linarith
import ScoreOverlay.Proofs.Binary.Rounding

namespace ScoreOverlay.Binary

theorem abs_eq_abs (q : Rat) : q.abs = |q| := by
  unfold Rat.abs
  split
  · rw [abs_of_nonneg ‹_›]
  · rw [abs_of_neg (not_le.1 ‹_›)]

/-- The power of two that is found does not lie above the number. -/
theorem two_zpow_floorLog2_le {q : Rat} (h : 0 < q) : (2 : Rat) ^ floorLog2 q ≤ q := by
  have hnum := Rat.num_pos.2 h
  have hden : (0 : Rat) < q.den := Nat.cast_pos.2 q.den_pos
  have hlow : (2 : Rat) ^ (q.num.natAbs.log2 : Int) ≤ q.num := by
    have hpower : (2 ^ q.num.natAbs.log2 : Nat) ≤ q.num := by
      have := Nat.log2_self_le (n := q.num.natAbs) (by omega)
      omega
    rw [zpow_natCast]
    exact_mod_cast hpower
  have hhigh : (q.den : Rat) ≤ 2 ^ ((q.den.log2 : Int) + 1) := by
    rw [← Nat.cast_succ, zpow_natCast]
    exact_mod_cast Nat.lt_log2_self.le
  unfold floorLog2
  dsimp only
  split
  · calc (2 : Rat) ^ ((q.num.natAbs.log2 : Int) - q.den.log2 - 1)
        = 2 ^ (q.num.natAbs.log2 : Int) / 2 ^ ((q.den.log2 : Int) + 1) := by
          rw [sub_sub, zpow_sub₀ two_ne_zero]
      _ ≤ q.num / q.den := by gcongr
      _ = q := Rat.num_div_den q
  · exact not_lt.1 ‹_›

theorem abs_roundHalfEven_sub_le (q : Rat) : |(roundHalfEven q : Rat) - q| ≤ 1 / 2 := by
  have hlow : (q.floor : Rat) ≤ q := Rat.floor_le _
  have hhigh : q < (q.floor + 1 : Int) := Rat.lt_floor_add_one _
  rw [Int.cast_add, Int.cast_one] at hhigh
  rw [abs_le]
  unfold roundHalfEven
  dsimp only
  split_ifs <;> push_cast <;> constructor <;> linarith

/-- Rounding is off by at most half of the last place, and for small numbers by at most half of the
    least number of the format. -/
theorem Format.abs_round_sub_le (f : Format) (q : Rat) :
    |f.round q - q| ≤ |q| * (2 : Rat) ^ (-f.precision : Int) + (2 : Rat) ^ (f.minExponent - 1) := by
  by_cases hzero : q = 0
  · rw [hzero, round, if_pos rfl, sub_self, abs_zero]
    positivity
  · have hquantum : (0 : Rat) < 2 ^ f.quantumExponent q := by positivity
    have hround : f.round q - q =
        (roundHalfEven (q / 2 ^ f.quantumExponent q) - q / 2 ^ f.quantumExponent q) *
          2 ^ f.quantumExponent q := by
      simp only [round, if_neg hzero]
      field_simp
    have hhalf : |f.round q - q| ≤ 2 ^ (f.quantumExponent q - 1) := by
      rw [hround, abs_mul, abs_of_pos hquantum, zpow_sub_one₀ two_ne_zero]
      have := mul_le_mul_of_nonneg_right
        (abs_roundHalfEven_sub_le (q / 2 ^ f.quantumExponent q)) hquantum.le
      linarith
    refine hhalf.trans ?_
    have hplace : (2 : Rat) ^ (floorLog2 q.abs - f.precision) ≤ |q| * 2 ^ (-f.precision : Int) := by
      rw [sub_eq_add_neg, zpow_add₀ two_ne_zero, ← abs_eq_abs]
      have := two_zpow_floorLog2_le (q := q.abs) (by rw [abs_eq_abs]; positivity)
      gcongr
    have hleast : (0 : Rat) < 2 ^ (f.minExponent - 1) := by positivity
    have hplace' : (0 : Rat) ≤ |q| * 2 ^ (-f.precision : Int) := by positivity
    rcases max_choice (floorLog2 q.abs - (f.precision - 1)) f.minExponent with hmax | hmax
    · rw [quantumExponent, hmax, sub_sub, sub_add_cancel]
      linarith
    · rw [quantumExponent, hmax]
      linarith

/-- The error in a format with the given number of bits, with a bound for small numbers that is easy
    to calculate with. -/
private theorem abs_round_sub_le_of_precision {f : Format} {q : Rat} {bits : Nat}
    (hprecision : f.precision = bits) (hexponent : f.minExponent ≤ -99) :
    |f.round q - q| ≤ |q| / 2 ^ bits + 1 / 2 ^ 100 := by
  have hleast : (2 : Rat) ^ (f.minExponent - 1) ≤ 2 ^ (-100 : Int) :=
    zpow_le_zpow_right₀ one_le_two (by omega)
  have hsmall : (2 : Rat) ^ (-100 : Int) = 1 / 2 ^ 100 := by norm_num
  calc |f.round q - q|
      ≤ |q| * (2 : Rat) ^ (-f.precision : Int) + (2 : Rat) ^ (f.minExponent - 1) :=
        f.abs_round_sub_le q
    _ = |q| / 2 ^ bits + (2 : Rat) ^ (f.minExponent - 1) := by
        rw [hprecision, zpow_neg, zpow_natCast, div_eq_mul_inv]
    _ ≤ |q| / 2 ^ bits + 1 / 2 ^ 100 := by
        rw [← hsmall]
        gcongr

theorem abs_binary64_round_sub_le (q : Rat) :
    |binary64.round q - q| ≤ |q| / 2 ^ 53 + 1 / 2 ^ 100 :=
  abs_round_sub_le_of_precision rfl (by decide)

theorem abs_binary32_round_sub_le (q : Rat) :
    |binary32.round q - q| ≤ |q| / 2 ^ 24 + 1 / 2 ^ 100 :=
  abs_round_sub_le_of_precision rfl (by decide)

/-- Rounding to `binary32` does not make a number much larger. -/
theorem abs_binary32_round_le (q : Rat) : |binary32.round q| ≤ 2 * |q| + 1 := by
  have hround := abs_binary32_round_sub_le q
  have := abs_sub_abs_le_abs_sub (binary32.round q) q
  have := abs_nonneg q
  linarith

/-- Rounding what is near a number of the given size gives something near that number. -/
private theorem abs_round_sub_le_of_near {z w size : Rat} (hsize : 1 ≤ size) (hw : |w| ≤ size)
    (h : |z - w| ≤ size / 2 ^ 52) : |binary64.round z - w| ≤ size / 2 ^ 51 := by
  have hz : |z| ≤ 3 / 2 * size := by
    have := abs_sub_abs_le_abs_sub z w
    linarith
  have hround := abs_binary64_round_sub_le z
  have hsum := abs_sub_le (binary64.round z) z w
  linarith

variable {x y m n : Rat}

/-- Rounding two numbers and then their sum is off by little in relation to their sizes. -/
theorem abs_round_add_sub_le (hx : |x| ≤ m) (hy : |y| ≤ n) (h : 1 ≤ m + n) :
    |binary64.round (binary64.round x + binary64.round y) - (x + y)| ≤ (m + n) / 2 ^ 51 := by
  refine abs_round_sub_le_of_near h ((abs_add_le x y).trans (by gcongr)) ?_
  rw [add_sub_add_comm]
  have := abs_add_le (binary64.round x - x) (binary64.round y - y)
  have := abs_binary64_round_sub_le x
  have := abs_binary64_round_sub_le y
  linarith

/-- Rounding two numbers and then their difference is off by little in relation to their sizes. -/
theorem abs_round_sub_sub_le (hx : |x| ≤ m) (hy : |y| ≤ n) (h : 1 ≤ m + n) :
    |binary64.round (binary64.round x - binary64.round y) - (x - y)| ≤ (m + n) / 2 ^ 51 := by
  refine abs_round_sub_le_of_near h ((abs_sub x y).trans (by gcongr)) ?_
  rw [sub_sub_sub_comm]
  have := abs_sub (binary64.round x - x) (binary64.round y - y)
  have := abs_binary64_round_sub_le x
  have := abs_binary64_round_sub_le y
  linarith

/-- What is rounded when a root is taken: the root that is cut off, and half of its last place more
    if it is not exact. -/
private theorem exists_root (k : Nat) : ∃ (root : Nat) (cut : Rat),
    binary64.sqrt k = binary64.round cut ∧ root * root ≤ k * 2 ^ 110 ∧
      k * 2 ^ 110 < (root + 1) * (root + 1) ∧ root ≤ cut * 2 ^ 55 ∧
        cut * 2 ^ 55 ≤ root + 1 / 2 := by
  let root := (k <<< 110).sqrt
  let twice := if root * root = k <<< 110 then 2 * root else 2 * root + 1
  have hscale : (2 : Rat) ^ (-56 : Int) * 2 ^ 55 = 1 / 2 := by norm_num
  have htwice : 2 * root ≤ twice ∧ twice ≤ 2 * root + 1 := by
    simp only [twice]
    split <;> omega
  refine ⟨root, twice * (2 : Rat) ^ (-56 : Int), rfl, ?_, ?_, ?_, ?_⟩
  · rw [← Nat.shiftLeft_eq]
    exact Nat.sqrt_le _
  · rw [← Nat.shiftLeft_eq]
    exact Nat.lt_succ_sqrt _
  · have hlow : (2 * root : Rat) ≤ twice := by exact_mod_cast htwice.1
    rw [mul_assoc, hscale]
    linarith
  · have hhigh : (twice : Rat) ≤ 2 * root + 1 := by exact_mod_cast htwice.2
    rw [mul_assoc, hscale]
    linarith

theorem sqrt_nonneg (k : Nat) : 0 ≤ binary64.sqrt k := by
  obtain ⟨root, cut, hsqrt, -, -, hcut, -⟩ := exists_root k
  have : (0 : Rat) ≤ root := Nat.cast_nonneg root
  rw [hsqrt]
  exact Format.round_nonneg (by linarith)

/-- A number is the square of its root up to a small part of that square. -/
theorem le_sq_sqrt (k : Nat) : (k : Rat) ≤ (1 + 1 / 2 ^ 50) * binary64.sqrt k ^ 2 := by
  rcases Nat.eq_zero_or_pos k with rfl | hk
  · rw [Nat.cast_zero]
    positivity
  obtain ⟨root, cut, hsqrt, -, hroot, hcut, -⟩ := exists_root k
  have hlarge : (2 : Rat) ^ 55 ≤ root := by
    have : 2 ^ 55 ≤ root := by nlinarith
    exact_mod_cast this
  have hroot' : (k : Rat) * 2 ^ 110 < (root + 1) * (root + 1) := by exact_mod_cast hroot
  have hnear := (abs_le.1 (abs_binary64_round_sub_le cut)).1
  rw [← hsqrt, abs_of_nonneg (by linarith)] at hnear
  have hscaled : (1 - 1 / 2 ^ 52) * (root : Rat) ≤ binary64.sqrt k * 2 ^ 55 := by linarith
  have hsquare := pow_le_pow_left₀ (by linarith) hscaled 2
  nlinarith

theorem sqrt_le (k : Nat) : binary64.sqrt k ≤ 2 * k := by
  rcases Nat.eq_zero_or_pos k with rfl | hk
  · decide +kernel
  obtain ⟨root, cut, hsqrt, hroot, -, hcut, hcut'⟩ := exists_root k
  have hsmall : (root : Rat) ≤ k * 2 ^ 55 := by
    have : root ≤ k * 2 ^ 55 := by nlinarith
    exact_mod_cast this
  have hk' : (1 : Rat) ≤ k := by exact_mod_cast hk
  have hnonneg : 0 ≤ cut := by
    have : (0 : Rat) ≤ root := Nat.cast_nonneg root
    linarith
  have hnear := (abs_le.1 (abs_binary64_round_sub_le cut)).2
  rw [← hsqrt, abs_of_nonneg hnonneg] at hnear
  linarith

end ScoreOverlay.Binary
