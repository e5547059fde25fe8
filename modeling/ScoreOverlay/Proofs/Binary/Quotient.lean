import ScoreOverlay.Coordinate
import ScoreOverlay.Proofs.Binary.Monotonicity

namespace ScoreOverlay.Binary

namespace Scalar

/-- The quotient of two finite numbers, in the format `f`. A divisor that is zero gives an infinity
    with the sign of the dividend, and `nan` if that is zero too. -/
def quotient (f : Format) (a b : Rat) : Scalar :=
  if b = 0 then
    if a = 0 then nan else if a < 0 then negInfinity else posInfinity
  else ofRat f (a / b)

theorem value?_ofRat {f : Format} {q : Rat} (h : ¬ f.Overflows (f.round q)) :
    (ofRat f q).value? = some (f.round q) := by
  simp only [ofRat, if_neg h]
  split
  · rw [‹f.round q = 0 ∧ q < 0›.1]
    rfl
  · rfl

/-- A number that is not large, divided by one that is not small, has a finite quotient. -/
theorem value?_quotient {a b : Rat} (ha : |a| ≤ 2 ^ 33) (hb : 1 / 2 ≤ b) :
    (quotient binary32 a b).value? = some (binary32.round (a / b)) := by
  have hpos : 0 < b := by linarith
  rw [quotient, if_neg hpos.ne']
  refine value?_ofRat (not_le.2 ?_)
  have hquotient : |a / b| ≤ 2 ^ 34 := by
    rw [abs_div, abs_of_pos hpos, div_le_iff₀ hpos]
    linarith
  have hround := abs_binary32_round_le (a / b)
  have hlimit : binary32.limit = 2 ^ 128 := rfl
  rw [abs_eq_abs, hlimit]
  linarith

end Scalar

theorem abs_round_le_of_inRange {n : Int} (h : Coordinate.InRange n) :
    |binary32.round n| ≤ 2 ^ 33 := by
  obtain ⟨hlow, hhigh⟩ := h
  have habs : |(n : Rat)| ≤ 2 ^ 31 :=
    abs_le.2 ⟨by exact_mod_cast hlow, by exact_mod_cast hhigh.trans (by decide)⟩
  have := abs_binary32_round_le n
  linarith

/-- What is positive after rounding an integer is at least one. -/
theorem one_le_round_of_pos {n : Int} (h : 0 < n) : 1 ≤ binary32.round n := by
  have hone : binary32.round 1 = 1 := by decide +kernel
  rw [← hone]
  exact Format.round_le_round (by decide) zero_le_one (by exact_mod_cast h)

/-- Two roundings leave at least one half of half of a positive integer. -/
theorem half_le_round_half {n : Int} (h : 0 < n) :
    1 / 2 ≤ binary32.round (binary32.round n / 2) := by
  have hone := one_le_round_of_pos h
  have hhalf : binary32.round (1 / 2) = 1 / 2 := by decide +kernel
  calc (1 : Rat) / 2 = binary32.round (1 / 2) := hhalf.symm
    _ ≤ binary32.round (binary32.round n / 2) :=
      Format.round_le_round (by decide) (by norm_num) (by linarith)

end ScoreOverlay.Binary
