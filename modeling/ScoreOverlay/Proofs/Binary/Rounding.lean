import ScoreOverlay.Binary.Scalar

namespace ScoreOverlay.Binary

theorem roundHalfEven_nonneg {q : Rat} (h : 0 ≤ q) : 0 ≤ roundHalfEven q := by
  have hfloor : 0 ≤ q.floor := Rat.le_floor_iff.2 (by simpa using h)
  simp only [roundHalfEven]
  split
  · exact hfloor
  · split
    · omega
    · split <;> omega

theorem roundHalfEven_nonpos {q : Rat} (h : q ≤ 0) : roundHalfEven q ≤ 0 := by
  have hfloor : q.floor ≤ 0 := Rat.floor_monotone h
  by_cases hzero : q.floor = 0
  · -- Nothing is left above the floor, so it is not rounded up.
    have hfraction : q - q.floor < 1 / 2 := by
      rw [hzero]
      grind
    simp only [roundHalfEven, if_pos hfraction]
    exact hfloor
  · simp only [roundHalfEven]
    split
    · exact hfloor
    · split
      · omega
      · split <;> omega

namespace Format

variable {f : Format} {q : Rat}

/-- Rounding keeps the sign, as zero is a number of every format. -/
theorem round_nonneg (h : 0 ≤ q) : 0 ≤ f.round q := by
  simp only [round]
  split
  · exact Rat.le_refl
  · have hquantum : 0 < (2 : Rat) ^ f.quantumExponent q := Rat.zpow_pos (by decide)
    apply Rat.mul_nonneg _ (Rat.le_of_lt hquantum)
    apply Rat.intCast_nonneg.2
    apply roundHalfEven_nonneg
    rw [Rat.div_def]
    exact Rat.mul_nonneg h (Rat.le_of_lt (Rat.inv_pos.2 hquantum))

theorem round_nonpos (h : q ≤ 0) : f.round q ≤ 0 := by
  have hmul {a b : Rat} (ha : a ≤ 0) (hb : 0 < b) : a * b ≤ 0 := by
    simpa using Rat.mul_le_mul_of_nonneg_right ha (Rat.le_of_lt hb)
  simp only [round]
  split
  · exact Rat.le_refl
  · have hquantum : 0 < (2 : Rat) ^ f.quantumExponent q := Rat.zpow_pos (by decide)
    apply hmul _ hquantum
    apply Rat.intCast_nonpos.2
    apply roundHalfEven_nonpos
    rw [Rat.div_def]
    exact hmul h (Rat.inv_pos.2 hquantum)

theorem pos_of_round_pos (h : 0 < f.round q) : 0 < q :=
  Rat.not_le.1 fun hnonpos => Rat.not_le.2 h (round_nonpos hnonpos)

end Format

/-- What is above a scalar that is not negative is positive. -/
theorem Scalar.pos_of_lt {x : Scalar} {q : Rat} (hx : 0 ≤ x) (h : x < (q : Scalar)) : 0 < q := by
  cases x with
  | nan => cases h
  | negInfinity => cases hx
  | posInfinity => cases h
  | negZero => exact of_decide_eq_true h
  | finite value =>
    have hvalue : 0 ≤ value := of_decide_eq_true hx
    have hless : value < q := of_decide_eq_true h
    grind

end ScoreOverlay.Binary
