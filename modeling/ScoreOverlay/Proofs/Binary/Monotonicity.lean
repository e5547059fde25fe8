import ScoreOverlay.Proofs.Binary.Accuracy

namespace ScoreOverlay.Binary

/-- The power of two that is found is the last one that does not lie above the number. -/
theorem lt_two_zpow_floorLog2_add_one {q : Rat} (h : 0 < q) :
    q < (2 : Rat) ^ (floorLog2 q + 1) := by
  have hnum := Rat.num_pos.2 h
  have hhigh : (q.num : Rat) < 2 ^ ((q.num.natAbs.log2 : Int) + 1) := by
    have hpower : q.num < (2 ^ (q.num.natAbs.log2 + 1) : Nat) := by
      have := Nat.lt_log2_self (n := q.num.natAbs)
      omega
    rw [← Nat.cast_succ, zpow_natCast]
    exact_mod_cast hpower
  have hlow : (2 : Rat) ^ (q.den.log2 : Int) ≤ q.den := by
    rw [zpow_natCast]
    exact_mod_cast Nat.log2_self_le q.den_ne_zero
  have hquotient : q < 2 ^ ((q.num.natAbs.log2 : Int) - q.den.log2 + 1) :=
    calc q = q.num / q.den := (Rat.num_div_den q).symm
      _ < 2 ^ ((q.num.natAbs.log2 : Int) + 1) / 2 ^ (q.den.log2 : Int) := by gcongr
      _ = 2 ^ ((q.num.natAbs.log2 : Int) - q.den.log2 + 1) := by
        rw [← zpow_sub₀ two_ne_zero, add_sub_right_comm]
  unfold floorLog2
  dsimp only
  split
  · rwa [sub_add_cancel]
  · exact hquotient

theorem floorLog2_le_floorLog2 {q r : Rat} (hq : 0 < q) (h : q ≤ r) :
    floorLog2 q ≤ floorLog2 r := by
  have hpower : (2 : Rat) ^ floorLog2 q < 2 ^ (floorLog2 r + 1) :=
    (two_zpow_floorLog2_le hq).trans_lt
      (h.trans_lt (lt_two_zpow_floorLog2_add_one (hq.trans_le h)))
  have := (zpow_lt_zpow_iff_right₀ one_lt_two).1 hpower
  omega

theorem floor_le_roundHalfEven (q : Rat) : q.floor ≤ roundHalfEven q := by
  unfold roundHalfEven
  dsimp only
  split_ifs <;> omega

/-- A number that does not lie above an integer is not rounded to one above it. -/
theorem roundHalfEven_le_of_le {q : Rat} {n : Int} (h : q ≤ n) : roundHalfEven q ≤ n := by
  have hfloor : q.floor ≤ n := by exact_mod_cast (Rat.floor_le q).trans h
  rcases hfloor.lt_or_eq with hlt | heq
  · unfold roundHalfEven
    dsimp only
    split_ifs <;> omega
  · have hfraction : q - q.floor < 1 / 2 := by
      rw [heq]
      linarith
    simp only [roundHalfEven, if_pos hfraction]
    exact hfloor

theorem le_roundHalfEven_of_le {q : Rat} {n : Int} (h : (n : Rat) ≤ q) : n ≤ roundHalfEven q :=
  (Rat.le_floor_iff.2 h).trans (floor_le_roundHalfEven q)

theorem roundHalfEven_mono {q r : Rat} (h : q ≤ r) : roundHalfEven q ≤ roundHalfEven r := by
  rcases (Rat.floor_monotone h).lt_or_eq with hlt | heq
  · have hceil : q ≤ (q.floor + 1 : Int) := (Rat.lt_floor_add_one q).le
    have := roundHalfEven_le_of_le hceil
    have := floor_le_roundHalfEven r
    omega
  · -- Above the same integer the fractions decide, and at one half the same parity.
    simp only [roundHalfEven, heq]
    grind

namespace Format

variable {f : Format} {q r : Rat}

theorem quantumExponent_le_quantumExponent (hq : 0 < q) (h : q ≤ r) :
    f.quantumExponent q ≤ f.quantumExponent r := by
  have hlog := floorLog2_le_floorLog2 hq h
  unfold quantumExponent
  rw [abs_eq_abs, abs_eq_abs, abs_of_pos hq, abs_of_pos (hq.trans_le h)]
  omega

/-- Powers of two that are multiples of the spacing around a number. -/
private theorem two_zpow_eq {k e : Int} (h : e ≤ k) :
    (2 : Rat) ^ k = ((2 ^ (k - e).toNat : Nat) : Int) * 2 ^ e := by
  have hsplit : k = ((k - e).toNat : Int) + e := by omega
  conv_lhs => rw [hsplit, zpow_add₀ two_ne_zero, zpow_natCast]
  push_cast
  rfl

/-- Rounding does not cross a power of two that is a multiple of the spacing. -/
theorem round_le_two_zpow {k : Int} (hk : f.quantumExponent q ≤ k) (h : q ≤ 2 ^ k) :
    f.round q ≤ 2 ^ k := by
  have hquantum : (0 : Rat) < 2 ^ f.quantumExponent q := by positivity
  by_cases hzero : q = 0
  · rw [hzero, round, if_pos rfl]
    positivity
  · rw [two_zpow_eq hk] at h ⊢
    simp only [round, if_neg hzero]
    have hscaled := roundHalfEven_le_of_le ((div_le_iff₀ hquantum).2 h)
    gcongr

theorem two_zpow_le_round {k : Int} (hk : f.quantumExponent q ≤ k) (h : 2 ^ k ≤ q) :
    2 ^ k ≤ f.round q := by
  have hquantum : (0 : Rat) < 2 ^ f.quantumExponent q := by positivity
  have hpower : (0 : Rat) < 2 ^ k := by positivity
  have hzero : q ≠ 0 := (hpower.trans_le h).ne'
  rw [two_zpow_eq hk] at h ⊢
  simp only [round, if_neg hzero]
  have hscaled := le_roundHalfEven_of_le ((le_div_iff₀ hquantum).2 h)
  gcongr

/-- Rounding keeps the order of numbers that are not negative. -/
theorem round_le_round (hprecision : 0 < f.precision) (hq : 0 ≤ q) (h : q ≤ r) :
    f.round q ≤ f.round r := by
  rcases hq.eq_or_lt with rfl | hq
  · rw [round, if_pos rfl]
    exact round_nonneg h
  have hr := hq.trans_le h
  rcases (quantumExponent_le_quantumExponent (f := f) hq h).lt_or_eq with hlt | heq
  · -- The first power of two above the numbers with the spacing of `q` lies between the two.
    have hlow : q ≤ 2 ^ (f.quantumExponent q + f.precision) := by
      refine (lt_two_zpow_floorLog2_add_one hq).le.trans (zpow_le_zpow_right₀ one_le_two ?_)
      unfold quantumExponent
      rw [abs_eq_abs, abs_of_pos hq]
      omega
    have hhigh : 2 ^ (f.quantumExponent r + f.precision - 1) ≤ r := by
      refine (zpow_le_zpow_right₀ one_le_two ?_).trans (two_zpow_floorLog2_le hr)
      have hleast : f.minExponent ≤ f.quantumExponent q := le_max_right _ _
      revert hlt
      unfold quantumExponent
      rw [abs_eq_abs r, abs_of_pos hr]
      omega
    calc f.round q ≤ 2 ^ (f.quantumExponent q + f.precision) :=
          round_le_two_zpow (by omega) hlow
      _ ≤ 2 ^ (f.quantumExponent r + f.precision - 1) :=
          zpow_le_zpow_right₀ one_le_two (by omega)
      _ ≤ f.round r := two_zpow_le_round (by omega) hhigh
  · simp only [round, if_neg hq.ne', if_neg hr.ne', heq]
    have hscaled := roundHalfEven_mono (div_le_div_of_nonneg_right h
      (zpow_nonneg zero_le_two (f.quantumExponent r)))
    gcongr

end Format

end ScoreOverlay.Binary
