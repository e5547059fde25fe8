import Mathlib.Order.Fin.Basic
import ScoreOverlay.Image.Levels
import ScoreOverlay.Proofs.Binary.Accuracy

namespace ScoreOverlay

variable {kind : PixelKind}

namespace PixelKind

/-- Rounding a number near a small one gives another one near that. -/
private theorem abs_round_sub_le_of_near {z w error : Rat} (hw : |w| ≤ 2) (herror : error ≤ 1)
    (h : |z - w| ≤ error) : |Binary.binary32.round z - w| ≤ error + 1 / 2 ^ 22 := by
  have hz : |z| ≤ 3 := by
    have := abs_sub_abs_le_abs_sub z w
    linarith
  have hround := Binary.abs_binary32_round_sub_le z
  have hsum := abs_sub_le (Binary.binary32.round z) z w
  linarith

theorem greatest_bounds (kind : PixelKind) : 255 ≤ kind.greatest ∧ kind.greatest ≤ 65535 := by
  cases kind <;> decide

/-- The exact part lies between zero and one. -/
theorem exactPart_bounds (value : kind.Channel) :
    0 ≤ (value.val / kind.greatest : Rat) ∧ (value.val / kind.greatest : Rat) ≤ 1 := by
  have hvalue : (value.val : Rat) ≤ kind.greatest := by exact_mod_cast Nat.lt_succ_iff.1 value.isLt
  exact ⟨by positivity, div_le_one_of_le₀ hvalue (by positivity)⟩

theorem abs_part_sub_le (value : kind.Channel) :
    |kind.part value - value.val / kind.greatest| ≤ 1 / 2 ^ 21 := by
  obtain ⟨hnonneg, hle⟩ := exactPart_bounds value
  have hpart : |(value.val / kind.greatest : Rat)| ≤ 2 := by
    rw [abs_of_nonneg hnonneg]
    linarith
  unfold part
  dsimp only
  split
  · -- The error of the inverse grows with the value it is multiplied by, which is at most its
    -- denominator.
    have hgreatest : (value.val : Rat) ≤ 65535 := by
      have := kind.greatest_bounds
      have := value.isLt
      exact_mod_cast (by omega : value.val ≤ 65535)
    have hinverse : |value.val * Binary.binary32.round (1 / kind.greatest) -
        value.val / kind.greatest| ≤ (1 / 2 ^ 23 : Rat) := by
      have hround := Binary.abs_binary32_round_sub_le (1 / kind.greatest)
      rw [abs_of_nonneg (by positivity : (0 : Rat) ≤ 1 / kind.greatest)] at hround
      calc |value.val * Binary.binary32.round (1 / kind.greatest) - value.val / kind.greatest|
          = value.val * |Binary.binary32.round (1 / kind.greatest) - 1 / kind.greatest| := by
            rw [div_eq_mul_one_div (value.val : Rat), ← mul_sub, abs_mul,
              abs_of_nonneg (by positivity : (0 : Rat) ≤ value.val)]
        _ ≤ value.val * (1 / kind.greatest / 2 ^ 24 + 1 / 2 ^ 100) := by gcongr
        _ = value.val / kind.greatest / 2 ^ 24 + value.val / 2 ^ 100 := by ring
        _ ≤ 1 / 2 ^ 23 := by linarith
    have := abs_round_sub_le_of_near hpart (by norm_num) hinverse
    linarith
  · have hexact : |(value.val / kind.greatest - value.val / kind.greatest : Rat)| ≤ 0 := by simp
    have := abs_round_sub_le_of_near hpart zero_le_one hexact
    linarith

/-- Rounding moves a level by much less than the distance of two levels. -/
theorem abs_level_sub_le (value : kind.Channel) :
    |kind.level value - (2 * (value.val / kind.greatest) - 1)| ≤ 1 / 2 ^ 19 := by
  obtain ⟨hnonneg, hle⟩ := exactPart_bounds value
  have hpart := abs_part_sub_le value
  have htwice : |Binary.binary32.round (kind.part value * 2) - 2 * (value.val / kind.greatest)| ≤
      1 / 2 ^ 20 + 1 / 2 ^ 22 := by
    refine abs_round_sub_le_of_near ?_ (by norm_num) ?_
    · rw [abs_of_nonneg (by linarith)]
      linarith
    · rw [mul_comm, ← mul_sub, abs_mul, abs_two]
      linarith
  have hlevel : |kind.level value - (2 * (value.val / kind.greatest) - 1)| ≤
      1 / 2 ^ 20 + 1 / 2 ^ 22 + 1 / 2 ^ 22 := by
    refine abs_round_sub_le_of_near ?_ (by norm_num) ?_
    · rw [abs_le]
      constructor <;> linarith
    · rwa [sub_sub_sub_cancel_right]
  linarith

/-- Levels are ordered like channel values, so no two values are mixed up. -/
theorem level_strictMono (kind : PixelKind) : StrictMono kind.level := by
  intro value value' hlt
  obtain ⟨hleast, hgreatest⟩ := kind.greatest_bounds
  have hpos : (0 : Rat) < kind.greatest := by exact_mod_cast (by omega : 0 < kind.greatest)
  have hstep : (value.val / kind.greatest : Rat) + 1 / 65535 ≤ value'.val / kind.greatest := by
    have hvalues : (value.val : Rat) + 1 ≤ value'.val := by exact_mod_cast hlt
    have hspacing : (1 / 65535 : Rat) ≤ 1 / kind.greatest := by
      refine one_div_le_one_div_of_le hpos ?_
      exact_mod_cast hgreatest
    calc (value.val / kind.greatest : Rat) + 1 / 65535
        ≤ value.val / kind.greatest + 1 / kind.greatest := by gcongr
      _ = (value.val + 1) / kind.greatest := by rw [add_div]
      _ ≤ value'.val / kind.greatest := by gcongr
  have hlow := abs_le.1 (abs_level_sub_le value)
  have hhigh := abs_le.1 (abs_level_sub_le value')
  linarith

theorem level_zero (kind : PixelKind) : kind.level 0 = -1 := by
  cases kind <;> decide +kernel

theorem level_last (kind : PixelKind) : kind.level (Fin.last kind.greatest) = 1 := by
  cases kind <;> decide +kernel

theorem level_bounds (value : kind.Channel) : -1 ≤ kind.level value ∧ kind.level value ≤ 1 := by
  rw [← kind.level_zero, ← kind.level_last]
  exact ⟨kind.level_strictMono.monotone (Fin.zero_le value),
    kind.level_strictMono.monotone (Fin.le_last value)⟩

theorem exists_carrier (channel : Fin kind.colours) : ∃ colour, kind.carrier colour = channel := by
  revert channel
  cases kind <;> decide

end PixelKind

/-- Every channel that has colour carries one of the three. -/
theorem Pixel.level_eq_iff {p q : Pixel kind} :
    (∀ colour, p.level colour = q.level colour) ↔ p.colour = q.colour := by
  constructor
  · intro h
    refine Vector.ext fun channel hchannel => ?_
    obtain ⟨colour, hcolour⟩ := PixelKind.exists_carrier ⟨channel, hchannel⟩
    have hlevel := kind.level_strictMono.injective (h colour)
    simpa [hcolour] using hlevel
  · intro h colour
    rw [level, level, h]

namespace Image

@[simp] theorem get_levels (image : Image kind) (colour : Fin 3) (y : Fin image.height)
    (x : Fin image.width) :
    ((image.levels.get colour).get y).get x = (image.pixel x y).level colour := by
  change image.levels[colour.val][y.val][x.val] = _
  simp [levels]

/-- All levels lie between minus one and one. -/
theorem levels_bounds (image : Image kind) (colour : Fin 3) (y : Fin image.height)
    (x : Fin image.width) :
    -1 ≤ ((image.levels.get colour).get y).get x ∧ ((image.levels.get colour).get y).get x ≤ 1 := by
  rw [get_levels]
  exact PixelKind.level_bounds _

/-- The levels tell pictures of one size apart exactly if these differ in a colour. -/
theorem levels_eq_iff {width height : Nat}
    {rows rows' : Vector (Vector (Pixel kind) width) height} :
    (⟨width, height, rows⟩ : Image kind).levels = (⟨width, height, rows'⟩ : Image kind).levels ↔
      ∀ (y : Fin height) (x : Fin width), rows[y][x].colour = rows'[y][x].colour := by
  constructor
  · intro h y x
    refine Pixel.level_eq_iff.1 fun colour => ?_
    have hlevel := get_levels ⟨width, height, rows⟩ colour y x
    rw [h, get_levels] at hlevel
    exact hlevel.symm
  · intro h
    refine Vector.ext fun colour hcolour => Vector.ext fun y hy => Vector.ext fun x hx => ?_
    have hlevel := get_levels ⟨width, height, rows⟩ ⟨colour, hcolour⟩ ⟨y, hy⟩ ⟨x, hx⟩
    have hlevel' := get_levels ⟨width, height, rows'⟩ ⟨colour, hcolour⟩ ⟨y, hy⟩ ⟨x, hx⟩
    exact hlevel.trans ((Pixel.level_eq_iff.2 (h ⟨y, hy⟩ ⟨x, hx⟩) _).trans hlevel'.symm)

end Image

end ScoreOverlay
