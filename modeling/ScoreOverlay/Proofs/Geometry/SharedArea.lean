import Mathlib.Data.Finset.Prod
import ScoreOverlay.Proofs.Binary.Monotonicity
import ScoreOverlay.Proofs.Binary.Order
import ScoreOverlay.Proofs.Checked.Overflow
import ScoreOverlay.Proofs.Geometry.Containment
import ScoreOverlay.Proofs.Geometry.Overlap

namespace ScoreOverlay

/-- The point that lies so many columns and rows after another one. -/
def Point.after (p : Point) (steps : Nat × Nat) : Point := ⟨p.x + steps.1, p.y + steps.2⟩

theorem Point.after_injective (p : Point) : Function.Injective p.after := by
  intro steps steps' h
  simp only [after, mk.injEq] at h
  exact Prod.ext (by omega) (by omega)

namespace Rect

/-- The pixels that the rectangle covers. -/
def pixels (r : Rect) : Finset Point :=
  (Finset.range r.width.toNat ×ˢ Finset.range r.height.toNat).map
    ⟨Point.after ⟨r.x, r.y⟩, Point.after_injective _⟩

@[simp] theorem mem_pixels {r : Rect} {p : Point} : p ∈ r.pixels ↔ r.Covers p := by
  simp only [pixels, Finset.mem_map, Function.Embedding.coeFn_mk, Finset.mem_product,
    Finset.mem_range, Point.after, Covers]
  constructor
  · rintro ⟨steps, hsteps, rfl⟩
    dsimp only
    omega
  · rintro ⟨hleft, hright, htop, hbottom⟩
    refine ⟨((p.x - r.x).toNat, (p.y - r.y).toNat), by dsimp only; omega, ?_⟩
    have hx : r.x + (p.x - r.x).toNat = p.x := by omega
    have hy : r.y + (p.y - r.y).toNat = p.y := by omega
    rw [hx, hy]

theorem card_pixels (r : Rect) : r.pixels.card = r.width.toNat * r.height.toNat := by
  rw [pixels, Finset.card_map, Finset.card_product, Finset.card_range, Finset.card_range]

theorem IsProper.area_eq_card {r : Rect} (h : r.IsProper) : r.area = r.pixels.card := by
  rw [card_pixels, Int.natCast_mul, Int.toNat_of_nonneg h.width, Int.toNat_of_nonneg h.height, area]

/-- The columns and rows that both rectangles have. A side is negative where they are apart. -/
def meet (r s : Rect) : Rect where
  x := max r.x s.x
  y := max r.y s.y
  width := min (r.x + r.width) (s.x + s.width) - max r.x s.x
  height := min (r.y + r.height) (s.y + s.height) - max r.y s.y

theorem pixels_meet (r s : Rect) : (r.meet s).pixels = r.pixels ∩ s.pixels := by
  ext p
  simp only [Finset.mem_inter, mem_pixels, Covers, meet]
  omega

theorem sharedArea_eq_card {r s : Rect} {shared : Int} (h : r.sharedArea s = .ok shared) :
    shared = (r.pixels ∩ s.pixels).card := by
  simp only [sharedArea, bind_eq_ok_iff] at h
  obtain ⟨right, hright, right', hright', width, hw, bottom, hbottom, bottom', hbottom', height, hh,
    hshared⟩ := h
  have hwidth : (r.meet s).width = width := by
    rw [Coordinate.eq_of_sub_eq_ok hw, Coordinate.eq_of_add_eq_ok hright,
      Coordinate.eq_of_add_eq_ok hright', meet]
  have hheight : (r.meet s).height = height := by
    rw [Coordinate.eq_of_sub_eq_ok hh, Coordinate.eq_of_add_eq_ok hbottom,
      Coordinate.eq_of_add_eq_ok hbottom', meet]
  rw [← pixels_meet, card_pixels, hwidth, hheight]
  split at hshared
  · cases hshared
    rw [Int.natCast_mul, Int.toNat_of_nonneg (by omega), Int.toNat_of_nonneg (by omega)]
  · cases hshared
    rcases not_and_or.1 ‹_› with hempty | hempty
    · rw [Int.toNat_of_nonpos (by omega), Nat.zero_mul]
      rfl
    · rw [Int.toNat_of_nonpos (by omega : height ≤ 0), Nat.mul_zero]
      rfl

/-- Rectangles share no more pixels than each of them has. -/
theorem sharedArea_le_area {r s : Rect} {shared : Int} (hr : r.IsProper)
    (h : r.sharedArea s = .ok shared) : shared ≤ r.area := by
  rw [sharedArea_eq_card h, hr.area_eq_card]
  exact_mod_cast Finset.card_le_card Finset.inter_subset_left

/-- A rectangle shares all of its pixels with one that it lies in. -/
theorem sharedArea_eq_area_of_isWithin {r s : Rect} {shared : Int} (hwithin : r.IsWithin s)
    (h : r.sharedArea s = .ok shared) : shared = r.area := by
  have hsubset : r.pixels ⊆ s.pixels := by
    intro p hp
    have := hwithin.left
    have := hwithin.top
    have := hwithin.right
    have := hwithin.bottom
    simp only [mem_pixels, Covers] at hp ⊢
    omega
  rw [sharedArea_eq_card h, IsProper.area_eq_card ⟨hwithin.width, hwithin.height⟩,
    Finset.inter_eq_left.2 hsubset]

private theorem round_one : Binary.binary64.round 1 = 1 := by decide +kernel

/-- A part is not rounded to more than the whole. -/
theorem coverage_le_one {shared area : Int} (hnonneg : 0 ≤ shared) (hle : shared ≤ area) :
    coverage shared area ≤ 1 := by
  have hshared : (0 : Rat) ≤ shared := by exact_mod_cast hnonneg
  have hround : 0 ≤ Binary.binary64.round shared := Binary.Format.round_nonneg hshared
  have hparts : Binary.binary64.round shared ≤ Binary.binary64.round area :=
    Binary.Format.round_le_round (by decide) hshared (by exact_mod_cast hle)
  calc coverage shared area ≤ Binary.binary64.round 1 :=
        Binary.Format.round_le_round (by decide) (div_nonneg hround (hround.trans hparts))
          (div_le_one_of_le₀ hparts (hround.trans hparts))
    _ = 1 := round_one

theorem coverage_self {area : Int} (h : 0 < area) : coverage area area = 1 := by
  have hround : Binary.binary64.round 1 ≤ Binary.binary64.round area :=
    Binary.Format.round_le_round (by decide) zero_le_one (by exact_mod_cast h)
  rw [round_one] at hround
  rw [coverage, div_self (zero_lt_one.trans_le hround).ne', round_one]

theorem overlaps_eq {r s : Rect} {shared : Int} (h : r.sharedArea s = .ok shared)
    (threshold : Binary.Scalar) :
    r.overlaps s threshold = .ok (decide (shared ≠ 0 ∧
      ∃ area ∈ [r.area, s.area], 0 < area ∧ threshold < (coverage shared area : Rat))) := by
  rw [overlaps, h, ok_bind]
  by_cases hzero : shared = 0
  · simp [hzero]
  · simp [hzero]

/-- The shared area is at most a whole of each rectangle, which is not above a threshold of one. -/
theorem overlaps_eq_false {r s : Rect} {threshold : Binary.Scalar} (hr : r.IsProper)
    (hs : s.IsProper) {shared : Int} (h : r.sharedArea s = .ok shared)
    (hthreshold : 1 ≤ threshold) : r.overlaps s threshold = .ok false := by
  have hswapped : s.sharedArea r = .ok shared := by rw [sharedArea_comm, h]
  have hnonneg : 0 ≤ shared := by
    rw [sharedArea_eq_card h]
    exact Int.natCast_nonneg _
  have hle : ∀ area ∈ [r.area, s.area], shared ≤ area :=
    List.forall_mem_cons.2 ⟨sharedArea_le_area hr h,
      List.forall_mem_singleton.2 (sharedArea_le_area hs hswapped)⟩
  rw [overlaps_eq h, decide_eq_false]
  rintro ⟨-, area, harea, -, hlt⟩
  have hone : Binary.Scalar.finite (coverage shared area) ≤ 1 :=
    Binary.Scalar.coe_le_coe.2 (coverage_le_one hnonneg (hle area harea))
  exact Binary.Scalar.not_lt_of_le hthreshold (Binary.Scalar.lt_of_lt_of_le hlt hone)

/-- A rectangle with pixels overlaps one that it lies in, as all of it is shared. -/
theorem overlaps_eq_true_of_isWithin {r s : Rect} {threshold : Binary.Scalar}
    (hne : ¬ r.IsEmpty) (hwithin : r.IsWithin s) {shared : Int} (h : r.sharedArea s = .ok shared)
    (hthreshold : threshold < 1) : r.overlaps s threshold = .ok true := by
  obtain ⟨hwidth, hheight⟩ := not_isEmpty_iff.1 hne
  have harea : 0 < r.area := Int.mul_pos hwidth hheight
  have hshared := sharedArea_eq_area_of_isWithin hwithin h
  have hcoverage : coverage shared r.area = 1 := by rw [hshared, coverage_self harea]
  rw [overlaps_eq h, decide_eq_true]
  exact ⟨by omega, r.area, List.mem_cons_self, harea, by rwa [hcoverage]⟩

/-- The shared area of two rectangles without negative sides counts the pixels that both cover, and
    is at most the smaller area. Neither it nor overlapping depends on the order of the two. Nothing
    overlaps from a threshold of one on, and below it two rectangles with pixels do if one lies in
    the other. -/
theorem sharedArea_counts {r s : Rect} (hr : r.IsProper) (hs : s.IsProper)
    (hfits : NoOverflow (r.sharedArea s)) :
    ∃ shared : Int, r.sharedArea s = .ok shared ∧ s.sharedArea r = .ok shared ∧
      shared = (r.pixels ∩ s.pixels).card ∧ shared ≤ min r.area s.area ∧
      ∀ threshold : Binary.Scalar,
        (∃ answer, r.overlaps s threshold = .ok answer ∧ s.overlaps r threshold = .ok answer) ∧
        (1 ≤ threshold → r.overlaps s threshold = .ok false) ∧
        (threshold < 1 → ¬ r.IsEmpty → ¬ s.IsEmpty → r.IsWithin s ∨ s.IsWithin r →
          r.overlaps s threshold = .ok true) := by
  obtain ⟨shared, hshared⟩ := (sharedArea_inBounds r s).exists_ok hfits
  have hswapped : s.sharedArea r = .ok shared := by rw [sharedArea_comm, hshared]
  refine ⟨shared, hshared, hswapped, sharedArea_eq_card hshared,
    le_min (sharedArea_le_area hr hshared) (sharedArea_le_area hs hswapped),
    fun threshold => ⟨?_, ?_, ?_⟩⟩
  · exact ⟨_, overlaps_eq hshared threshold, by rw [overlaps_comm, overlaps_eq hshared threshold]⟩
  · exact overlaps_eq_false hr hs hshared
  · rintro hthreshold hrne hsne (hwithin | hwithin)
    · exact overlaps_eq_true_of_isWithin hrne hwithin hshared hthreshold
    · rw [overlaps_comm]
      exact overlaps_eq_true_of_isWithin hsne hwithin hswapped hthreshold

/-- A rectangle of 60 pixels inside one of 400. -/
theorem sharedArea_counts_inner :
    sharedArea ⟨2, 3, 10, 6⟩ ⟨0, 0, 20, 20⟩ = .ok 60 ∧
      (pixels ⟨2, 3, 10, 6⟩ ∩ pixels ⟨0, 0, 20, 20⟩).card = 60 ∧
      overlaps ⟨2, 3, 10, 6⟩ ⟨0, 0, 20, 20⟩ (.finite (mkRat 99 100)) = .ok true ∧
      overlaps ⟨2, 3, 10, 6⟩ ⟨0, 0, 20, 20⟩ 1 = .ok false := by
  have hshared : sharedArea ⟨2, 3, 10, 6⟩ ⟨0, 0, 20, 20⟩ = .ok 60 := by decide
  obtain ⟨shared, h, -, hcard, -, hoverlaps⟩ :=
    sharedArea_counts ⟨by decide, by decide⟩ ⟨by decide, by decide⟩ (NoOverflow.of_ok hshared)
  rw [hshared] at h
  cases h
  refine ⟨hshared, by exact_mod_cast hcard.symm, ?_, (hoverlaps 1).2.1 (by decide)⟩
  exact (hoverlaps _).2.2 (by decide +kernel) (by decide) (by decide) (.inl (by decide))

end Rect

end ScoreOverlay
