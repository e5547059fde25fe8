import ScoreOverlay.Proofs.Geometry.Hull

namespace ScoreOverlay.Rect

theorem sharedArea_inBounds (r s : Rect) : InBounds (r.sharedArea s) := by
  refine (right_inBounds r).bind fun _ _ => (right_inBounds s).bind fun _ _ => ?_
  refine (Coordinate.sub_inBounds _ _).bind fun _ _ => ?_
  refine (bottom_inBounds r).bind fun _ _ => (bottom_inBounds s).bind fun _ _ => ?_
  exact (Coordinate.sub_inBounds _ _).bind fun _ _ => InBounds.pure _

theorem overlaps_inBounds (r s : Rect) (threshold : Binary.Scalar) :
    InBounds (r.overlaps s threshold) := by
  refine (sharedArea_inBounds r s).bind fun _ _ => ?_
  exact InBounds.ite (fun _ => InBounds.pure _) fun _ => InBounds.pure _

/-- The shared area does not depend on which rectangle comes first, and neither does the fault
    if there is one. -/
theorem sharedArea_comm (r s : Rect) : r.sharedArea s = s.sharedArea r := by
  unfold sharedArea right bottom
  rw [Coordinate.add_bind_comm r.x]
  refine congrArg _ (funext fun right' => congrArg _ (funext fun right => ?_))
  rw [Int.min_comm, Int.max_comm]
  refine congrArg _ (funext fun width => ?_)
  rw [Coordinate.add_bind_comm r.y]
  refine congrArg _ (funext fun bottom' => congrArg _ (funext fun bottom => ?_))
  rw [Int.min_comm, Int.max_comm]

theorem overlaps_comm (r s : Rect) (threshold : Binary.Scalar) :
    r.overlaps s threshold = s.overlaps r threshold := by
  unfold overlaps
  rw [sharedArea_comm r s]
  refine congrArg _ (funext fun shared => ?_)
  simp only [List.any_cons, List.any_nil, Bool.or_false]
  rw [Bool.or_comm]

/-- Only rectangles that have pixels overlap. -/
theorem pos_of_overlaps {r s : Rect} {threshold : Binary.Scalar}
    (h : r.overlaps s threshold = .ok true) : 0 < r.width ∧ 0 < r.height := by
  obtain ⟨shared, hshared, h⟩ := bind_eq_ok_iff.1 h
  have hne : shared ≠ 0 := by
    rintro rfl
    cases h
  simp only [sharedArea, bind_eq_ok_iff] at hshared
  obtain ⟨right, hright, right', hright', width, hw, bottom, hbottom, bottom', hbottom', height, hh,
    hshared⟩ := hshared
  have := Coordinate.eq_of_add_eq_ok hright
  have := Coordinate.eq_of_sub_eq_ok hw
  have := Coordinate.eq_of_add_eq_ok hbottom
  have := Coordinate.eq_of_sub_eq_ok hh
  have hpos : 0 < width ∧ 0 < height := by
    by_contra hnot
    rw [if_neg hnot] at hshared
    cases hshared
    exact hne rfl
  omega

end ScoreOverlay.Rect
