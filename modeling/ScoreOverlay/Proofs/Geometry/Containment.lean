import ScoreOverlay.Proofs.Geometry.Extent
import ScoreOverlay.Proofs.Geometry.Hull

namespace ScoreOverlay

/-- No side of the rectangle is negative. It may be without pixels. -/
structure Rect.IsProper (r : Rect) : Prop where
  width : 0 ≤ r.width
  height : 0 ≤ r.height

/-- The rectangle lies in an area with all of its corners, also if it has no pixels. Its sizes are
    not negative. -/
structure Rect.IsWithin (r area : Rect) : Prop where
  width : 0 ≤ r.width
  height : 0 ≤ r.height
  left : area.x ≤ r.x
  top : area.y ≤ r.y
  right : r.x + r.width ≤ area.x + area.width
  bottom : r.y + r.height ≤ area.y + area.height

instance (r area : Rect) : Decidable (r.IsWithin area) :=
  decidable_of_iff
    ((0 ≤ r.width ∧ 0 ≤ r.height) ∧ (area.x ≤ r.x ∧ area.y ≤ r.y) ∧
      r.x + r.width ≤ area.x + area.width ∧ r.y + r.height ≤ area.y + area.height)
    ⟨fun ⟨⟨width, height⟩, ⟨left, top⟩, right, bottom⟩ => ⟨width, height, left, top, right, bottom⟩,
      fun h => ⟨⟨h.width, h.height⟩, ⟨h.left, h.top⟩, h.right, h.bottom⟩⟩

/-- The pixels of a picture with this frame. -/
def Frame.area (frame : Frame) : Rect := ⟨0, 0, frame.width, frame.height⟩

namespace Rect

theorem isWithin_frame_iff {r : Rect} {frame : Frame} :
    r.IsWithin frame.area ↔
      0 ≤ r.width ∧ 0 ≤ r.height ∧ 0 ≤ r.x ∧ 0 ≤ r.y ∧ r.x + r.width ≤ frame.width ∧
        r.y + r.height ≤ frame.height := by
  rw [← Int.zero_add frame.width, ← Int.zero_add frame.height]
  exact ⟨fun ⟨hwidth, hheight, hleft, htop, hright, hbottom⟩ =>
      ⟨hwidth, hheight, hleft, htop, hright, hbottom⟩,
    fun ⟨hwidth, hheight, hleft, htop, hright, hbottom⟩ =>
      ⟨hwidth, hheight, hleft, htop, hright, hbottom⟩⟩

theorem not_isEmpty_iff {r : Rect} : ¬ r.IsEmpty ↔ 0 < r.width ∧ 0 < r.height := by
  unfold IsEmpty
  omega

/-- The extent of points in an area lies in that area and has pixels. -/
theorem IsExtentOf.isWithin {r area : Rect} {points : List Point} (h : r.IsExtentOf points)
    (hpoints : ∀ p ∈ points, area.Covers p) : r.IsWithin area ∧ ¬ r.IsEmpty := by
  obtain ⟨⟨⟨left, hleft, hx⟩, top, htop, hy⟩, ⟨right, hright, hx'⟩, bottom, hbottom, hy'⟩ :=
    h.exists_on_sides
  have hcovers := h.covers hleft
  have hcovers' := h.covers htop
  have hleft := hpoints left hleft
  have htop := hpoints top htop
  have hright := hpoints right hright
  have hbottom := hpoints bottom hbottom
  unfold Covers at hcovers hcovers' hleft htop hright hbottom
  rw [not_isEmpty_iff]
  refine ⟨⟨?_, ?_, ?_, ?_, ?_, ?_⟩, ?_, ?_⟩ <;> omega

/-- The hull of rectangles in an area lies in that area. -/
theorem IsHullOf.isWithin {hull area : Rect} {rects : List Rect} (h : hull.IsHullOf rects)
    (hrects : ∀ r ∈ rects, r.IsWithin area) : hull.IsWithin area := by
  obtain ⟨left, hleft, hx⟩ := List.mem_map.1 (List.min?_eq_some_iff.1 h.left).1
  obtain ⟨top, htop, hy⟩ := List.mem_map.1 (List.min?_eq_some_iff.1 h.top).1
  obtain ⟨right, hright, hx'⟩ := List.mem_map.1 (List.max?_eq_some_iff.1 h.right).1
  obtain ⟨bottom, hbottom, hy'⟩ := List.mem_map.1 (List.max?_eq_some_iff.1 h.bottom).1
  have hsides := h.surrounds hleft
  have hsides' := h.surrounds htop
  obtain ⟨hwidth, -, hleft, -, -, -⟩ := hrects left hleft
  obtain ⟨-, hheight, -, htop, -, -⟩ := hrects top htop
  have hright := (hrects right hright).right
  have hbottom := (hrects bottom hbottom).bottom
  constructor <;> omega

theorem union_isWithin {r s u area : Rect} (hr : r.IsWithin area) (hs : s.IsWithin area)
    (h : r.union s = .ok u) : u.IsWithin area := by
  have hhull : u.IsHullOf ([r] ++ [s]) :=
    (IsHullOf.singleton r).union (IsHullOf.singleton s) hr.width hr.height h
  refine hhull.isWithin fun t ht => ?_
  rcases List.mem_pair.1 ht with rfl | rfl
  · exact hr
  · exact hs

theorem IsHullOf.not_isEmpty {hull r : Rect} {rects : List Rect} (h : hull.IsHullOf rects)
    (hr : r ∈ rects) (hne : ¬ r.IsEmpty) : ¬ hull.IsEmpty := by
  have hsides := h.surrounds hr
  rw [not_isEmpty_iff] at hne ⊢
  omega

end Rect

end ScoreOverlay
