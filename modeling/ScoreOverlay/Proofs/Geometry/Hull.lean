import Mathlib.Data.List.Basic
import ScoreOverlay.Geometry.Rect
import ScoreOverlay.Proofs.Checked.Bounds

namespace ScoreOverlay

private theorem min?_append_eq_some {l m : List Int} {a b : Int} (hl : l.min? = some a)
    (hm : m.min? = some b) : (l ++ m).min? = some (min a b) := by
  rw [List.min?_eq_some_iff] at hl hm ⊢
  constructor
  · rcases (by omega : min a b = a ∨ min a b = b) with h | h
    · rw [h]
      exact List.mem_append_left m hl.1
    · rw [h]
      exact List.mem_append_right l hm.1
  · intro n hn
    rcases List.mem_append.1 hn with hn | hn
    · exact Int.le_trans (Int.min_le_left a b) (hl.2 n hn)
    · exact Int.le_trans (Int.min_le_right a b) (hm.2 n hn)

private theorem max?_append_eq_some {l m : List Int} {a b : Int} (hl : l.max? = some a)
    (hm : m.max? = some b) : (l ++ m).max? = some (max a b) := by
  rw [List.max?_eq_some_iff] at hl hm ⊢
  constructor
  · rcases (by omega : max a b = a ∨ max a b = b) with h | h
    · rw [h]
      exact List.mem_append_left m hl.1
    · rw [h]
      exact List.mem_append_right l hm.1
  · intro n hn
    rcases List.mem_append.1 hn with hn | hn
    · exact Int.le_trans (hl.2 n hn) (Int.le_max_left a b)
    · exact Int.le_trans (hm.2 n hn) (Int.le_max_right a b)

namespace Rect

theorem right_inBounds (r : Rect) : InBounds r.right := Coordinate.add_inBounds _ _

theorem bottom_inBounds (r : Rect) : InBounds r.bottom := Coordinate.add_inBounds _ _

theorem union_inBounds (r s : Rect) : InBounds (r.union s) := by
  refine (right_inBounds r).bind fun _ _ => (right_inBounds s).bind fun _ _ => ?_
  refine (Coordinate.sub_inBounds _ _).bind fun _ _ => ?_
  refine (bottom_inBounds r).bind fun _ _ => (bottom_inBounds s).bind fun _ _ => ?_
  exact (Coordinate.sub_inBounds _ _).bind fun _ _ => InBounds.pure _

/-- The rectangle is the least one around all the others: each of its four sides is the outermost
    one among theirs. -/
structure IsHullOf (hull : Rect) (rects : List Rect) : Prop where
  left : (rects.map fun r => r.x).min? = some hull.x
  top : (rects.map fun r => r.y).min? = some hull.y
  right : (rects.map fun r => r.x + r.width).max? = some (hull.x + hull.width)
  bottom : (rects.map fun r => r.y + r.height).max? = some (hull.y + hull.height)

theorem IsHullOf.singleton (r : Rect) : r.IsHullOf [r] := ⟨rfl, rfl, rfl, rfl⟩

/-- A single rectangle is its own hull, whatever its size. -/
theorem IsHullOf.eq_of_singleton {hull r : Rect} (h : hull.IsHullOf [r]) : hull = r := by
  obtain ⟨x, y, width, height⟩ := hull
  obtain ⟨hleft, htop, hright, hbottom⟩ := h
  simp only [List.map_cons, List.map_nil, List.min?_singleton, List.max?_singleton,
    Option.some.injEq] at hleft htop hright hbottom
  have hwidth : width = r.width := by omega
  have hheight : height = r.height := by omega
  subst hleft htop hwidth hheight
  rfl

/-- The sides of the hull lie around those of each rectangle. -/
theorem IsHullOf.surrounds {hull r : Rect} {rects : List Rect} (h : hull.IsHullOf rects)
    (hr : r ∈ rects) :
    hull.x ≤ r.x ∧ hull.y ≤ r.y ∧ r.x + r.width ≤ hull.x + hull.width ∧
      r.y + r.height ≤ hull.y + hull.height := by
  have hleft := (List.min?_eq_some_iff.1 h.left).2 r.x (List.mem_map_of_mem hr)
  have htop := (List.min?_eq_some_iff.1 h.top).2 r.y (List.mem_map_of_mem hr)
  have hright := (List.max?_eq_some_iff.1 h.right).2 (r.x + r.width)
    (List.mem_map_of_mem (f := fun r : Rect => r.x + r.width) hr)
  have hbottom := (List.max?_eq_some_iff.1 h.bottom).2 (r.y + r.height)
    (List.mem_map_of_mem (f := fun r : Rect => r.y + r.height) hr)
  exact ⟨hleft, htop, hright, hbottom⟩

/-- The pixels of each rectangle are pixels of the hull. -/
theorem IsHullOf.covers {hull r : Rect} {rects : List Rect} {p : Point}
    (h : hull.IsHullOf rects) (hr : r ∈ rects) (hp : r.Covers p) : hull.Covers p := by
  have hsides := h.surrounds hr
  unfold Covers at hp ⊢
  omega

/-- The sides of a union. One rectangle without negative sizes is enough for the clamp to be
    inactive. -/
theorem union_eq_ok {r s u : Rect} (hwidth : 0 ≤ r.width) (hheight : 0 ≤ r.height)
    (h : r.union s = .ok u) :
    u.x = min r.x s.x ∧ u.y = min r.y s.y ∧
      u.x + u.width = max (r.x + r.width) (s.x + s.width) ∧
      u.y + u.height = max (r.y + r.height) (s.y + s.height) := by
  unfold union at h
  simp only [bind_eq_ok_iff] at h
  obtain ⟨right, hright, right', hright', width, hw, bottom, hbottom, bottom', hbottom', height, hh,
    hu⟩ := h
  have := Coordinate.eq_of_add_eq_ok hright
  have := Coordinate.eq_of_add_eq_ok hright'
  have := Coordinate.eq_of_sub_eq_ok hw
  have := Coordinate.eq_of_add_eq_ok hbottom
  have := Coordinate.eq_of_add_eq_ok hbottom'
  have := Coordinate.eq_of_sub_eq_ok hh
  cases hu
  refine ⟨rfl, rfl, ?_, ?_⟩
  · simp only [clamped]
    omega
  · simp only [clamped]
    omega

/-- The union of two hulls is the hull of all rectangles. -/
theorem IsHullOf.union {r s u : Rect} {rects others : List Rect} (hr : r.IsHullOf rects)
    (hs : s.IsHullOf others) (hwidth : 0 ≤ r.width) (hheight : 0 ≤ r.height)
    (h : r.union s = .ok u) : u.IsHullOf (rects ++ others) := by
  obtain ⟨hleft, htop, hright, hbottom⟩ := union_eq_ok hwidth hheight h
  constructor
  · rw [List.map_append, hleft]
    exact min?_append_eq_some hr.left hs.left
  · rw [List.map_append, htop]
    exact min?_append_eq_some hr.top hs.top
  · rw [List.map_append, hright]
    exact max?_append_eq_some hr.right hs.right
  · rw [List.map_append, hbottom]
    exact max?_append_eq_some hr.bottom hs.bottom

end Rect

end ScoreOverlay
