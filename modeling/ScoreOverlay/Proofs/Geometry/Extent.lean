import Mathlib.Data.List.Basic
import ScoreOverlay.Geometry.Outline
import ScoreOverlay.Proofs.Checked.Bounds

namespace ScoreOverlay

theorem min?_map_cons {α : Type} (f : α → Int) (first : α) (rest : List α) :
    ((first :: rest).map f).min? = some (rest.foldl (fun n a => min n (f a)) (f first)) := by
  rw [List.map_cons, List.min?_cons', List.foldl_map]

theorem max?_map_cons {α : Type} (f : α → Int) (first : α) (rest : List α) :
    ((first :: rest).map f).max? = some (rest.foldl (fun n a => max n (f a)) (f first)) := by
  rw [List.map_cons, List.max?_cons', List.foldl_map]

/-- The rectangle is the least one that covers all the points: each of its four outermost rows and
    columns has one of them. -/
structure Rect.IsExtentOf (r : Rect) (points : List Point) : Prop where
  left : (points.map Point.x).min? = some r.x
  top : (points.map Point.y).min? = some r.y
  right : (points.map Point.x).max? = some (r.x + r.width - 1)
  bottom : (points.map Point.y).max? = some (r.y + r.height - 1)

/-- Each side of an extent has a point on it. -/
theorem Rect.IsExtentOf.exists_on_sides {r : Rect} {points : List Point} (h : r.IsExtentOf points) :
    ((∃ p ∈ points, p.x = r.x) ∧ ∃ p ∈ points, p.y = r.y) ∧
      (∃ p ∈ points, p.x = r.x + r.width - 1) ∧ ∃ p ∈ points, p.y = r.y + r.height - 1 :=
  ⟨⟨List.mem_map.1 (List.min?_eq_some_iff.1 h.left).1,
      List.mem_map.1 (List.min?_eq_some_iff.1 h.top).1⟩,
    List.mem_map.1 (List.max?_eq_some_iff.1 h.right).1,
    List.mem_map.1 (List.max?_eq_some_iff.1 h.bottom).1⟩

theorem Rect.IsExtentOf.covers {r : Rect} {points : List Point} {p : Point}
    (h : r.IsExtentOf points) (hp : p ∈ points) : r.Covers p := by
  have hleft := (List.min?_eq_some_iff.1 h.left).2 p.x (List.mem_map_of_mem hp)
  have htop := (List.min?_eq_some_iff.1 h.top).2 p.y (List.mem_map_of_mem hp)
  have hright := (List.max?_eq_some_iff.1 h.right).2 p.x (List.mem_map_of_mem hp)
  have hbottom := (List.max?_eq_some_iff.1 h.bottom).2 p.y (List.mem_map_of_mem hp)
  unfold Covers
  omega

/-- The least and the greatest of some numbers, the latter as the end of a span from the former. -/
private theorem exists_span {l : List Int} (hne : l ≠ []) :
    ∃ low length, l.min? = some low ∧ l.max? = some (low + length - 1) := by
  obtain ⟨low, hlow⟩ := Option.isSome_iff_exists.1 (List.isSome_min?_of_ne_nil hne)
  obtain ⟨high, hhigh⟩ := Option.isSome_iff_exists.1 (List.isSome_max?_of_ne_nil hne)
  exact ⟨low, high - low + 1, hlow, hhigh.trans (congrArg some (by omega))⟩

theorem Rect.exists_isExtentOf {points : List Point} (hne : points ≠ []) :
    ∃ r : Rect, r.IsExtentOf points := by
  obtain ⟨left, width, hleft, hright⟩ := exists_span (mt List.map_eq_nil_iff.1 hne)
  obtain ⟨top, height, htop, hbottom⟩ := exists_span (mt List.map_eq_nil_iff.1 hne)
  exact ⟨⟨left, top, width, height⟩, hleft, htop, hright, hbottom⟩

theorem Rect.IsExtentOf.unique {r s : Rect} {points : List Point} (hr : r.IsExtentOf points)
    (hs : s.IsExtentOf points) : r = s := by
  have hleft := Option.some.inj (hr.left.symm.trans hs.left)
  have htop := Option.some.inj (hr.top.symm.trans hs.top)
  have hright := Option.some.inj (hr.right.symm.trans hs.right)
  have hbottom := Option.some.inj (hr.bottom.symm.trans hs.bottom)
  cases r
  cases s
  simp only [Rect.mk.injEq] at *
  omega

namespace Outline

/-- One side of an extent, from the outermost coordinates of the points. -/
private theorem span_eq_ok {f : Point → Int} {first : Point} {rest : List Point} {n : Int}
    (h : (do Coordinate.add (← Coordinate.sub (rest.foldl (fun n p => max n (f p)) (f first))
        (rest.foldl (fun n p => min n (f p)) (f first))) 1) = .ok n) :
    ∃ low, rest.foldl (fun n p => min n (f p)) (f first) = low ∧
      ((first :: rest).map f).min? = some low ∧
        ((first :: rest).map f).max? = some (low + n - 1) ∧ 0 < n := by
  obtain ⟨difference, hdifference, hn⟩ := bind_eq_ok_iff.1 h
  have hsub := Coordinate.eq_of_sub_eq_ok hdifference
  have hadd := Coordinate.eq_of_add_eq_ok hn
  have hmin := min?_map_cons f first rest
  have hmax := max?_map_cons f first rest
  have hlow := (List.min?_eq_some_iff.1 hmin).2 (f first) List.mem_cons_self
  have hhigh := (List.max?_eq_some_iff.1 hmax).2 (f first) List.mem_cons_self
  refine ⟨_, rfl, hmin, ?_, by omega⟩
  rw [hmax]
  exact congrArg some (by omega)

/-- The extent of an outline, which only an outline without points does not have. -/
theorem extent?_eq_ok {o : Outline} {r? : Option Rect} (h : o.extent? = .ok r?) :
    match r? with
    | none => o = []
    | some r => r.IsExtentOf o := by
  cases o with
  | nil =>
    cases h
    rfl
  | cons first rest =>
    obtain ⟨width, hwidth, h⟩ := bind_eq_ok_iff.1 h
    obtain ⟨height, hheight, h⟩ := bind_eq_ok_iff.1 h
    cases h
    obtain ⟨left, hleft, hminX, hmaxX, hwidthPos⟩ := span_eq_ok hwidth
    obtain ⟨top, htop, hminY, hmaxY, hheightPos⟩ := span_eq_ok hheight
    -- Neither side is negative, so the clamp is inactive.
    have hclampX : max width 0 = width := by omega
    have hclampY : max height 0 = height := by omega
    constructor <;> simp only [Rect.clamped, hleft, htop, hclampX, hclampY] <;> assumption

/-- The corners to the right and below stand one pixel outside the rectangle, so its outline has a
    greater extent than the rectangle itself. -/
theorem isExtentOf_ofRect {r : Rect} {o : Outline} (hwidth : 0 ≤ r.width) (hheight : 0 ≤ r.height)
    (h : ofRect r = .ok o) : (⟨r.x, r.y, r.width + 1, r.height + 1⟩ : Rect).IsExtentOf o := by
  obtain ⟨right, hright, h⟩ := bind_eq_ok_iff.1 h
  obtain ⟨bottom, hbottom, h⟩ := bind_eq_ok_iff.1 h
  cases h
  have hright := Coordinate.eq_of_add_eq_ok hright
  have hbottom := Coordinate.eq_of_add_eq_ok hbottom
  constructor
  case left | top =>
    refine List.min?_eq_some_iff.2 ⟨by simp, fun n hn => ?_⟩
    simp only [List.map_cons, List.map_nil, List.mem_cons, List.not_mem_nil, or_false] at hn ⊢
    omega
  case right | bottom =>
    refine List.max?_eq_some_iff.2 ⟨?_, fun n hn => ?_⟩
    · simp only [List.map_cons, List.map_nil, List.mem_cons]
      omega
    · simp only [List.map_cons, List.map_nil, List.mem_cons, List.not_mem_nil, or_false] at hn ⊢
      omega

end Outline

end ScoreOverlay
