import ScoreOverlay.Geometry.Margin
import ScoreOverlay.Proofs.Geometry.Containment

namespace ScoreOverlay.Rect

/-- What padding makes of a side that is `size` long. Its start moves back but not below zero, and
    the new side ends before the limit, or it is what is left up to one pixel short of the limit. A
    side with pixels moves by one pixel at least, and keeps its pixels if it is not cut off. -/
structure IsPaddedSide (start size limit first side : Int) : Prop where
  first_eq : ∃ before, 0 ≤ before ∧ (0 < size → 0 < before) ∧ first = max (start - before) 0
  side_eq : 0 ≤ side ∧ (0 < size → 0 < side) ∧ start + size ≤ first + side ∧ first + side < limit ∨
    side = limit - first - 1

/-- A side that starts in front of the limit stays there and keeps pixels. One pixel short of the
    limit is far enough, as the start has moved away from it. -/
theorem IsPaddedSide.within {start size limit first side : Int}
    (h : IsPaddedSide start size limit first side) (hsize : 0 < size) (hstart : start < limit)
    (hlimit : 2 ≤ limit) : 0 ≤ first ∧ 0 < side ∧ first + side < limit := by
  obtain ⟨⟨before, -, hbefore, hfirst⟩, hside | hside⟩ := h
  · have := hside.2.1 hsize
    omega
  · have := hbefore hsize
    omega

/-- A side that is cut off loses the last pixel in front of the limit, if it reached that far, and
    no other. -/
theorem IsPaddedSide.mem_iff {start size limit first side n : Int}
    (h : IsPaddedSide start size limit first side) (hend : start + size ≤ limit)
    (hstart : 0 ≤ start) (hn : start ≤ n ∧ n < start + size) :
    first ≤ n ∧ n < first + max side 0 ↔ n + 1 < limit := by
  obtain ⟨⟨before, hnonneg, -, hfirst⟩, hside | hside⟩ := h
  · omega
  · omega

theorem paddedSide_eq_ok {start limit first side : Int} {length : Checked Int}
    {reach : Int → Checked Int} (h : paddedSide start length reach limit = .ok (first, side)) :
    first = start ∧
      ((∃ stop, reach start = .ok stop ∧ stop < limit ∧ length = .ok side) ∨
        side = limit - start - 1) := by
  obtain ⟨stop, hstop, h⟩ := bind_eq_ok_iff.1 h
  split at h
  · obtain ⟨n, hn, h⟩ := bind_eq_ok_iff.1 h
    cases h
    exact ⟨rfl, .inl ⟨stop, hstop, ‹_›, hn⟩⟩
  · obtain ⟨room, hroom, h⟩ := bind_eq_ok_iff.1 h
    obtain ⟨side, hside, h⟩ := bind_eq_ok_iff.1 h
    cases h
    have := Coordinate.eq_of_sub_eq_ok hroom
    have := Coordinate.eq_of_sub_eq_ok hside
    exact ⟨rfl, .inr (by omega)⟩

/-- A side that is widened by parts of the margin, one of them in front. -/
private theorem isPaddedSide_of_widened {start size part parts limit moved first side : Int}
    (hsize : 0 ≤ size) (hpart : 0 < part) (hparts : part ≤ parts * part)
    (hmoved : Coordinate.sub start part = .ok moved)
    (h : paddedSide (max moved 0) (do Coordinate.add size (← Coordinate.mul parts part))
      (fun start => do Coordinate.add (← Coordinate.add start size) (← Coordinate.mul parts part))
      limit = .ok (first, side)) : IsPaddedSide start size limit first side := by
  have := Coordinate.eq_of_sub_eq_ok hmoved
  have hfirst := (paddedSide_eq_ok h).1
  refine ⟨⟨part, by omega, fun _ => hpart, by omega⟩, ?_⟩
  obtain ⟨stop, hstop, hlt, hlength⟩ | hlength := (paddedSide_eq_ok h).2
  · simp only [bind_eq_ok_iff] at hstop hlength
    obtain ⟨reached, hreached, product, hproduct, hstop⟩ := hstop
    obtain ⟨product', hproduct', hlength⟩ := hlength
    have := Coordinate.eq_of_add_eq_ok hreached
    have := Coordinate.eq_of_check_eq_ok hproduct
    have := Coordinate.eq_of_add_eq_ok hstop
    have := Coordinate.eq_of_check_eq_ok hproduct'
    have := Coordinate.eq_of_add_eq_ok hlength
    exact .inl (by omega)
  · exact .inr (by omega)

/-- The side of a thin glyph is taken from its height. -/
private theorem isPaddedSide_of_thin {start size height limit moved first side : Int}
    (hheight : 0 ≤ height) (hthin : size < height.tdiv 5)
    (hmoved : Coordinate.sub start (height.tdiv 6) = .ok moved)
    (h : paddedSide (max moved 0) (pure (height.tdiv 2)) (fun start => Coordinate.add start height)
      limit = .ok (first, side)) : IsPaddedSide start size limit first side := by
  rw [Int.tdiv_eq_ediv_of_nonneg hheight] at hthin hmoved h
  have := Coordinate.eq_of_sub_eq_ok hmoved
  have hfirst := (paddedSide_eq_ok h).1
  refine ⟨⟨height / 6, by omega, by omega, by omega⟩, ?_⟩
  obtain ⟨stop, hstop, hlt, hlength⟩ | hlength := (paddedSide_eq_ok h).2
  · have := Coordinate.eq_of_add_eq_ok hstop
    cases hlength
    exact .inl (by omega)
  · exact .inr (by omega)

/-- Everything that padding with a margin does to a rectangle without negative sizes. -/
theorem padded_eq_ok {r p : Rect} {margin : Int} {frame : Frame} (hmargin : 0 < margin)
    (hwidth : 0 ≤ r.width) (hheight : 0 ≤ r.height) (h : r.padded margin frame = .ok p) :
    ∃ width height, p = clamped p.x p.y width height ∧
      IsPaddedSide r.x r.width frame.width p.x width ∧
      IsPaddedSide r.y r.height frame.height p.y height := by
  obtain ⟨grown, hgrown, h⟩ := bind_eq_ok_iff.1 h
  have hhalf : 0 < grown.tdiv 2 := by
    have := Coordinate.eq_of_add_eq_ok hgrown
    rw [Int.tdiv_eq_ediv_of_nonneg (by omega)]
    omega
  have hside : 0 < if r.width < 1 ∧ 0 < margin then 2 else grown.tdiv 2 := by
    split <;> omega
  dsimp only at h
  generalize grown.tdiv 2 = half at h hhalf hside
  generalize (if r.width < 1 ∧ 0 < margin then 2 else half) = part at h hside
  split at h
  all_goals
    obtain ⟨movedX, hmovedX, h⟩ := bind_eq_ok_iff.1 h
    obtain ⟨⟨x, width⟩, hx, h⟩ := bind_eq_ok_iff.1 h
    obtain ⟨movedY, hmovedY, h⟩ := bind_eq_ok_iff.1 h
    obtain ⟨⟨y, height⟩, hy, h⟩ := bind_eq_ok_iff.1 h
    cases h
    refine ⟨width, height, rfl, ?_,
      isPaddedSide_of_widened hheight hhalf (by omega) hmovedY hy⟩
  · exact isPaddedSide_of_thin hheight ‹_› hmovedX hx
  · exact isPaddedSide_of_widened hwidth hside (by omega) hmovedX hx

/-- Padding keeps a rectangle inside the frame, and it keeps pixels. -/
theorem padded_isWithin {r p : Rect} {margin : Int} {frame : Frame} (hframe : 2 ≤ frame.width)
    (hframe' : 2 ≤ frame.height) (hmargin : 0 < margin) (hr : r.IsWithin frame.area)
    (hne : ¬ r.IsEmpty) (h : r.padded margin frame = .ok p) :
    p.IsWithin frame.area ∧ ¬ p.IsEmpty := by
  obtain ⟨width, height, hp, hx, hy⟩ := padded_eq_ok hmargin hr.width hr.height h
  obtain ⟨hwidth, hheight⟩ := not_isEmpty_iff.1 hne
  rw [isWithin_frame_iff] at hr
  obtain ⟨hleft, hwidth', hright'⟩ := hx.within hwidth (by omega) hframe
  obtain ⟨htop, hheight', hbottom'⟩ := hy.within hheight (by omega) hframe'
  -- Neither side is negative, so the clamp is inactive.
  have hclampX : p.width = max width 0 := congrArg Rect.width hp
  have hclampY : p.height = max height 0 := congrArg Rect.height hp
  rw [isWithin_frame_iff, not_isEmpty_iff]
  omega

end ScoreOverlay.Rect
