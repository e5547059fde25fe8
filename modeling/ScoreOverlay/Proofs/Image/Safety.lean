import ScoreOverlay.Proofs.Geometry.SafeArea
import ScoreOverlay.Proofs.Image.Bounds
import ScoreOverlay.Proofs.Image.Pixels

namespace ScoreOverlay

theorem Binary.roundInt_eq_self {n : Int} (h : n.natAbs < 16777216) :
    binary32.roundInt n = n := by
  have hlog : n.natAbs.log2 < 24 := by
    by_cases hzero : n.natAbs = 0
    · rw [hzero]
      decide
    · exact (Nat.log2_lt hzero).2 h
  have hexcess : n.natAbs.log2 + 1 - binary32.precision = 0 := by
    simp only [binary32]
    omega
  unfold Format.roundInt
  rw [if_pos hexcess]

/-- The point is as near to the origin as the points of a safe outline are to each other. -/
structure Point.IsNear (p : Point) : Prop where
  x : p.x.natAbs ≤ 131073
  y : p.y.natAbs ≤ 131073

theorem Point.relativeTo_noOverflow {p origin : Point} (hp : Rect.safeArea.Covers p)
    (hx : 0 ≤ origin.x ∧ origin.x ≤ 65537) (hy : 0 ≤ origin.y ∧ origin.y ≤ 65537) :
    NoOverflow (p.relativeTo origin) := by
  have := bounds_of_covers hp
  refine (Coordinate.sub_noOverflow (by omega) (by omega)).bind fun _ _ => ?_
  exact (Coordinate.sub_noOverflow (by omega) (by omega)).bind fun _ _ => NoOverflow.pure _

theorem Point.isNear_of_relativeTo {p origin moved : Point} (hp : Rect.safeArea.Covers p)
    (hx : 0 ≤ origin.x ∧ origin.x ≤ 65537) (hy : 0 ≤ origin.y ∧ origin.y ≤ 65537)
    (h : p.relativeTo origin = .ok moved) : moved.IsNear := by
  have := bounds_of_covers hp
  obtain ⟨x, hsubX, h⟩ := bind_eq_ok_iff.1 h
  obtain ⟨y, hsubY, h⟩ := bind_eq_ok_iff.1 h
  cases h
  have := Coordinate.eq_of_sub_eq_ok hsubX
  have := Coordinate.eq_of_sub_eq_ok hsubY
  constructor
  · dsimp only
    omega
  · dsimp only
    omega

namespace Outline

theorem dropRepeats_sublist (points : List Point) : (dropRepeats points).Sublist points := by
  fun_induction dropRepeats points with
  | case1 p rest ih => exact ih.cons p
  | case2 p q rest hne ih => exact ih.cons_cons p
  | case3 points => exact List.Sublist.refl _

theorem corners_subset (o : Outline) : o.corners ⊆ o := by
  unfold corners
  dsimp only
  split
  · exact ((List.dropLast_sublist _).trans (dropRepeats_sublist o)).subset
  · exact (dropRepeats_sublist o).subset

theorem closed_subset (o : Outline) : o.closed ⊆ o := by
  cases o with
  | nil => exact List.Subset.refl _
  | cons first rest =>
    rw [closed]
    split
    · exact List.Subset.refl _
    · simp

theorem mem_of_mem_edges_closed {o : Outline} {edge : Point × Point}
    (h : edge ∈ edges (closed o)) : edge.1 ∈ o ∧ edge.2 ∈ o := by
  obtain ⟨hfirst, hsecond⟩ := List.of_mem_zip h
  exact ⟨closed_subset o hfirst, closed_subset o (List.mem_of_mem_tail hsecond)⟩

end Outline

namespace Polygon

variable {canvas : Canvas} {corners : List Point}

theorem crossings_noOverflow {y : Int} {edge : Point × Point} (hy : 0 ≤ y ∧ y ≤ 65536)
    (hp : edge.1.IsNear) (hq : edge.2.IsNear) : NoOverflow (crossings y edge) := by
  obtain ⟨p, q⟩ := edge
  obtain ⟨hpx, hpy⟩ := hp
  obtain ⟨hqx, hqy⟩ := hq
  dsimp only at hpx hpy hqx hqy
  refine NoOverflow.ite (fun _ => NoOverflow.pure _) fun _ => ?_
  refine NoOverflow.ite (fun _ => NoOverflow.pure _) fun _ => ?_
  refine NoOverflow.ite (fun _ => NoOverflow.pure _) fun _ => ?_
  refine (Coordinate.sub_noOverflow (by omega) (by omega)).bind fun _ _ => ?_
  refine (Coordinate.sub_noOverflow (by omega) (by omega)).bind fun _ _ => ?_
  exact (Coordinate.sub_noOverflow (by omega) (by omega)).bind fun _ _ => NoOverflow.pure _

theorem interior_noOverflow (hcanvas : canvas.height ≤ 65536) (hnear : ∀ p ∈ corners, p.IsNear) :
    NoOverflow (interior canvas corners) := by
  cases corners with
  | nil => exact NoOverflow.pure _
  | cons first rest =>
    refine (NoOverflow.mapM fun y hy => ?_).bind fun _ _ => NoOverflow.pure _
    refine (NoOverflow.mapM fun edge hedge => ?_).bind fun _ _ => NoOverflow.pure _
    obtain ⟨hp, hq⟩ := Outline.mem_of_mem_edges_closed hedge
    refine crossings_noOverflow ?_ (hnear _ hp) (hnear _ hq)
    rw [List.mem_range'_1] at hy
    dsimp only at hy
    omega

/-- Near points are numbers of the format, so that a line ends where it should. -/
theorem nearestPoint_eq_self {p : Point} (h : p.IsNear) : nearestPoint p = p := by
  obtain ⟨hx, hy⟩ := h
  unfold nearestPoint
  rw [Binary.roundInt_eq_self (by omega), Binary.roundInt_eq_self (by omega)]

theorem flatLine_noOverflow {start stop : Point} (h : stop.IsNear) :
    NoOverflow (flatLine canvas start stop) := by
  obtain ⟨hx, hy⟩ := h
  have hcolumn : ¬ Coordinate.greatest < stop.x := by
    unfold Coordinate.greatest
    omega
  have hrow : Coordinate.least < stop.y ∧ stop.y ≤ Coordinate.greatest := by
    unfold Coordinate.least Coordinate.greatest
    omega
  unfold flatLine
  rw [if_neg hcolumn]
  simp only [if_pos hrow]
  exact NoOverflow.pure _

theorem line_noOverflow {edge : Point × Point} (hp : edge.1.IsNear) (hq : edge.2.IsNear) :
    NoOverflow (line canvas edge) := by
  have hfromLeft (canvas : Canvas) {p q : Point} (hp : p.IsNear) (hq : q.IsNear) :
      NoOverflow (if q.x < p.x then flatLine canvas q p else flatLine canvas p q) :=
    NoOverflow.ite (fun _ => flatLine_noOverflow hp) fun _ => flatLine_noOverflow hq
  unfold line
  rw [nearestPoint_eq_self hp, nearestPoint_eq_self hq]
  refine NoOverflow.ite (fun _ => ?_) fun _ => hfromLeft _ hp hq
  exact (hfromLeft _ ⟨hp.y, hp.x⟩ ⟨hq.y, hq.x⟩).bind fun _ _ => NoOverflow.pure _

theorem boundary_noOverflow (hnear : ∀ p ∈ corners, p.IsNear) :
    NoOverflow (boundary canvas corners) := by
  refine (NoOverflow.mapM fun edge hedge => ?_).bind fun _ _ => NoOverflow.pure _
  obtain ⟨hp, hq⟩ := Outline.mem_of_mem_edges_closed hedge
  exact line_noOverflow (hnear _ hp) (hnear _ hq)

end Polygon

theorem Outline.paint_noOverflow {canvas : Canvas} {o : Outline} (hcanvas : canvas.height ≤ 65536)
    (hnear : ∀ p ∈ o, p.IsNear) : NoOverflow (o.paint canvas) := by
  have hcorners : ∀ p ∈ o.corners, p.IsNear := fun p hp => hnear p (corners_subset o hp)
  unfold paint
  split
  · exact NoOverflow.pure _
  · exact NoOverflow.pure _
  · rename_i p q rest hsome
    rw [hsome] at hcorners
    refine (Polygon.interior_noOverflow hcanvas hcorners).bind fun _ _ => ?_
    exact (Polygon.boundary_noOverflow hcorners).bind fun _ _ => NoOverflow.pure _

namespace Image

variable {kind : PixelKind}

/-- The picture is no larger than a safe frame. -/
structure IsSafe (image : Image kind) : Prop where
  width : image.width ≤ 65536
  height : image.height ≤ 65536

theorem IsSafe.frame {image : Image kind} (h : image.IsSafe) : image.frame.IsSafe := by
  obtain ⟨hwidth, hheight⟩ := h
  have hframe : image.frame = ⟨image.width, image.height⟩ := by
    simp only [Image.frame, Frame.ofPixels, Coordinate.count]
    rw [Int.bmod_eq_of_le (by omega) (by omega), Int.bmod_eq_of_le (by omega) (by omega)]
  rw [hframe]
  constructor
  · dsimp only
    omega
  · dsimp only
    omega

theorem masked_noOverflow {image : Image kind} {origin : Point} {outlines : List Outline}
    (himage : image.height ≤ 65536) (hx : 0 ≤ origin.x ∧ origin.x ≤ 65537)
    (hy : 0 ≤ origin.y ∧ origin.y ≤ 65537)
    (hpoints : ∀ o ∈ outlines, ∀ p ∈ o, Rect.safeArea.Covers p) :
    NoOverflow (image.masked origin outlines) := by
  refine NoOverflow.bind ?_ fun _ _ => NoOverflow.pure _
  refine (NoOverflow.mapM fun o ho => ?_).bind fun _ _ => NoOverflow.pure _
  refine (NoOverflow.mapM fun p hp => ?_).bind fun moved hmoved => ?_
  · exact Point.relativeTo_noOverflow (hpoints o ho p hp) hx hy
  · refine Outline.paint_noOverflow himage fun q hq => ?_
    obtain ⟨p, hp, hq⟩ := (mem_of_mapM_eq_ok hmoved).1 hq
    exact Point.isNear_of_relativeTo (hpoints o ho p hp) hx hy hq

end Image

/-- Nothing overflows when a glyph is cut out and masked. -/
theorem Glyph.prepared_noOverflow {kind : PixelKind} {g : Glyph} {image : Image kind}
    (style : CropStyle) (himage : image.IsSafe) (hrect : g.rect.IsWithin Rect.safeArea)
    (hpoints : ∀ o ∈ g.outlines, ∀ p ∈ o, Rect.safeArea.Covers p) :
    NoOverflow (g.prepared image style) := by
  have := Rect.isWithin_safeArea_iff.1 hrect
  refine NoOverflow.ite (fun _ => ?_) fun _ => NoOverflow.pure _
  refine (Image.masked_noOverflow ?_ ?_ ?_ hpoints).bind fun _ _ => NoOverflow.pure _
  · rw [Image.crop_height]
    have := himage.height
    omega
  · dsimp only
    omega
  · dsimp only
    omega

end ScoreOverlay
