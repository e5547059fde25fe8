import ScoreOverlay.Labeling
import ScoreOverlay.Proofs.Checked.Bounds

namespace ScoreOverlay

variable {kind : PixelKind}

theorem Point.relativeTo_inBounds (p origin : Point) : InBounds (p.relativeTo origin) := by
  refine (Coordinate.sub_inBounds _ _).bind fun _ _ => ?_
  exact (Coordinate.sub_inBounds _ _).bind fun _ _ => InBounds.pure _

namespace Polygon

theorem crossings_inBounds (y : Int) (edge : Point × Point) : InBounds (crossings y edge) := by
  obtain ⟨p, q⟩ := edge
  refine InBounds.ite (fun _ => InBounds.pure _) fun _ => ?_
  refine InBounds.ite (fun _ => InBounds.pure _) fun _ => ?_
  refine InBounds.ite (fun _ => InBounds.pure _) fun _ => ?_
  refine (Coordinate.sub_inBounds _ _).bind fun _ _ => ?_
  refine (Coordinate.sub_inBounds _ _).bind fun _ _ => ?_
  exact (Coordinate.sub_inBounds _ _).bind fun _ _ => InBounds.pure _

theorem rowInterior_inBounds (canvas : Canvas) (edges : List (Point × Point)) (y : Int) :
    InBounds (rowInterior canvas edges y) :=
  (InBounds.mapM fun edge _ => crossings_inBounds y edge).bind fun _ _ => InBounds.pure _

theorem interior_inBounds (canvas : Canvas) (corners : List Point) :
    InBounds (interior canvas corners) := by
  cases corners with
  | nil => exact InBounds.pure _
  | cons first rest =>
    exact (InBounds.mapM fun row _ => rowInterior_inBounds _ _ _).bind fun _ _ => InBounds.pure _

theorem flatLine_inBounds (canvas : Canvas) (start stop : Point) :
    InBounds (flatLine canvas start stop) := by
  refine InBounds.ite (fun _ => ?_) fun _ => ?_
  · intro h
    cases h
  · refine InBounds.ite (fun _ => InBounds.pure _) fun _ => ?_
    exact (Coordinate.check_inBounds _ _).bind fun _ _ => InBounds.pure _

theorem line_inBounds (canvas : Canvas) (edge : Point × Point) : InBounds (line canvas edge) := by
  have hfromLeft (canvas : Canvas) (p q : Point) :
      InBounds (if q.x < p.x then flatLine canvas q p else flatLine canvas p q) :=
    InBounds.ite (fun _ => flatLine_inBounds _ _ _) fun _ => flatLine_inBounds _ _ _
  refine InBounds.ite (fun _ => ?_) fun _ => hfromLeft _ _ _
  exact (hfromLeft _ _ _).bind fun _ _ => InBounds.pure _

theorem boundary_inBounds (canvas : Canvas) (corners : List Point) :
    InBounds (boundary canvas corners) :=
  (InBounds.mapM fun edge _ => line_inBounds canvas edge).bind fun _ _ => InBounds.pure _

end Polygon

theorem Outline.paint_inBounds (canvas : Canvas) (o : Outline) : InBounds (o.paint canvas) := by
  unfold paint
  split
  · exact InBounds.pure _
  · exact InBounds.pure _
  · refine (Polygon.interior_inBounds _ _).bind fun _ _ => ?_
    exact (Polygon.boundary_inBounds _ _).bind fun _ _ => InBounds.pure _

namespace Image

theorem visible_inBounds (image : Image kind) (origin : Point) (outlines : List Outline) :
    InBounds (image.visible origin outlines) := by
  have hpaint (o : Outline) : InBounds (do
      Outline.paint image.canvas (← o.mapM (·.relativeTo origin))) :=
    (InBounds.mapM fun p _ => Point.relativeTo_inBounds p origin).bind fun _ _ =>
      Outline.paint_inBounds _ _
  exact (InBounds.mapM fun o _ => hpaint o).bind fun _ _ => InBounds.pure _

theorem masked_inBounds (image : Image kind) (origin : Point) (outlines : List Outline) :
    InBounds (image.masked origin outlines) :=
  (visible_inBounds image origin outlines).bind fun _ _ => InBounds.pure _

end Image

theorem Glyph.prepared_inBounds (g : Glyph) (image : Image kind) (style : CropStyle) :
    InBounds (g.prepared image style) := by
  refine InBounds.ite (fun _ => ?_) fun _ => InBounds.pure _
  exact (Image.masked_inBounds _ _ _).bind fun _ _ => InBounds.pure _

end ScoreOverlay
