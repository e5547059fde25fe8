import ScoreOverlay.Field
import ScoreOverlay.Proofs.Glyph.Fusion.Conservation

namespace ScoreOverlay

theorem Outline.extent?_inBounds (o : Outline) : InBounds o.extent? := by
  cases o with
  | nil => exact InBounds.pure _
  | cons first rest =>
    have hspan (low high : Int) :
        InBounds (do Coordinate.add (← Coordinate.sub high low) 1) :=
      (Coordinate.sub_inBounds _ _).bind fun _ _ => Coordinate.add_inBounds _ _
    exact (hspan _ _).bind fun _ _ => (hspan _ _).bind fun _ _ => InBounds.pure _

namespace Rect

theorem paddedSide_inBounds {start limit : Int} {length : Checked Int} {reach : Int → Checked Int}
    (hlength : InBounds length) (hreach : ∀ start, InBounds (reach start)) :
    InBounds (paddedSide start length reach limit) := by
  refine (hreach start).bind fun _ _ => InBounds.ite (fun _ => ?_) fun _ => ?_
  · exact hlength.bind fun _ _ => InBounds.pure _
  · refine (Coordinate.sub_inBounds _ _).bind fun _ _ => ?_
    exact (Coordinate.sub_inBounds _ _).bind fun _ _ => InBounds.pure _

theorem padded_inBounds (r : Rect) (margin : Int) (frame : Frame) :
    InBounds (r.padded margin frame) := by
  have hlength (n count part : Int) :
      InBounds (do Coordinate.add n (← Coordinate.mul count part)) :=
    (Coordinate.mul_inBounds _ _).bind fun _ _ => Coordinate.add_inBounds _ _
  have hreach (start n count part : Int) :
      InBounds (do Coordinate.add (← Coordinate.add start n) (← Coordinate.mul count part)) :=
    (Coordinate.add_inBounds _ _).bind fun _ _ => hlength _ _ _
  refine (Coordinate.add_inBounds _ _).bind fun _ _ => ?_
  refine InBounds.ite (fun _ => ?_) fun _ => ?_
  all_goals refine (Coordinate.sub_inBounds _ _).bind fun _ _ => ?_
  · refine (paddedSide_inBounds (InBounds.pure _) fun _ => Coordinate.add_inBounds _ _).bind
      fun _ _ => (Coordinate.sub_inBounds _ _).bind fun _ _ => ?_
    exact (paddedSide_inBounds (hlength _ _ _) fun _ => hreach _ _ _ _).bind
      fun _ _ => InBounds.pure _
  · refine (paddedSide_inBounds (hlength _ _ _) fun _ => hreach _ _ _ _).bind
      fun _ _ => (Coordinate.sub_inBounds _ _).bind fun _ _ => ?_
    exact (paddedSide_inBounds (hlength _ _ _) fun _ => hreach _ _ _ _).bind
      fun _ _ => InBounds.pure _

end Rect

namespace Glyph

theorem ofOutline?_inBounds (outline : Outline) : InBounds (ofOutline? outline) :=
  (Outline.extent?_inBounds _).bind fun _ _ => InBounds.pure _

theorem ofOutlines_inBounds (outlines : List Outline) : InBounds (ofOutlines outlines) :=
  (InBounds.mapM fun outline _ => ofOutline?_inBounds outline).bind fun _ _ => InBounds.pure _

end Glyph

theorem Settings.findGlyphs_inBounds (settings : Settings) (outlines : List Outline)
    (frame : Frame) : InBounds (settings.findGlyphs outlines frame) := by
  refine (Glyph.ofOutlines_inBounds outlines).bind fun _ _ => ?_
  refine (Fusion.fuse_inBounds _ _).bind fun _ _ => ?_
  refine InBounds.ite (fun _ => InBounds.pure _) fun _ => InBounds.mapM fun g _ => ?_
  exact (Rect.padded_inBounds _ _ _).bind fun _ _ => InBounds.pure _

end ScoreOverlay
