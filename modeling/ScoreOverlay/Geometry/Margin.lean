import ScoreOverlay.Geometry.Rect

namespace ScoreOverlay.Rect

/-- Start and length of one side after padding: the start moves back by `before` but not below
    zero, and the side becomes `length` long if it still ends before `limit` when `reach` long.
    Otherwise it ends one pixel short of the limit. -/
def paddedSide (start : Int) (length : Checked Int) (reach : Int → Checked Int)
    (limit : Int) : Checked (Int × Int) := do
  if (← reach start) < limit then return (start, ← length)
  return (start, ← Coordinate.sub (← Coordinate.sub limit start) 1)

/-- Widens a glyph's rectangle so that its crop shows some background, inside the frame.

A glyph much taller than wide, such as a one, gets a width taken from its height. Any other is
widened by three halves of the margin, one of them on the left. The height grows by half a margin
on both sides. -/
def padded (r : Rect) (margin : Int) (frame : Frame) : Checked Rect := do
  let half := (← Coordinate.add (max margin 0) 1).tdiv 2
  let side := if r.width < 1 ∧ 0 < margin then 2 else half
  let (x, width) ←
    if r.width < r.height.tdiv 5 then
      paddedSide (max (← Coordinate.sub r.x (r.height.tdiv 6)) 0)
        (pure (r.height.tdiv 2))
        (fun x => Coordinate.add x r.height) frame.width
    else
      paddedSide (max (← Coordinate.sub r.x side) 0)
        (do Coordinate.add r.width (← Coordinate.mul 3 side))
        (fun x => do Coordinate.add (← Coordinate.add x r.width) (← Coordinate.mul 3 side))
        frame.width
  let (y, height) ←
    paddedSide (max (← Coordinate.sub r.y half) 0)
      (do Coordinate.add r.height (← Coordinate.mul 2 half))
      (fun y => do Coordinate.add (← Coordinate.add y r.height) (← Coordinate.mul 2 half))
      frame.height
  return clamped x y width height

end ScoreOverlay.Rect
