import ScoreOverlay.Geometry.Rect

namespace ScoreOverlay

/-- The boundary of a glyph as a list of points. It may be written with or without its first point
    repeated at the end. -/
abbrev Outline := List Point

namespace Outline

/-- The edges of a list of points, first to last, without the one that closes it. -/
def edges (o : Outline) : List (Point × Point) := o.zip o.tail

/-- The outline with its first point at the end. -/
def closed : Outline → Outline
  | [] => []
  | first :: rest =>
    if (first :: rest).getLast? = some first then first :: rest else first :: rest ++ [first]

/-- Twice the signed area between an edge and the origin, in `binary64`. -/
def edgeArea (origin : Point) (edge : Point × Point) : Rat :=
  let round := Binary.binary64.round
  let (p, q) := edge
  round (round ((p.x - origin.x) * (q.y - origin.y) : Int)
    - round ((p.y - origin.y) * (q.x - origin.x) : Int))

/-- The area that the closed outline encloses, counted with its winding number. Two points or fewer
    enclose nothing. Each sum and product is rounded to `binary64`. -/
def area : Outline → Rat
  | first :: second :: third :: rest =>
    let ring := closed (first :: second :: third :: rest)
    let twice := ring.edges.foldl
      (fun total edge => Binary.binary64.round (total + edgeArea first edge)) 0
    (Binary.binary64.round (twice / 2)).abs
  | _ => 0

/-- The corners of a rectangle, clockwise from the top left. -/
def ofRect (r : Rect) : Checked Outline := do
  let right ← r.right
  let bottom ← r.bottom
  return [⟨r.x, r.y⟩, ⟨right, r.y⟩, ⟨right, bottom⟩, ⟨r.x, bottom⟩]

/-- The least rectangle with all points of the outline inside. Points are pixels, so a single point
    has an extent of one pixel. -/
def extent? : Outline → Checked (Option Rect)
  | [] => return none
  | first :: rest => do
    let least (f : Point → Int) := rest.foldl (fun n p => min n (f p)) (f first)
    let greatest (f : Point → Int) := rest.foldl (fun n p => max n (f p)) (f first)
    let span (low high : Int) : Checked Int := do Coordinate.add (← Coordinate.sub high low) 1
    let width ← span (least Point.x) (greatest Point.x)
    let height ← span (least Point.y) (greatest Point.y)
    return some (Rect.clamped (least Point.x) (least Point.y) width height)

end Outline

end ScoreOverlay
