import ScoreOverlay.Geometry.Outline

namespace ScoreOverlay

namespace Outline

/-- Points in a row that are the same count once. -/
def dropRepeats : List Point → List Point
  | p :: q :: rest => if p = q then dropRepeats (q :: rest) else p :: dropRepeats (q :: rest)
  | points => points

/-- The corners of the closed outline. However the outline is written down, neighbours differ, and
    the last corner differs from the first unless there is only one. -/
def corners (o : Outline) : List Point :=
  let points := dropRepeats o
  if 1 < points.length ∧ points.head? = points.getLast? then points.dropLast else points

end Outline

/-- A canvas of pixels on which outlines are painted. -/
structure Canvas where
  width : Nat
  height : Nat
deriving DecidableEq, Repr

namespace Canvas

/-- The pixel `p` lies on the canvas. -/
def Holds (canvas : Canvas) (p : Point) : Prop :=
  0 ≤ p.x ∧ p.x < canvas.width ∧ 0 ≤ p.y ∧ p.y < canvas.height

instance (canvas : Canvas) (p : Point) : Decidable (canvas.Holds p) :=
  inferInstanceAs (Decidable (0 ≤ p.x ∧ p.x < canvas.width ∧ 0 ≤ p.y ∧ p.y < canvas.height))

/-- The canvas with its axes exchanged. -/
def transposed (canvas : Canvas) : Canvas := ⟨canvas.height, canvas.width⟩

end Canvas

namespace Polygon

/-- The columns where an edge meets the middle of row `y`. A corner on the row counts for the edges
    that go down from it, and a horizontal edge on the row counts with both ends. Between corners
    the column is found in `binary32`, from differences that have to be coordinates. -/
def crossings (y : Int) (edge : Point × Point) : Checked (List Int) := do
  let (p, q) := edge
  let round := Binary.binary32.round
  if ¬ ((p.y ≤ y ∧ y ≤ q.y) ∨ (q.y ≤ y ∧ y ≤ p.y)) then return []
  if p.y = q.y then return [p.x, q.x]
  if p.y = y ∨ q.y = y then
    return (if y < q.y then [p.x] else []) ++ (if y < p.y then [q.x] else [])
  let part := round (round (← Coordinate.sub y p.y) / round (← Coordinate.sub q.y p.y))
  let offset := round (part * round (← Coordinate.sub q.x p.x))
  return [Binary.roundHalfAway (round (round p.x + offset))]

/-- The stretches between the first and second, third and fourth number of a list and so on. -/
def stretches : List Int → List (Int × Int)
  | low :: high :: rest => (low, high) :: stretches rest
  | _ => []

/-- The pixels of row `y` inside a stretch, as far as they lie on the canvas. -/
def rowPixels (canvas : Canvas) (y : Int) (stretch : Int × Int) : List Point :=
  let low := stretch.1.toNat
  let count := (min stretch.2 (canvas.width - 1) + 1).toNat - low
  (List.range' low count).map fun (x : Nat) => ⟨x, y⟩

/-- The pixels of row `y` inside a polygon with the given edges. -/
def rowInterior (canvas : Canvas) (edges : List (Point × Point)) (y : Int) :
    Checked (List Point) := do
  let columns := (← edges.mapM (crossings y)).flatten
  return (stretches (columns.mergeSort fun a b => a ≤ b)).flatMap (rowPixels canvas y)

/-- The pixels inside a polygon, row by row. A polygon above or below the canvas is looked at in the
    nearest row. -/
def interior (canvas : Canvas) (corners : List Point) : Checked (List Point) := do
  let edges := Outline.edges (Outline.closed corners)
  let row (y : Int) : Int := max 0 (min y (canvas.height - 1))
  match corners with
  | [] => return []
  | first :: rest =>
    let top := row (rest.foldl (fun n p => min n p.y) first.y)
    let bottom := row (rest.foldl (fun n p => max n p.y) first.y)
    let rows := List.range' top.toNat (bottom.toNat + 1 - top.toNat)
    return (← rows.mapM fun (y : Nat) => rowInterior canvas edges y).flatten

/-- The end of a line that is being drawn from left to right, and the pixels drawn so far. -/
structure Stroke where
  column : Int
  row : Int
  /-- Twice the distance by which the line may still leave its row. -/
  room : Int
  drawn : List Point

/-- Draws the given number of columns, as far as they lie on the canvas.

With each column the room gets smaller by twice the line's height, and when none is left the line
goes to the next row and gets twice its width. Twice a number of `binary32` is one too, so the room
is rounded like the distance itself. Once rounding keeps the room as it is, the line stays in its
row. -/
def Stroke.follow (canvas : Canvas) (width height downwards : Int) : Nat → Stroke → Stroke
  | 0, s => s
  | count + 1, s =>
    let left := Binary.binary32.roundInt (s.room - 2 * height)
    if left = s.room then
      let pixels := rowPixels canvas s.row (s.column, s.column + count)
      ⟨s.column + count + 1, s.row, s.room,
        if 0 ≤ s.row ∧ s.row < canvas.height then pixels ++ s.drawn else s.drawn⟩
    else
      let here : Point := ⟨s.column, s.row⟩
      let drawn := if canvas.Holds here then here :: s.drawn else s.drawn
      if left < 0 then
        let room := Binary.binary32.roundInt (left + 2 * width)
        follow canvas width height downwards count ⟨s.column + 1, s.row + downwards, room, drawn⟩
      else follow canvas width height downwards count ⟨s.column + 1, s.row, left, drawn⟩

/-- The pixels on the canvas of a line from left to right that is at least as wide as high.

The column and the row after the last pixel have to be coordinates too. The column is none if the
line ends in the greatest one. The row can only be none if the line ends at the limit of the
coordinates. A line that ends elsewhere needs to be followed no further than to the side of the
canvas. -/
def flatLine (canvas : Canvas) (start stop : Point) : Checked (List Point) := do
  if Coordinate.greatest < stop.x then throw (.overflow .addition)
  let width := Binary.binary32.roundInt (stop.x - start.x)
  let height : Int := (Binary.binary32.roundInt (stop.y - start.y)).natAbs
  let downwards := if start.y < stop.y then 1 else -1
  let follow (last : Int) : Stroke :=
    Stroke.follow canvas width height downwards (last - start.x + 1).toNat
      ⟨start.x, min start.y Coordinate.greatest, width, []⟩
  if Coordinate.least < stop.y ∧ stop.y ≤ Coordinate.greatest then
    return (follow (min stop.x (canvas.width - 1))).drawn
  let stroke := follow stop.x
  let _ ← Coordinate.check .addition stroke.row
  return stroke.drawn

/-- The point as `binary32` has it. Its parts can lie one above the greatest coordinate. -/
def nearestPoint (p : Point) : Point :=
  ⟨Binary.binary32.roundInt p.x, Binary.binary32.roundInt p.y⟩

/-- The pixels on the canvas of the line between two points. A line higher than wide is drawn with
    the axes exchanged, and a line to the left from its other end. -/
def line (canvas : Canvas) (edge : Point × Point) : Checked (List Point) := do
  let round := Binary.binary32.roundInt
  let p := nearestPoint edge.1
  let q := nearestPoint edge.2
  let fromLeft (canvas : Canvas) (p q : Point) :=
    if q.x < p.x then flatLine canvas q p else flatLine canvas p q
  if (round (q.x - p.x)).natAbs < (round (q.y - p.y)).natAbs then
    return (← fromLeft canvas.transposed p.transposed q.transposed).map Point.transposed
  fromLeft canvas p q

/-- The pixels on the canvas of the edges of a polygon. -/
def boundary (canvas : Canvas) (corners : List Point) : Checked (List Point) := do
  return (← (Outline.edges (Outline.closed corners)).mapM (line canvas)).flatten

end Polygon

/-- The pixels of the canvas that an outline encloses or runs through. -/
def Outline.paint (canvas : Canvas) (o : Outline) : Checked (List Point) := do
  match corners o with
  | [] => return []
  | [p] => return [p].filter fun p => canvas.Holds p
  | p :: q :: rest =>
    let inside ← Polygon.interior canvas (p :: q :: rest)
    return inside ++ (← Polygon.boundary canvas (p :: q :: rest))

end ScoreOverlay
