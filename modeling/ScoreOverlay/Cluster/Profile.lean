import ScoreOverlay.Cluster.Uniformity

namespace ScoreOverlay

/-- Where a cluster lies in relation to the center line. -/
inductive Side where
  | left
  | middle
  | right
deriving DecidableEq, Repr

/-- The measures of a cluster that decide whether another one is symmetric to it. -/
structure Profile where
  minX : Int := 0
  maxX : Int := 0
  minY : Int := 0
  averageY : Int := 0
  averageHeight : Int := 0
  side : Side := .left
  /-- The distance from the center line to the edge next to it. -/
  near : Int := 0
  /-- The distance from the center line to the other edge. -/
  far : Int := 0
  index : Nat := 0
deriving DecidableEq, Repr

namespace Profile

/-- Side and distances from the center line, given how far the left and right edge lie to the left
    of it. A cluster that touches or crosses the line has no distances. -/
def placement (toLeft toRight : Int) : Checked (Side × Int × Int) := do
  if 0 ≤ toLeft ∧ 0 < toRight then return (.left, toRight, toLeft)
  if toLeft < 0 ∧ toRight < 0 then
    return (.right, ← Coordinate.neg toLeft, ← Coordinate.neg toRight)
  return (.middle, 0, 0)

/-- The profile of a cluster that stands at `index` in its list. The empty cluster has none. -/
def ofCluster? (cluster : Cluster) (frame : Frame) (index : Nat) : Checked (Option Profile) := do
  match cluster with
  | [] => return none
  | first :: rest =>
    let firstRight ← first.rect.right
    let rights ← rest.mapM (·.rect.right)
    let minX := rest.foldl (fun n g => min n g.rect.x) first.rect.x
    let maxX := rights.foldl max firstRight
    let minY := rest.foldl (fun n g => min n g.rect.y) first.rect.y
    let averageY := (← Coordinate.sum (cluster.map (·.rect.y))).tdiv cluster.length
    let averageHeight := (← Coordinate.sum (cluster.map Glyph.height)).tdiv cluster.length
    let toLeft ← Coordinate.sub frame.middle minX
    let toRight ← Coordinate.sub frame.middle maxX
    let (side, near, far) ← placement toLeft toRight
    return some { minX, maxX, minY, averageY, averageHeight, side, near, far, index }

/-- The length of the cluster's interval of distances from the center line. -/
def span (p : Profile) : Checked Int := Coordinate.sub p.far p.near

/-- The relative difference of levels or heights from which on two clusters are not symmetric. -/
def maxDifference : Rat := Binary.binary32.round (1 / 20)

/-- The difference of two measures in relation to a positive one, in `binary32`. -/
def relativeDifference (a b : Int) (unit : Rat) : Checked Rat := do
  let difference ← Coordinate.abs (← Coordinate.sub a b)
  return Binary.binary32.round (Binary.binary32.round difference / unit)

/-- Two clusters are symmetric about the center line: levels and heights agree, and the
    distances from the line that both have are more than `threshold` of those that one has. All
    ratios are taken in `binary32`. -/
def symmetricTo (p q : Profile) (threshold : Binary.Scalar) : Checked Bool := do
  let round := Binary.binary32.round
  let meanHeight := round (round (← Coordinate.add p.averageHeight q.averageHeight) / 2)
  let maxHeight := round (max p.averageHeight q.averageHeight : Int)
  if meanHeight ≤ 0 ∨ maxHeight ≤ 0 then return false
  let levelDifference ← relativeDifference p.averageY q.averageY meanHeight
  let heightDifference ← relativeDifference p.averageHeight q.averageHeight maxHeight
  if maxDifference ≤ levelDifference ∨ maxDifference ≤ heightDifference then return false
  let firstSpan ← p.span
  if firstSpan ≤ 0 then return false
  let secondSpan ← q.span
  if secondSpan ≤ 0 then return false
  let shared := round (← Coordinate.sub (min p.far q.far) (max p.near q.near))
  let exceeds (span : Int) : Bool := threshold < (round (shared / round span) : Rat)
  return exceeds firstSpan || exceeds secondSpan

end Profile

end ScoreOverlay
