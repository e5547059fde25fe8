import ScoreOverlay.Cluster.Grouping
import ScoreOverlay.Text.Line
import ScoreOverlay.Text.Uppercase

namespace ScoreOverlay

/-- The text of a cluster and the center of its leftmost glyph. -/
structure Word where
  text : String
  center : Point
deriving DecidableEq, Repr

namespace Glyph

/-- The space between two glyphs on a line, left one first: none if they touch, and two blanks if
    they are further apart than `ratio` times the left one's height in `binary32`. -/
def spaceBetween (left right : Glyph) (ratio : Binary.Scalar) : Checked (List Char) := do
  let gap ← Coordinate.sub right.rect.x (← left.rect.right)
  let round := Binary.binary32.round
  if gap ≤ 0 then return []
  if ratio.scale Binary.binary32 (round left.height) < (round gap : Binary.Scalar) then
    return [' ', ' ']
  return [' ']

/-- The part of the glyph's text that goes into a word. -/
def label (g : Glyph) : List Char := (Text.firstLine? g.text.toList).getD []

end Glyph

namespace Word

/-- The labels of glyphs on a line, with spaces between them. -/
def spell (ratio : Binary.Scalar) : List Glyph → Checked (List Char)
  | [] => return []
  | [g] => return g.label
  | g :: next :: rest => do
    let space ← g.spaceBetween next ratio
    return g.label ++ space ++ (← spell ratio (next :: rest))

/-- Sorts items by the x coordinate of a point. Items at the same place keep their order. -/
def sortByX {α : Type} (items : List (Point × α)) : List (Point × α) :=
  items.mergeSort fun a b => a.1.x ≤ b.1.x

/-- Reads a cluster from left to right, in upper case. The empty cluster gives no word. -/
def ofCluster? (cluster : Cluster) (ratio : Binary.Scalar) : Checked (Option Word) := do
  let centers ← cluster.mapM Glyph.center
  match sortByX (centers.zip cluster) with
  | [] => return none
  | (center, first) :: rest =>
    let text ← spell ratio (first :: rest.map Prod.snd)
    return some ⟨String.ofList (Text.uppercase text), center⟩

/-- The words of the clusters from left to right. -/
def ofClusters (clusters : List Cluster) (ratio : Binary.Scalar) : Checked (List Word) := do
  let words := (← clusters.mapM (ofCluster? · ratio)).filterMap id
  return (sortByX (words.map fun word => (word.center, word))).map Prod.snd

end Word

end ScoreOverlay
