import ScoreOverlay.Cluster.Grouping

namespace ScoreOverlay.Cluster

/-- The mean of a list, cut off towards zero. The empty list has none. -/
def mean? (l : List Int) : Checked (Option Int) := do
  if l = [] then return none
  return some ((← Coordinate.sum l).tdiv l.length)

/-- The bottoms of the glyphs. -/
def bottoms (cluster : Cluster) : Checked (List Int) := cluster.mapM (·.rect.bottom)

/-- All values lie within `slack` of the middle value, bounds included. -/
def allNear (middle slack : Int) (values : List Int) : Checked Bool := do
  let low ← Coordinate.sub middle slack
  let high ← Coordinate.add middle slack
  return values.all fun n => low ≤ n ∧ n ≤ high

/-- No height differs from the mean height by more than a fifth of it. -/
def hasOneHeight (cluster : Cluster) : Checked Bool := do
  let heights := cluster.map Glyph.height
  match ← mean? heights with
  | none => return false
  | some height => allNear height (height.tdiv 5) heights

/-- No bottom differs from the mean bottom by more than a tenth of the mean height. -/
def hasOneBaseline (cluster : Cluster) : Checked Bool := do
  match ← mean? (cluster.map Glyph.height) with
  | none => return false
  | some height =>
    let bottoms ← cluster.bottoms
    match ← mean? bottoms with
    | none => return false
    | some level => allNear level (height.tdiv 10) bottoms

/-- The glyphs share a height or a baseline. -/
def isUniform (cluster : Cluster) : Checked Bool := do
  if ← cluster.hasOneHeight then return true
  cluster.hasOneBaseline

end ScoreOverlay.Cluster
