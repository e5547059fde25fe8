import ScoreOverlay.Cluster.Grouping

namespace ScoreOverlay.Cluster

/-- One turn of the walk up a ladder. It carries the top of the cluster kept before, and takes the
    cluster at the position out of the list if its first glyph starts below that. -/
def ladderAt (i : Nat) (state : Int × List Cluster) : Checked (Int × List Cluster) := do
  let (reference, clusters) := state
  let top := (← elementAt (← elementAt clusters i) 0).rect.y
  if reference < top then return (reference, (← removeAt clusters i).2)
  return (top, clusters)

/-- The clusters of a list whose tops descend. The last one is kept, and from there to the first one
    each that does not start below the one kept before. Empty clusters are left out. -/
def selectLadder (clusters : List Cluster) : Checked (List Cluster) := do
  let clusters := clusters.filter (· ≠ [])
  match clusters.getLast? with
  | none => return clusters
  | some last =>
    let reference := (← elementAt last 0).rect.y
    let others ← stepBack clusters.length 1
    return (← (List.range others).foldrM ladderAt (reference, clusters)).2

end ScoreOverlay.Cluster
