import ScoreOverlay.Cluster.Profile

namespace ScoreOverlay

/-- For each cluster of a list the position of its partner, if it has one. -/
abbrev Pairing := List (Option Nat)

namespace Pairing

/-- The first position in the list that is free and whose profile is symmetric to the given one. -/
def findPartner? (pairing : Pairing) (profiles : List Profile) (threshold : Binary.Scalar)
    (profile : Profile) (positions : List Nat) : Checked (Option Nat) :=
  positions.findM? fun j => do
    if (← elementAt pairing j).isSome then return false
    profile.symmetricTo (← elementAt profiles j) threshold

/-- Pairs the cluster at a position with the first free one behind it that is symmetric to it. -/
def matchAt (profiles : List Profile) (threshold : Binary.Scalar) (pairing : Pairing) (i : Nat) :
    Checked Pairing := do
  if (← elementAt pairing i).isSome then return pairing
  let behind := List.range' (i + 1) (profiles.length - (i + 1))
  match ← pairing.findPartner? profiles threshold (← elementAt profiles i) behind with
  | none => return pairing
  | some j => return (pairing.set i (some j)).set j (some i)

/-- Pairs the clusters from the first to the last. -/
def ofProfiles (profiles : List Profile) (threshold : Binary.Scalar) : Checked Pairing :=
  (List.range profiles.length).foldlM (matchAt profiles threshold)
    (List.replicate profiles.length none)

/-- Takes the pair apart that the position belongs to, if any. -/
def separate (pairing : Pairing) (i : Nat) : Checked Pairing := do
  match ← elementAt pairing i with
  | none => return pairing
  | some j =>
    let single := pairing.set i none
    let _ ← elementAt single j
    return single.set j none

/-- Takes pairs apart that have a member below the given level. -/
def dropBelow (profiles : List Profile) (level : Int) (pairing : Pairing) : Checked Pairing :=
  (List.range pairing.length).foldlM
    (fun pairing i => do
      if (← elementAt pairing i).isNone then return pairing
      if level < (← elementAt profiles i).averageY then pairing.separate i else return pairing)
    pairing

/-- The sizes of the clusters that have a partner. -/
def pairedSizes (clusters : List Cluster) (pairing : Pairing) : Checked (List Nat) := do
  let paired := (List.range pairing.length).filter fun i => (pairing[i]?.join).isSome
  paired.mapM fun i => do return (← elementAt clusters i).length

/-- Takes pairs apart whose members both have fewer glyphs than the largest paired cluster. -/
def keepMostGlyphs (clusters : List Cluster) (pairing : Pairing) : Checked Pairing := do
  match (← pairedSizes clusters pairing).max? with
  | none => return pairing
  | some most =>
    (List.range pairing.length).foldlM
      (fun pairing i => do
        match ← elementAt pairing i with
        | none => return pairing
        | some j =>
          let size ← elementAt clusters i
          let partner ← elementAt clusters j
          if size.length < most ∧ partner.length < most then pairing.separate i else return pairing)
      pairing

/-- The lowest level for names; what lies below it belongs to the clock. -/
def clockLevel (frame : Frame) : Checked Int := do
  return (← Coordinate.mul frame.height 4).tdiv 5

/-- One turn of the scan for tall pairs. It carries the height of the paired cluster it last kept,
    at the start that of the first one, and takes a pair apart if both members are shorter. -/
def keepTallAt (profiles : List Profile) (state : Option Int × Pairing) (i : Nat) :
    Checked (Option Int × Pairing) := do
  let (kept?, pairing) := state
  match ← elementAt pairing i with
  | none => return state
  | some j =>
    let height := (← elementAt profiles i).averageHeight
    let kept := kept?.getD height
    if height < kept ∧ (← elementAt profiles j).averageHeight < kept then
      return (some kept, ← pairing.separate i)
    return (some height, pairing)

/-- Takes pairs apart whose members are both shorter than the paired cluster kept before them. -/
def keepTall (profiles : List Profile) (pairing : Pairing) : Checked Pairing := do
  return (← (List.range pairing.length).foldlM (keepTallAt profiles) (none, pairing)).2

/-- Takes the cluster at a position out of the list if the position has no partner. -/
def dropUnpaired (pairing : Pairing) (i : Nat) (clusters : List Cluster) :
    Checked (List Cluster) := do
  if (← elementAt pairing i).isSome then return clusters
  return (← removeAt clusters i).2

/-- Takes the clusters without a partner out of the list, the last one first, so that the remaining
    positions stay valid. -/
def keepPaired (clusters : List Cluster) (pairing : Pairing) : Checked (List Cluster) :=
  (List.range clusters.length).foldrM pairing.dropUnpaired clusters

end Pairing

/-- Which symmetric pairs to prefer. -/
inductive Preference where
  /-- Pairs above the clock that have the most glyphs. -/
  | mostGlyphs
  /-- Pairs with a member that is not shorter than the cluster kept before. -/
  | tallest
deriving DecidableEq, Repr

/-- Takes the pairs apart that are not preferred. -/
def Pairing.refine (preference : Preference) (clusters : List Cluster) (profiles : List Profile)
    (frame : Frame) (pairing : Pairing) : Checked Pairing :=
  match preference with
  | .mostGlyphs => do
    Pairing.keepMostGlyphs clusters (← pairing.dropBelow profiles (← Pairing.clockLevel frame))
  | .tallest => pairing.keepTall profiles

namespace Cluster

/-- The profiles of a list of clusters. An empty cluster has none. -/
def profiles (clusters : List Cluster) (frame : Frame) : Checked (List Profile) := do
  let profiles ← clusters.zipIdx.mapM fun (cluster, i) => Profile.ofCluster? cluster frame i
  return profiles.filterMap id

/-- The clusters, in their order, that are symmetric to another one and preferred. Empty clusters
    are left out. -/
def selectSymmetric (clusters : List Cluster) (frame : Frame) (preference : Preference)
    (threshold : Binary.Scalar) : Checked (List Cluster) := do
  let clusters := clusters.filter (· ≠ [])
  let profiles ← profiles clusters frame
  let pairing ← Pairing.ofProfiles profiles threshold
  let pairing ← pairing.refine preference clusters profiles frame
  Pairing.keepPaired clusters pairing

end Cluster

end ScoreOverlay
