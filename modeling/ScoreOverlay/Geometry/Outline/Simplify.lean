import ScoreOverlay.Geometry.Outline

namespace ScoreOverlay

/-- The distance of a point from the segment between `start` and `stop`, in `binary64`. It is the
    distance from an end where the foot of the perpendicular lies beyond that end. -/
def Point.distanceToSegment (p start stop : Point) : Rat :=
  if start = stop then p.distance start
  else
    let round := Binary.binary64.round
    let dx := stop.x - start.x
    let dy := stop.y - start.y
    let lengthSquared := round (round (dx * dx : Int) + round (dy * dy : Int))
    let along := round
      (round (round ((p.x - start.x) * dx : Int) + round ((p.y - start.y) * dy : Int))
        / lengthSquared)
    if along ≤ 0 then p.distance start
    else if 1 ≤ along then p.distance stop
    else
      let across := round
        (round (round ((start.y - p.y) * dx : Int) - round ((start.x - p.x) * dy : Int))
          / lengthSquared)
      round (across.abs * start.distance stop)

namespace Outline

/-- The index and distance of the point that is farthest from the segment, the last one if
    several are. -/
def farthest (start stop : Point) (inner : List Point) : Nat × Rat :=
  inner.zipIdx.foldl
    (fun best entry =>
      let distance := entry.1.distanceToSegment start stop
      if best.2 ≤ distance then (entry.2, distance) else best)
    (0, 0)

/-- The points kept between two kept points. If the farthest of them is more than `tolerance` away
    from the segment it is kept, and the points before and after it are treated likewise.
    Otherwise none is kept. -/
def keptBetween (tolerance : Binary.Scalar) (start stop : Point) (inner : List Point) :
    List Point :=
  let (index, distance) := farthest start stop inner
  if tolerance < (distance : Binary.Scalar) then
    match _ : inner.drop index with
    | [] => []
    | pivot :: after =>
      keptBetween tolerance start pivot (inner.take index)
        ++ pivot :: keptBetween tolerance pivot stop after
  else []
termination_by inner.length
decreasing_by
  all_goals
    have hlength := congrArg List.length ‹inner.drop _ = pivot :: after›
    simp only [List.length_drop, List.length_cons] at hlength
  · rw [List.length_take]
    omega
  · omega

/-- An outline with fewer points that stays within `tolerance` of the given one. The ends are kept,
    and no point is moved. -/
def simplify (tolerance : Binary.Scalar) (o : Outline) : Outline :=
  if tolerance ≤ 0 then o
  else
    match o with
    | first :: second :: third :: rest =>
      let last := (third :: rest).getLast (List.cons_ne_nil third rest)
      first :: keptBetween tolerance first last (second :: third :: rest).dropLast ++ [last]
    | _ => o

end Outline

end ScoreOverlay
