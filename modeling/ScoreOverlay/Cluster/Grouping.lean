import ScoreOverlay.Glyph.Basic

namespace ScoreOverlay

/-- Glyphs that belong to one word or number, in the order in which they were found. -/
abbrev Cluster := List Glyph

namespace Glyph

/-- How far apart two facing bottom corners may be, as a part of the height. -/
def reachRatio : Rat := Binary.binary64.round (4 / 5)

/-- The distance below which another glyph's bottom corner counts as near this one's. -/
def reach (g : Glyph) : Rat := Binary.binary64.round (reachRatio * g.height)

/-- The candidate stands directly to the left or right of the member on the same line of text. The
    member's height decides how near is near enough, so the relation has a direction. -/
def neighbours (member candidate : Glyph) : Checked Bool := do
  let m := member.rect
  let c := candidate.rect
  let onLeft := Point.distance ⟨m.x, ← m.bottom⟩ ⟨← c.right, ← c.bottom⟩
  let onRight := Point.distance ⟨← m.right, ← m.bottom⟩ ⟨c.x, ← c.bottom⟩
  if onLeft < member.reach ∨ onRight < member.reach then
    return (← Coordinate.abs (← Coordinate.sub m.y c.y)) < member.height
  return false

end Glyph

namespace Cluster

/-- Extends a cluster until a pass over the remaining glyphs adds none, and returns it with what is
    left. Only the members added by the last pass, the frontier, are compared: those before it had
    the same glyphs and more to choose from. Each pass takes its glyphs out from the back. -/
def grow (searched frontier remaining : List Glyph) : Checked (Cluster × List Glyph) :=
  match positions (fun g _ => frontier.anyM (·.neighbours g)) remaining with
  | .error fault => .error fault
  | .ok [] => .ok (searched ++ frontier, remaining)
  | .ok (first :: more) =>
    match _ : extract remaining (first :: more) with
    | .error fault => .error fault
    | .ok (admitted, rest) => grow (searched ++ frontier) admitted.reverse rest
termination_by remaining.length
decreasing_by
  have hlength := extract_length ‹extract remaining (first :: more) = .ok (admitted, rest)›
  simp only [List.length_cons] at hlength
  omega

theorem grow_length {searched frontier remaining rest : List Glyph} {cluster : Cluster}
    (h : grow searched frontier remaining = .ok (cluster, rest)) :
    rest.length ≤ remaining.length := by
  fun_induction grow searched frontier remaining with
  | case1 => cases h
  | case2 =>
    cases h
    exact Nat.le_refl _
  | case3 => cases h
  | case4 searched frontier remaining first more hplaces admitted rest' hextract ih =>
    have hlength := extract_length hextract
    have hrest := ih h
    omega

/-- Starts each cluster from the last glyph that is in none yet. -/
def collect (remaining : List Glyph) : Checked (List Cluster) :=
  if h : remaining = [] then .ok []
  else
    match _ : grow [] [remaining.getLast h] remaining.dropLast with
    | .error fault => .error fault
    | .ok (cluster, rest) => do return cluster :: (← collect rest)
termination_by remaining.length
decreasing_by
  have hlength := grow_length ‹grow _ _ _ = .ok (cluster, rest)›
  have hpos := List.length_pos_iff.2 h
  rw [List.length_dropLast] at hlength
  omega

end Cluster

/-- Groups glyphs into clusters. Glyphs with an empty rectangle are left out. -/
def Glyph.group (glyphs : List Glyph) : Checked (List Cluster) :=
  Cluster.collect (glyphs.filter fun g => ¬ g.rect.IsEmpty)

end ScoreOverlay
