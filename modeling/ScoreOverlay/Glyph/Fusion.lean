import ScoreOverlay.Glyph.Basic

namespace ScoreOverlay

/-- A pass over a list of glyphs that fuses those that overlap. The glyphs before the cursor have
    had their turn. -/
structure Fusion where
  glyphs : List Glyph
  cursor : Nat
deriving DecidableEq, Repr

namespace Fusion

/-- The positions, other than the cursor's, of the glyphs that overlap the given rectangle. -/
def overlapping (threshold : Binary.Scalar) (s : Fusion) (reference : Rect) :
    Checked (List Nat) :=
  s.glyphs |> positions fun other position =>
    if position = s.cursor then pure false else reference.overlaps other.rect threshold

/-- Fuses every glyph that overlaps the one at the cursor into it and moves on. The cursor first
    moves back by as many places as were vacated before it. -/
def step (threshold : Binary.Scalar) (s : Fusion) : Checked Fusion := do
  let reference := (← elementAt s.glyphs s.cursor).rect
  let places ← s.overlapping threshold reference
  let (others, rest) ← extract s.glyphs places
  let cursor ← stepBack s.cursor (places.countP (· < s.cursor))
  let anchor ← (← elementAt rest cursor).absorbAll others
  return ⟨rest.set cursor anchor, cursor + 1⟩

/-- Steps until the cursor has passed the last glyph, but at most the given number of times. -/
def run (threshold : Binary.Scalar) : Nat → Fusion → Checked Fusion
  | 0, s => return s
  | rounds + 1, s => do
    if s.cursor < s.glyphs.length then run threshold rounds (← s.step threshold) else return s

end Fusion

/-- Fuses overlapping glyphs in one pass, with one round for each glyph at most. A glyph that grows
    late can come to overlap one that had its turn before; the two stay apart. -/
def Glyph.fuse (threshold : Binary.Scalar) (glyphs : List Glyph) : Checked (List Glyph) := do
  return (← Fusion.run threshold glyphs.length ⟨glyphs, 0⟩).glyphs

end ScoreOverlay
