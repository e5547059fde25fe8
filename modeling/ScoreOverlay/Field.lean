import ScoreOverlay.Cluster.Ladder
import ScoreOverlay.Cluster.Pairing
import ScoreOverlay.Geometry.Margin
import ScoreOverlay.Glyph.Fusion
import ScoreOverlay.Settings.Basic
import ScoreOverlay.Word

namespace ScoreOverlay

/-- What a part of the overlay shows. -/
inductive Field where
  /-- The names of the two sides. -/
  | name
  /-- The points of the two sides. -/
  | score
  /-- The time. -/
  | clock
deriving DecidableEq, Repr

/-- The clusters that belong to a field. Names and scores stand on both sides of the center line,
    and a clock is a ladder. -/
def Field.select (field : Field) (clusters : List Cluster) (frame : Frame)
    (threshold : Binary.Scalar) : Checked (List Cluster) :=
  match field with
  | .name => Cluster.selectSymmetric clusters frame .mostGlyphs threshold
  | .score => Cluster.selectSymmetric clusters frame .tallest threshold
  | .clock => Cluster.selectLadder clusters

namespace Settings

/-- The glyphs that outlines stand for: those within the size limits, fused where they overlap, and
    with a margin if there is one. -/
def findGlyphs (settings : Settings) (outlines : List Outline) (frame : Frame) :
    Checked (List Glyph) := do
  let glyphs := settings.limits.select (← Glyph.ofOutlines outlines)
  let glyphs ← Glyph.fuse settings.overlapThreshold glyphs
  if settings.margin ≤ 0 then return glyphs
  glyphs.mapM fun g => do return { g with rect := ← g.rect.padded settings.margin frame }

/-- Every word that labeled glyphs spell, from left to right. -/
def allWords (settings : Settings) (glyphs : List Glyph) : Checked (List Word) := do
  Word.ofClusters (← Glyph.group glyphs) settings.spacingRatio

/-- The words of a field that labeled glyphs spell, from left to right. -/
def fieldWords (settings : Settings) (glyphs : List Glyph) (frame : Frame) (field : Field) :
    Checked (List Word) := do
  let clusters ← Glyph.group glyphs
  let clusters ←
    if settings.uniformOnly then Prod.fst <$> split Cluster.isUniform clusters
    else pure clusters
  let clusters ← field.select clusters frame settings.symmetryThreshold
  Word.ofClusters clusters settings.spacingRatio

end Settings

end ScoreOverlay
