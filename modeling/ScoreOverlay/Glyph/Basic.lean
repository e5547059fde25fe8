import ScoreOverlay.Geometry.Outline.Simplify

namespace ScoreOverlay

/-- A place in the picture that may show a character. The rectangle starts from the outline, but
    fusing and padding change it alone, so neither determines the other. -/
structure Glyph where
  outline : Outline
  /-- The outlines of the glyphs fused into this one. -/
  absorbed : List Outline
  rect : Rect
  text : String
deriving DecidableEq, Repr

namespace Glyph

/-- How far the outline may be from the simplified one that gives the rectangle. -/
def tolerance : Binary.Scalar := 3

/-- A glyph without text. An outline without points gives none. -/
def ofOutline? (outline : Outline) : Checked (Option Glyph) := do
  return (← (outline.simplify tolerance).extent?).map (⟨outline, [], ·, ""⟩)

/-- One glyph for each outline that has points. -/
def ofOutlines (outlines : List Outline) : Checked (List Glyph) := do
  return (← outlines.mapM ofOutline?).filterMap id

/-- A glyph with the rectangle itself as its outline. -/
def ofRect (rect : Rect) (text : String) : Checked Glyph := do
  return ⟨← Outline.ofRect rect, [], rect, text⟩

/-- The glyph's own outline and those it has absorbed. -/
def outlines (g : Glyph) : List Outline := g.outline :: g.absorbed

def center (g : Glyph) : Checked Point := g.rect.center

def height (g : Glyph) : Int := g.rect.height

/-- Grows the rectangle around another glyph and takes over its outlines, but not its text. -/
def absorb (g other : Glyph) : Checked Glyph := do
  return { g with
    rect := ← g.rect.union other.rect
    absorbed := g.absorbed ++ other.outlines }

def absorbAll (g : Glyph) (others : List Glyph) : Checked Glyph := others.foldlM absorb g

end Glyph

end ScoreOverlay
