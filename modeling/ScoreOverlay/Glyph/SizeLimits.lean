import ScoreOverlay.Glyph.Basic

namespace ScoreOverlay

/-- What a glyph may measure. All limits are allowed values themselves. -/
structure SizeLimits where
  minArea : Binary.Scalar := 10
  maxArea : Binary.Scalar := 5000
  minHeight : Int := 8
  maxHeight : Int := 100
  minWidth : Int := 1
  maxWidth : Int := 100
deriving DecidableEq, Repr

namespace SizeLimits

/-- The outline encloses an area within the limits, and the rectangle's sides are within theirs. An
    area limit that is no number excludes nothing. -/
def Admits (limits : SizeLimits) (g : Glyph) : Prop :=
  ¬ (g.outline.area : Binary.Scalar) < limits.minArea ∧
    ¬ limits.maxArea < (g.outline.area : Binary.Scalar) ∧
    (limits.minHeight ≤ g.rect.height ∧ g.rect.height ≤ limits.maxHeight) ∧
    limits.minWidth ≤ g.rect.width ∧ g.rect.width ≤ limits.maxWidth

instance (limits : SizeLimits) (g : Glyph) : Decidable (limits.Admits g) := by
  unfold Admits; infer_instance

/-- The glyphs within the limits, in their order. -/
def select (limits : SizeLimits) (glyphs : List Glyph) : List Glyph :=
  glyphs.filter fun g => limits.Admits g

end SizeLimits

end ScoreOverlay
