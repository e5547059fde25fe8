import ScoreOverlay.Glyph.SizeLimits

namespace ScoreOverlay

/-- How fields are read. A value of this type need not make sense; `Settings.Valid` says when it
    does. -/
structure Settings where
  limits : SizeLimits := {}
  /-- The shared part of an area above which two glyphs are fused. -/
  overlapThreshold : Binary.Scalar := Binary.Scalar.ofRat Binary.binary32 (1 / 2)
  /-- The gap, in relation to the height, above which two blanks are read. -/
  spacingRatio : Binary.Scalar := Binary.Scalar.ofRat Binary.binary32 (1 / 2)
  /-- The shared part of a distance interval above which two clusters are symmetric. -/
  symmetryThreshold : Binary.Scalar := Binary.Scalar.ofRat Binary.binary32 (3 / 5)
  /-- The background shown around a glyph. None is added for zero. -/
  margin : Int := 0
  /-- Whether glyphs are lighter than their background. -/
  invert : Bool := false
  /-- Whether pixels outside a glyph's outlines are hidden from the classifier. -/
  mask : Bool := true
  /-- Whether clusters must share a height or a baseline. -/
  uniformOnly : Bool := false
deriving DecidableEq, Repr

/-- An assignment to one setting or to all. -/
inductive Settings.Update where
  | all (settings : Settings)
  | limits (limits : SizeLimits)
  | overlapThreshold (threshold : Binary.Scalar)
  | spacingRatio (ratio : Binary.Scalar)
  | symmetryThreshold (threshold : Binary.Scalar)
  | margin (margin : Int)
  | invert (invert : Bool)
  | mask (mask : Bool)
  | uniformOnly (uniformOnly : Bool)
deriving DecidableEq, Repr

namespace Settings

def Update.apply (settings : Settings) : Update → Settings
  | all other => other
  | limits value => { settings with limits := value }
  | overlapThreshold value => { settings with overlapThreshold := value }
  | spacingRatio value => { settings with spacingRatio := value }
  | symmetryThreshold value => { settings with symmetryThreshold := value }
  | margin value => { settings with margin := value }
  | invert value => { settings with invert := value }
  | mask value => { settings with mask := value }
  | uniformOnly value => { settings with uniformOnly := value }

/-- The default settings after a list of assignments, the first one first. -/
def ofUpdates (updates : List Update) : Settings := updates.foldl Update.apply {}

end Settings

end ScoreOverlay
