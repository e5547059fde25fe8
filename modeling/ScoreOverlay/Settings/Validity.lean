import ScoreOverlay.Settings.Basic
import ScoreOverlay.Decimal.Shortest

namespace ScoreOverlay.Settings

open Binary (Scalar)

/-- A condition on settings that is not met, with the values that break it where they are shown. -/
inductive Violation where
  | area (min max : Scalar)
  | height (min max : Int)
  | width (min max : Int)
  | overlapThreshold
  | symmetryThreshold
  | spacingRatio
  | margin
deriving DecidableEq, Repr

namespace Violation

/-- The name under which the setting is known to users. -/
def name : Violation → String
  | area _ _ => "restrictions.area"
  | height _ _ => "restrictions.height"
  | width _ _ => "restrictions.width"
  | overlapThreshold => "overlap_threshold"
  | symmetryThreshold => "twin_threshold"
  | spacingRatio => "height_to_dist_ratio"
  | margin => "margin"

def reason : Violation → String
  | area min max => min.text Binary.binary64 ++ " > " ++ max.text Binary.binary64
  | height min max | width min max => toString min ++ " > " ++ toString max
  | overlapThreshold | symmetryThreshold => "must be within 0..=1"
  | spacingRatio => "must be a positive number"
  | margin => "must not be negative"

def message (violation : Violation) : String :=
  "Invalid option `" ++ violation.name ++ "`: " ++ violation.reason

end Violation

/-- The part that a threshold is compared with lies between zero and one. -/
def IsPart (x : Scalar) : Prop := 0 ≤ x ∧ x ≤ 1

instance (x : Scalar) : Decidable (IsPart x) := inferInstanceAs (Decidable (0 ≤ x ∧ x ≤ 1))

/-- The first condition that the settings do not meet, if any. -/
def violation? (settings : Settings) : Option Violation :=
  let limits := settings.limits
  if ¬ (0 ≤ limits.minArea ∧ limits.minArea ≤ limits.maxArea) then
    some (.area limits.minArea limits.maxArea)
  else if limits.maxHeight < limits.minHeight then some (.height limits.minHeight limits.maxHeight)
  else if limits.maxWidth < limits.minWidth then some (.width limits.minWidth limits.maxWidth)
  else if ¬ IsPart settings.overlapThreshold then some .overlapThreshold
  else if ¬ IsPart settings.symmetryThreshold then some .symmetryThreshold
  else if ¬ (settings.spacingRatio.IsFinite ∧ 0 < settings.spacingRatio) then some .spacingRatio
  else if settings.margin < 0 then some .margin
  else none

/-- All conditions are met: each range has its lower bound first, areas are not negative, the
    thresholds are parts, the spacing ratio is a positive number and the margin not negative. -/
def Valid (settings : Settings) : Prop :=
  (0 ≤ settings.limits.minArea ∧ settings.limits.minArea ≤ settings.limits.maxArea) ∧
    settings.limits.minHeight ≤ settings.limits.maxHeight ∧
    settings.limits.minWidth ≤ settings.limits.maxWidth ∧
    IsPart settings.overlapThreshold ∧ IsPart settings.symmetryThreshold ∧
    (settings.spacingRatio.IsFinite ∧ 0 < settings.spacingRatio) ∧ 0 ≤ settings.margin

instance (settings : Settings) : Decidable settings.Valid := by
  unfold Valid; infer_instance

theorem valid_iff_violation?_eq_none (settings : Settings) :
    settings.Valid ↔ settings.violation? = none := by
  unfold Valid violation?
  grind

theorem valid_default : ({} : Settings).Valid := by decide +kernel

end ScoreOverlay.Settings
