import Mathlib.Data.List.Induction
import ScoreOverlay.Settings.Basic

namespace ScoreOverlay.Settings

/-- What an assignment can be made to. -/
inductive Key where
  | limits
  | overlapThreshold
  | spacingRatio
  | symmetryThreshold
  | margin
  | invert
  | mask
  | uniformOnly
deriving DecidableEq

def Key.Value : Key → Type
  | limits => SizeLimits
  | overlapThreshold | spacingRatio | symmetryThreshold => Binary.Scalar
  | margin => Int
  | invert | mask | uniformOnly => Bool

def get (settings : Settings) : (key : Key) → key.Value
  | .limits => settings.limits
  | .overlapThreshold => settings.overlapThreshold
  | .spacingRatio => settings.spacingRatio
  | .symmetryThreshold => settings.symmetryThreshold
  | .margin => settings.margin
  | .invert => settings.invert
  | .mask => settings.mask
  | .uniformOnly => settings.uniformOnly

/-- What an assignment writes to a setting, if it does. An assignment to all settings writes to
    each of them. -/
def Update.written? : Update → (key : Key) → Option key.Value
  | all settings, key => some (settings.get key)
  | limits value, .limits => some value
  | overlapThreshold value, .overlapThreshold => some value
  | spacingRatio value, .spacingRatio => some value
  | symmetryThreshold value, .symmetryThreshold => some value
  | margin value, .margin => some value
  | invert value, .invert => some value
  | mask value, .mask => some value
  | uniformOnly value, .uniformOnly => some value
  | _, _ => none

/-- The last value that assignments write to a setting, or its default if none does. -/
def lastWritten (updates : List Update) (key : Key) : key.Value :=
  (updates.filterMap fun update => update.written? key).getLast?.getD (({} : Settings).get key)

theorem get_apply (settings : Settings) (update : Update) (key : Key) :
    (update.apply settings).get key = (update.written? key).getD (settings.get key) := by
  cases update <;> cases key <;> rfl

/-- Assignments leave in each setting what is written to it last. -/
theorem get_ofUpdates (updates : List Update) (key : Key) :
    (ofUpdates updates).get key = lastWritten updates key := by
  unfold ofUpdates lastWritten
  induction updates using List.reverseRecOn with
  | nil => rfl
  | append_singleton updates update ih =>
    rw [List.foldl_append, List.foldl_cons, List.foldl_nil, get_apply, ih, List.filterMap_append]
    cases hwritten : update.written? key with
    | none => simp [hwritten]
    | some value => simp [hwritten]

end ScoreOverlay.Settings
