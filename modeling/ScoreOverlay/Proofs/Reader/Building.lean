import ScoreOverlay.Proofs.Binary.Order
import ScoreOverlay.Proofs.Settings.Assignment
import ScoreOverlay.Reader

namespace ScoreOverlay

open Binary (Scalar)

namespace Settings

/-- What has to be true of settings, in the order in which it is looked at. -/
inductive Requirement where
  | area
  | height
  | width
  | overlapThreshold
  | symmetryThreshold
  | spacingRatio
  | margin
deriving DecidableEq

namespace Requirement

def all : List Requirement :=
  [area, height, width, overlapThreshold, symmetryThreshold, spacingRatio, margin]

theorem mem_all (requirement : Requirement) : requirement ∈ all := by
  cases requirement <;> decide

/-- Numbers are compared by their places on the line, so that nothing holds of `nan`. -/
def Holds (settings : Settings) : Requirement → Prop
  | area => ∃ least ∈ settings.limits.minArea.place?, ∃ greatest ∈ settings.limits.maxArea.place?,
      WithBotTop.coe 0 ≤ least ∧ least ≤ greatest
  | height => settings.limits.minHeight ≤ settings.limits.maxHeight
  | width => settings.limits.minWidth ≤ settings.limits.maxWidth
  | overlapThreshold => settings.overlapThreshold.IsBetween 0 1
  | symmetryThreshold => settings.symmetryThreshold.IsBetween 0 1
  | spacingRatio => ∃ ratio : Rat, WithBotTop.coe ratio ∈ settings.spacingRatio.place? ∧ 0 < ratio
  | margin => 0 ≤ settings.margin

theorem area_iff {settings : Settings} :
    area.Holds settings ↔
      0 ≤ settings.limits.minArea ∧ settings.limits.minArea ≤ settings.limits.maxArea := by
  rw [Scalar.le_iff, Scalar.le_iff]
  constructor
  · rintro ⟨least, hleast, greatest, hgreatest, hnonneg, hle⟩
    exact ⟨⟨_, rfl, least, hleast, hnonneg⟩, least, hleast, greatest, hgreatest, hle⟩
  · rintro ⟨⟨zero, hzero, least, hleast, hnonneg⟩, least', hleast', greatest, hgreatest, hle⟩
    cases hzero
    obtain rfl := Option.mem_unique hleast hleast'
    exact ⟨least, hleast, greatest, hgreatest, hnonneg, hle⟩

theorem isFinite_and_pos_iff {x : Scalar} :
    x.IsFinite ∧ 0 < x ↔ ∃ ratio : Rat, WithBotTop.coe ratio ∈ x.place? ∧ 0 < ratio := by
  have hbot (ratio : Rat) : ⊥ ≠ WithBotTop.coe ratio := (WithBotTop.coe_ne_bot ratio).symm
  have htop (ratio : Rat) : ⊤ ≠ WithBotTop.coe ratio := (WithBotTop.coe_ne_top ratio).symm
  rw [Scalar.lt_iff]
  cases x <;> simp [Scalar.IsFinite, Scalar.value?, Scalar.place?, hbot, htop,
    WithBotTop.coe_injective.eq_iff]

instance (settings : Settings) (requirement : Requirement) :
    Decidable (requirement.Holds settings) :=
  match requirement with
  | area => decidable_of_iff _ area_iff.symm
  | height => inferInstanceAs (Decidable (settings.limits.minHeight ≤ settings.limits.maxHeight))
  | width => inferInstanceAs (Decidable (settings.limits.minWidth ≤ settings.limits.maxWidth))
  | overlapThreshold =>
    decidable_of_iff (IsPart settings.overlapThreshold) Scalar.isBetween_iff.symm
  | symmetryThreshold =>
    decidable_of_iff (IsPart settings.symmetryThreshold) Scalar.isBetween_iff.symm
  | spacingRatio => decidable_of_iff _ isFinite_and_pos_iff
  | margin => inferInstanceAs (Decidable (0 ≤ settings.margin))

/-- How settings that do not meet the requirement are turned down. -/
def violation (settings : Settings) : Requirement → Violation
  | area => .area settings.limits.minArea settings.limits.maxArea
  | height => .height settings.limits.minHeight settings.limits.maxHeight
  | width => .width settings.limits.minWidth settings.limits.maxWidth
  | overlapThreshold => .overlapThreshold
  | symmetryThreshold => .symmetryThreshold
  | spacingRatio => .spacingRatio
  | margin => .margin

/-- The requirement is the first one that the settings do not meet. -/
def IsFirstBroken (requirement : Requirement) (settings : Settings) : Prop :=
  ¬ requirement.Holds settings ∧
    ∃ before after, all = before ++ requirement :: after ∧ ∀ other ∈ before, other.Holds settings

/-- The name in the error tells which requirement it is. -/
theorem eq_of_name_eq {requirement other : Requirement} {settings : Settings}
    (h : (other.violation settings).name = (requirement.violation settings).name) :
    other = requirement := by
  cases requirement <;> cases other <;> simp [violation, Violation.name] at h ⊢

theorem violation?_eq (settings : Settings) :
    settings.violation? =
      (all.find? fun requirement => ¬ requirement.Holds settings).map (·.violation settings) := by
  have hoverlap : IsPart settings.overlapThreshold ↔ overlapThreshold.Holds settings :=
    Scalar.isBetween_iff.symm
  have hsymmetry : IsPart settings.symmetryThreshold ↔ symmetryThreshold.Holds settings :=
    Scalar.isBetween_iff.symm
  have hspacing : settings.spacingRatio.IsFinite ∧ 0 < settings.spacingRatio ↔
      spacingRatio.Holds settings := isFinite_and_pos_iff
  have hheight : settings.limits.maxHeight < settings.limits.minHeight ↔ ¬ height.Holds settings :=
    Int.not_le.symm
  have hwidth : settings.limits.maxWidth < settings.limits.minWidth ↔ ¬ width.Holds settings :=
    Int.not_le.symm
  have hmargin : settings.margin < 0 ↔ ¬ margin.Holds settings := Int.not_le.symm
  unfold violation?
  simp only [← area_iff, hoverlap, hsymmetry, hspacing, hheight, hwidth, hmargin, all, List.find?]
  split_ifs <;> simp [*, violation]

theorem violation?_eq_none_iff {settings : Settings} :
    settings.violation? = none ↔ ∀ requirement : Requirement, requirement.Holds settings := by
  rw [violation?_eq, Option.map_eq_none_iff, List.find?_eq_none]
  constructor
  · intro h requirement
    simpa using h requirement (mem_all requirement)
  · intro h requirement _
    simpa using h requirement

theorem violation?_eq_some_iff {settings : Settings} {violation : Violation} :
    settings.violation? = some violation ↔
      ∃ requirement, IsFirstBroken requirement settings ∧
        requirement.violation settings = violation := by
  rw [violation?_eq, Option.map_eq_some_iff]
  refine exists_congr fun requirement => and_congr_left fun _ => ?_
  rw [List.find?_eq_some_iff_append]
  simp [IsFirstBroken]

end Requirement

end Settings

namespace Reader

theorem ofSettings_eq_ok_iff {settings : Settings} {reader : Reader} :
    ofSettings settings = .ok reader ↔ settings.violation? = none ∧ reader.settings = settings := by
  unfold ofSettings
  split
  · rename_i h
    cases reader
    simp only [h, Except.ok.injEq, mk.injEq, true_and]
    exact eq_comm
  · rename_i h
    simp [h]

theorem ofSettings_eq_error_iff {settings : Settings} {error : Error} :
    ofSettings settings = .error error ↔
      ∃ violation, settings.violation? = some violation ∧ .invalidSetting violation = error := by
  unfold ofSettings
  split <;> rename_i h <;> simp [h]

/-- Which assignments give a reader. They leave in each setting what is written to it last, or its
    default. If that meets every requirement there is a reader, and it has these settings.
    Otherwise the first requirement that is not met is reported, under a name that no other one
    has. Values do not matter until then: what is overwritten can be anything. -/
theorem ofUpdates_accepts (updates : List Settings.Update) :
    (∀ key, (Settings.ofUpdates updates).get key = Settings.lastWritten updates key) ∧
      ((∃ reader, ofUpdates updates = .ok reader) ↔
        ∀ requirement : Settings.Requirement,
          requirement.Holds (Settings.ofUpdates updates)) ∧
      (∀ reader, ofUpdates updates = .ok reader →
        ∀ key, reader.settings.get key = Settings.lastWritten updates key) ∧
      ∀ error, ofUpdates updates = .error error ↔
        ∃ requirement : Settings.Requirement,
          requirement.IsFirstBroken (Settings.ofUpdates updates) ∧
          .invalidSetting (requirement.violation (Settings.ofUpdates updates)) = error ∧
          ∀ other : Settings.Requirement,
            (other.violation (Settings.ofUpdates updates)).name =
                (requirement.violation (Settings.ofUpdates updates)).name →
              other = requirement := by
  refine ⟨Settings.get_ofUpdates updates, ?_, ?_, ?_⟩
  · rw [← Settings.Requirement.violation?_eq_none_iff]
    constructor
    · rintro ⟨reader, h⟩
      exact (ofSettings_eq_ok_iff.1 h).1
    · intro h
      exact ⟨⟨_, (Settings.valid_iff_violation?_eq_none _).2 h⟩, ofSettings_eq_ok_iff.2 ⟨h, rfl⟩⟩
  · intro reader h key
    rw [(ofSettings_eq_ok_iff.1 h).2, Settings.get_ofUpdates]
  · intro error
    simp only [ofUpdates, ofSettings_eq_error_iff, Settings.Requirement.violation?_eq_some_iff]
    constructor
    · rintro ⟨_, ⟨requirement, hfirst, rfl⟩, rfl⟩
      exact ⟨requirement, hfirst, rfl, fun other => Settings.Requirement.eq_of_name_eq⟩
    · rintro ⟨requirement, hfirst, herror, -⟩
      exact ⟨_, ⟨requirement, hfirst, rfl⟩, herror⟩

end Reader

end ScoreOverlay
