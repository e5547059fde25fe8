import ScoreOverlay.Labeling
import ScoreOverlay.Proofs.Checked.Bounds

namespace ScoreOverlay

variable {kind : PixelKind}

namespace Transcript

variable {α β : Type} {t : Transcript kind α} {f : α → Checked β}

/-- No coordinate leaves the coordinate range on the way to the result. -/
def NoOverflow (t : Transcript kind α) : Prop :=
  ∀ operation, t.outcome ≠ .error (.fault (.overflow operation))

theorem noOverflow_of_isOk (h : t.outcome.isOk = true) : t.NoOverflow := by
  intro operation herror
  rw [herror] at h
  cases h

@[simp] theorem andThen_shown (t : Transcript kind α) (f : α → Checked β) :
    (t.andThen f).shown = t.shown :=
  rfl

theorem andThen_of_error {failure : Failure} (h : t.outcome = .error failure) :
    (t.andThen f).outcome = .error failure := by
  simp only [andThen, h]
  rfl

theorem andThen_of_ok {a : α} (h : t.outcome = .ok a) :
    (t.andThen f).outcome = (f a).mapError .fault := by
  simp only [andThen, h]
  rfl

theorem andThen_eq_ok {a : α} {b : β} (ha : t.outcome = .ok a) (hb : f a = .ok b) :
    (t.andThen f).outcome = .ok b := by
  rw [andThen_of_ok ha, hb]
  rfl

@[simp] theorem map_id (t : Transcript kind α) : t.map (fun a => a) = t := by
  obtain ⟨shown, outcome⟩ := t
  cases outcome with
  | error failure => rfl
  | ok a => rfl

theorem map_eq_ok_iff {g : α → β} {b : β} :
    (t.map g).outcome = .ok b ↔ ∃ a, t.outcome = .ok a ∧ g a = b := by
  unfold map
  cases t.outcome <;> simp [Except.map]

theorem NoOverflow.of_map {g : α → β} (h : (t.map g).NoOverflow) : t.NoOverflow := by
  intro operation herror
  refine h operation ?_
  rw [map, herror]
  rfl

theorem NoOverflow.of_andThen (h : (t.andThen f).NoOverflow) : t.NoOverflow := by
  intro operation herror
  exact h operation (andThen_of_error herror)

theorem NoOverflow.next {a : α} (h : (t.andThen f).NoOverflow) (ha : t.outcome = .ok a) :
    ScoreOverlay.NoOverflow (f a) := by
  intro operation herror
  refine h operation ?_
  rw [andThen_of_ok ha, herror]
  rfl

/-- The computation that a result is passed on to is the only further source of faults. -/
theorem andThen_ne_fault (ht : ∀ fault, t.outcome ≠ .error (.fault fault))
    (hf : ∀ a, t.outcome = .ok a → ∃ b, f a = .ok b) (fault : Fault) :
    (t.andThen f).outcome ≠ .error (.fault fault) := by
  cases houtcome : t.outcome with
  | error failure =>
    rw [andThen_of_error houtcome]
    rintro ⟨⟩
    exact ht fault houtcome
  | ok a =>
    obtain ⟨b, hb⟩ := hf a houtcome
    rw [andThen_eq_ok houtcome hb]
    intro h
    cases h

end Transcript

/-- A glyph that the classifier has an answer for adds its picture, and its character if the answer
    has one. -/
theorem Glyph.labelFrom_cons_of_answer {classify : Classifier kind} {image : Image kind}
    {style : CropStyle} {shown : List (Image kind)} {g : Glyph} {rest : List Glyph}
    {crop : Image kind} {answer : String}
    (hvisible : ¬ (image.crop g.rect).IsEmpty) (hcrop : g.prepared image style = .ok crop)
    (hanswer : classify shown crop = .ok answer) :
    labelFrom classify image style shown (g :: rest) =
      (labelFrom classify image style (shown ++ [crop]) rest).map
        (((firstCharacter? answer).map g.withCharacter).toList ++ ·) := by
  rw [labelFrom, if_neg hvisible]
  simp only [hcrop, hanswer]
  cases firstCharacter? answer with
  | none => exact (Transcript.map_id _).symm
  | some c => rfl

end ScoreOverlay
