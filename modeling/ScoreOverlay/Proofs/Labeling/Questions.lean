import Mathlib.Data.List.Forall2
import ScoreOverlay.Proofs.Image.Pixels
import ScoreOverlay.Proofs.Labeling.Transcript

namespace ScoreOverlay.Glyph

variable {kind : PixelKind} {classify : Classifier kind} {image : Image kind} {style : CropStyle}

/-- Preparing changes pixels but not the size. -/
theorem size_of_prepared {g : Glyph} {crop : Image kind} (h : g.prepared image style = .ok crop) :
    crop.width = (image.crop g.rect).width ∧ crop.height = (image.crop g.rect).height := by
  obtain ⟨mask, invert⟩ := style
  cases mask with
  | false => cases invert <;> cases h <;> exact ⟨rfl, rfl⟩
  | true =>
    obtain ⟨cut, hcut, h⟩ := bind_eq_ok_iff.1 h
    obtain ⟨positions, -, hpositions⟩ := bind_eq_ok_iff.1 hcut
    cases hpositions
    cases invert <;> cases h <;> exact ⟨rfl, rfl⟩

/-- Why the classifier is shown nothing more: no glyph is left, it gave up on the last picture, or
    the next glyph's picture could not be prepared. -/
inductive StopsAfter (classify : Classifier kind) (image : Image kind) (style : CropStyle)
    (shown : List (Image kind)) (rest : List Glyph) : Except Failure (List Glyph) → Prop
  | finished {labeled : List Glyph} (hrest : rest = []) :
      StopsAfter classify image style shown rest (.ok labeled)
  | refused {before : List (Image kind)} {crop : Image kind} {error : Error}
      (hshown : shown = before ++ [crop]) (hrefused : classify before crop = .error error) :
      StopsAfter classify image style shown rest (.error (.reported error))
  | faulted {g : Glyph} {later : List Glyph} {fault : Fault} (hrest : rest = g :: later)
      (hfault : g.prepared image style = .error fault) :
      StopsAfter classify image style shown rest (.error (.fault fault))

theorem StopsAfter.map {shown : List (Image kind)} {rest : List Glyph}
    {outcome : Except Failure (List Glyph)}
    (h : StopsAfter classify image style shown rest outcome) (f : List Glyph → List Glyph) :
    StopsAfter classify image style shown rest (outcome.map f) := by
  cases h with
  | finished hrest => exact .finished hrest
  | refused hshown hrefused => exact .refused hshown hrefused
  | faulted hrest hfault => exact .faulted hrest hfault

/-- The classifier is asked about the glyphs that have a pixel in the picture, in their order, and
    answers until something stops that. -/
theorem labelFrom_asks (shown : List (Image kind)) (glyphs : List Glyph) :
    ∃ asked rest crops,
      glyphs.filter (fun g => ¬ (image.crop g.rect).IsEmpty) = asked ++ rest ∧
      (labelFrom classify image style shown glyphs).shown = shown ++ crops ∧
      List.Forall₂ (fun g crop => g.prepared image style = .ok crop) asked crops ∧
      (∀ before crop after, crops = before ++ crop :: after → after ≠ [] →
        ∃ answer, classify (shown ++ before) crop = .ok answer) ∧
      StopsAfter classify image style (shown ++ crops) rest
        (labelFrom classify image style shown glyphs).outcome := by
  induction glyphs generalizing shown with
  | nil => exact ⟨[], [], [], rfl, by simp [labelFrom], .nil, by simp, .finished rfl⟩
  | cons g glyphs ih =>
    by_cases hempty : (image.crop g.rect).IsEmpty
    · rw [List.filter_cons_of_neg (by simpa using hempty), labelFrom, if_pos hempty]
      exact ih shown
    · rw [List.filter_cons_of_pos (by simpa using hempty)]
      cases hcrop : g.prepared image style with
      | error fault =>
        simp only [labelFrom, if_neg hempty, hcrop]
        exact ⟨[], _, [], rfl, by simp, .nil, by simp, .faulted rfl hcrop⟩
      | ok crop =>
        cases hanswer : classify shown crop with
        | error error =>
          simp only [labelFrom, if_neg hempty, hcrop, hanswer]
          refine ⟨[g], _, [crop], rfl, rfl, .cons hcrop .nil, ?_, .refused rfl hanswer⟩
          intro before crop' after hcrops hne
          cases before with
          | nil =>
            cases hcrops
            exact absurd rfl hne
          | cons first before => simp at hcrops
        | ok answer =>
          obtain ⟨asked, rest, crops, hglyphs, hshown, hcrops, hanswered, hstops⟩ :=
            ih (shown ++ [crop])
          simp only [List.append_assoc, List.singleton_append] at hshown hanswered hstops
          rw [labelFrom_cons_of_answer hempty hcrop hanswer]
          refine ⟨g :: asked, rest, crop :: crops, by rw [hglyphs]; rfl, hshown,
            .cons hcrop hcrops, ?_, hstops.map _⟩
          intro before crop' after heq hne
          cases before with
          | nil =>
            cases heq
            exact ⟨answer, by simpa using hanswer⟩
          | cons first before =>
            cases heq
            exact hanswered before crop' after rfl hne

/-- Labeled glyphs stand where glyphs were found, in the same order. -/
theorem rects_sublist_of_labelFrom {shown : List (Image kind)} {glyphs labeled : List Glyph}
    (h : (labelFrom classify image style shown glyphs).outcome = .ok labeled) :
    (labeled.map rect).Sublist (glyphs.map rect) := by
  induction glyphs generalizing shown labeled with
  | nil =>
    cases h
    exact List.Sublist.refl _
  | cons g glyphs ih =>
    by_cases hempty : (image.crop g.rect).IsEmpty
    · rw [labelFrom, if_pos hempty] at h
      exact (ih h).cons g.rect
    · cases hcrop : g.prepared image style with
      | error fault =>
        simp only [labelFrom, if_neg hempty, hcrop] at h
        cases h
      | ok crop =>
        cases hanswer : classify shown crop with
        | error error =>
          simp only [labelFrom, if_neg hempty, hcrop, hanswer] at h
          cases h
        | ok answer =>
          rw [labelFrom_cons_of_answer hempty hcrop hanswer, Transcript.map_eq_ok_iff] at h
          obtain ⟨others, hothers, rfl⟩ := h
          cases firstCharacter? answer with
          | none => exact (ih hothers).cons g.rect
          | some c => exact (ih hothers).cons_cons g.rect

end ScoreOverlay.Glyph
