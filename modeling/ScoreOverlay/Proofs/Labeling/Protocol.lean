import Mathlib.Data.List.Forall2
import ScoreOverlay.Proofs.Labeling.Answers

namespace ScoreOverlay.Glyph

variable {kind : PixelKind}

/-- The glyphs whose part of the picture has at least one column and one row. -/
def visibleIn (image : Image kind) (glyphs : List Glyph) : List Glyph :=
  glyphs.filter fun g => 0 < (image.crop g.rect).width ∧ 0 < (image.crop g.rect).height

/-- A glyph, the picture of it that the classifier is shown, and what it says to that. -/
structure Exchange (kind : PixelKind) where
  glyph : Glyph
  crop : Image kind
  answer : String

/-- The answer's first line has a character. -/
def Exchange.HasCharacter (e : Exchange kind) : Prop :=
  ∃ c rest, Text.IsFirstLine (c :: rest) e.answer.toList

instance (e : Exchange kind) : Decidable e.HasCharacter :=
  decidable_of_iff ((firstCharacter? e.answer).isSome = true) (by
    simp only [Option.isSome_iff_exists, firstCharacter?_eq_some_iff, Exchange.HasCharacter])

/-- The exchange can take place: the picture is that of the glyph, and the classifier says so. -/
structure Exchange.Held (classify : Image kind → Except Error String) (image : Image kind)
    (style : CropStyle) (e : Exchange kind) : Prop where
  prepared : e.glyph.prepared image style = .ok e.crop
  answered : classify e.crop = .ok e.answer

/-- Labeling changes only the text of a glyph. It becomes the character that the first line of the
    answer begins with, which is never a line feed. -/
structure Exchange.Labels (e : Exchange kind) (labeled : Glyph) : Prop where
  rect : labeled.rect = e.glyph.rect
  outline : labeled.outline = e.glyph.outline
  absorbed : labeled.absorbed = e.glyph.absorbed
  text : ∃ c rest, Text.IsFirstLine (c :: rest) e.answer.toList ∧ c ≠ '\n' ∧
    labeled.text.toList = [c]

/-- How the classifier is asked about the glyphs that have a pixel in the picture, in their order.
    Either each of them is an exchange, and those with a character are labeled, or the exchanges end
    before the first glyph on which the classifier gives up. -/
inductive Conducted (classify : Image kind → Except Error String) (image : Image kind)
    (style : CropStyle) (glyphs : List Glyph) (held : List (Exchange kind)) :
    List (Image kind) → Except Failure (List Glyph) → Prop
  | finished {crops : List (Image kind)} {labeled : List Glyph}
      (hasked : visibleIn image glyphs = held.map (·.glyph))
      (hshown : crops = held.map (·.crop))
      (hlabeled : List.Forall₂ Exchange.Labels (held.filter fun e => e.HasCharacter) labeled) :
      Conducted classify image style glyphs held crops (.ok labeled)
  | refused {crops : List (Image kind)} {g : Glyph} {rest : List Glyph} {crop : Image kind}
      {error : Error}
      (hasked : visibleIn image glyphs = held.map (·.glyph) ++ g :: rest)
      (hshown : crops = held.map (·.crop) ++ [crop])
      (hcrop : g.prepared image style = .ok crop) (hrefused : classify crop = .error error) :
      Conducted classify image style glyphs held crops (.error (.reported error))

variable {classify : Image kind → Except Error String} {image : Image kind} {style : CropStyle}
  {g : Glyph} {glyphs : List Glyph} {held : List (Exchange kind)} {crops : List (Image kind)}
  {outcome : Except Failure (List Glyph)}

theorem visibleIn_cons_of_isEmpty (h : (image.crop g.rect).IsEmpty) (glyphs : List Glyph) :
    visibleIn image (g :: glyphs) = visibleIn image glyphs := by
  apply List.filter_cons_of_neg
  unfold Image.IsEmpty at h
  simp only [decide_eq_true_eq]
  omega

theorem visibleIn_cons_of_not_isEmpty (h : ¬ (image.crop g.rect).IsEmpty) (glyphs : List Glyph) :
    visibleIn image (g :: glyphs) = g :: visibleIn image glyphs := by
  apply List.filter_cons_of_pos
  unfold Image.IsEmpty at h
  simp only [decide_eq_true_eq]
  omega

theorem Exchange.labels_withCharacter {e : Exchange kind} {c : Char}
    (h : firstCharacter? e.answer = some c) : e.Labels (e.glyph.withCharacter c) := by
  obtain ⟨rest, hline⟩ := firstCharacter?_eq_some_iff.1 h
  exact ⟨rfl, rfl, rfl, c, rest, hline, ne_of_firstCharacter? h, String.toList_singleton c⟩

theorem Exchange.not_hasCharacter {e : Exchange kind} (h : firstCharacter? e.answer = none) :
    ¬ e.HasCharacter := by
  rintro ⟨c, rest, hline⟩
  rw [firstCharacter?_eq_some_iff.2 ⟨rest, hline⟩] at h
  cases h

/-- A glyph without a pixel in the picture is not asked about. -/
theorem Conducted.skip (h : Conducted classify image style glyphs held crops outcome)
    (hempty : (image.crop g.rect).IsEmpty) :
    Conducted classify image style (g :: glyphs) held crops outcome := by
  cases h with
  | finished hasked hshown hlabeled =>
    exact .finished ((visibleIn_cons_of_isEmpty hempty _).trans hasked) hshown hlabeled
  | refused hasked hshown hcrop hrefused =>
    exact .refused ((visibleIn_cons_of_isEmpty hempty _).trans hasked) hshown hcrop hrefused

/-- An exchange goes in front of those about the glyphs behind it. -/
theorem Conducted.cons (h : Conducted classify image style glyphs held crops outcome)
    (e : Exchange kind) (hvisible : ¬ (image.crop e.glyph.rect).IsEmpty) :
    Conducted classify image style (e.glyph :: glyphs) (e :: held) (e.crop :: crops)
      (outcome.map (((firstCharacter? e.answer).map e.glyph.withCharacter).toList ++ ·)) := by
  have hcons := visibleIn_cons_of_not_isEmpty hvisible glyphs
  cases h with
  | finished hasked hshown hlabeled =>
    refine .finished (by simp [hcons, hasked]) (by simp [hshown]) ?_
    cases hcharacter : firstCharacter? e.answer with
    | none =>
      rw [List.filter_cons_of_neg (by simpa using Exchange.not_hasCharacter hcharacter)]
      exact hlabeled
    | some c =>
      obtain ⟨rest, hline⟩ := firstCharacter?_eq_some_iff.1 hcharacter
      have hkept : e.HasCharacter := ⟨c, rest, hline⟩
      rw [List.filter_cons_of_pos (by simpa using hkept)]
      exact .cons (Exchange.labels_withCharacter hcharacter) hlabeled
  | refused hasked hshown hcrop hrefused =>
    exact .refused (by rw [hcons, hasked]; rfl) (by simp [hshown]) hcrop hrefused

/-- What is shown after the pictures that were shown before. -/
theorem labelFrom_conducted {shown : List (Image kind)}
    (hfits : (labelFrom (fun _ crop => classify crop) image style shown glyphs).NoOverflow) :
    ∃ held crops, (∀ e ∈ held, e.Held classify image style) ∧
      (labelFrom (fun _ crop => classify crop) image style shown glyphs).shown = shown ++ crops ∧
      Conducted classify image style glyphs held crops
        (labelFrom (fun _ crop => classify crop) image style shown glyphs).outcome := by
  induction glyphs generalizing shown with
  | nil => exact ⟨[], [], by simp, by simp [labelFrom], .finished rfl rfl .nil⟩
  | cons g glyphs ih =>
    by_cases hempty : (image.crop g.rect).IsEmpty
    · rw [labelFrom, if_pos hempty] at hfits ⊢
      obtain ⟨held, crops, hheld, hshown, hconducted⟩ := ih hfits
      exact ⟨held, crops, hheld, hshown, hconducted.skip hempty⟩
    · obtain ⟨crop, hcrop⟩ := exists_prepared_of_labelFrom hempty hfits
      cases hanswer : classify crop with
      | error error =>
        simp only [labelFrom, if_neg hempty, hcrop, hanswer]
        have hcons := visibleIn_cons_of_not_isEmpty hempty glyphs
        exact ⟨[], [crop], by simp, rfl, .refused hcons rfl hcrop hanswer⟩
      | ok answer =>
        rw [labelFrom_cons_of_answer hempty hcrop hanswer] at hfits ⊢
        obtain ⟨held, crops, hheld, hshown, hconducted⟩ := ih hfits.of_map
        refine ⟨⟨g, crop, answer⟩ :: held, crop :: crops, ?_, ?_, ?_⟩
        · exact List.forall_mem_cons.2 ⟨⟨hcrop, hanswer⟩, hheld⟩
        · exact hshown.trans (List.append_cons _ _ _).symm
        · exact hconducted.cons ⟨g, crop, answer⟩ hempty

/-- A classifier that only looks at the picture is asked about the glyphs that have a pixel there,
    once each and in their order, until it gives up for the first time. That ends the labeling. If
    it never gives up, then exactly the glyphs with a character in the answer's first line are
    labeled, and nothing but their text changes. -/
theorem labelAll_conducted
    (hfits : (labelAll (fun _ crop => classify crop) image style glyphs).NoOverflow) :
    ∃ held, (∀ e ∈ held, e.Held classify image style) ∧
      Conducted classify image style glyphs held
        (labelAll (fun _ crop => classify crop) image style glyphs).shown
        (labelAll (fun _ crop => classify crop) image style glyphs).outcome := by
  obtain ⟨held, crops, hheld, hshown, hconducted⟩ := labelFrom_conducted hfits
  refine ⟨held, hheld, ?_⟩
  unfold labelAll
  rw [hshown]
  exact hconducted

private def canvas : Image .gray8 :=
  Image.ofFn 9 4 fun x _ => { Pixel.blank with colour := Vector.replicate _ (x.castLE (by decide)) }

/-- Two glyphs with an answer, one of them with an empty line at its start, a glyph outside the
    picture, one that the classifier gives up on, and one behind it. -/
private def queue : List Glyph :=
  [⟨[], [], ⟨0, 0, 1, 2⟩, ""⟩, ⟨[], [], ⟨20, 0, 1, 2⟩, ""⟩, ⟨[], [], ⟨1, 0, 2, 2⟩, ""⟩,
    ⟨[], [], ⟨3, 0, 3, 2⟩, ""⟩, ⟨[], [], ⟨6, 0, 1, 2⟩, ""⟩]

private def givesUpOnWide (crop : Image .gray8) : Except Error String :=
  if crop.width = 3 then .error (.runtime "too wide")
  else .ok (if crop.width = 2 then "\r\nx" else "ab\ny")

/-- Three pictures are shown. The glyph behind the third is not asked about. -/
theorem labelAll_conducted_queue :
    (labelAll (fun _ crop => givesUpOnWide crop) canvas ⟨false, true⟩ queue).outcome =
        .error (.reported (.runtime "too wide")) ∧
      ∃ held, (∀ e ∈ held, e.Held givesUpOnWide canvas ⟨false, true⟩) ∧ held.length = 2 ∧
        Conducted givesUpOnWide canvas ⟨false, true⟩ queue held
          (labelAll (fun _ crop => givesUpOnWide crop) canvas ⟨false, true⟩ queue).shown
          (.error (.reported (.runtime "too wide"))) := by
  have hrun : (labelAll (fun _ crop => givesUpOnWide crop) canvas ⟨false, true⟩ queue).outcome =
      .error (.reported (.runtime "too wide")) := by decide +kernel
  have hlength : (labelAll (fun _ crop => givesUpOnWide crop) canvas ⟨false, true⟩
      queue).shown.length = 3 := by
    decide +kernel
  have hfits : Transcript.NoOverflow
      (labelAll (fun _ crop => givesUpOnWide crop) canvas ⟨false, true⟩ queue) := by
    intro operation herror
    rw [hrun] at herror
    cases herror
  obtain ⟨held, hheld, hconducted⟩ := labelAll_conducted hfits
  rw [hrun] at hconducted
  refine ⟨hrun, held, hheld, ?_, hconducted⟩
  cases hconducted with
  | refused hasked hshown hcrop hrefused =>
    rw [hshown] at hlength
    simpa using hlength

end ScoreOverlay.Glyph
