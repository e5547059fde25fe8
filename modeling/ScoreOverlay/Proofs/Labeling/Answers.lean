import ScoreOverlay.Proofs.Image.Bounds
import ScoreOverlay.Proofs.Labeling.Transcript
import ScoreOverlay.Proofs.Text.Line

namespace ScoreOverlay

namespace Glyph

variable {kind : PixelKind}

/-- The character that is trusted is the first one of the first line, which must not be empty. -/
theorem firstCharacter?_eq_some_iff {answer : String} {c : Char} :
    firstCharacter? answer = some c ↔ ∃ rest, Text.IsFirstLine (c :: rest) answer.toList := by
  simp only [firstCharacter?, Option.bind_eq_some_iff, Text.firstLine?_eq_some_iff,
    List.head?_eq_some_iff]
  constructor
  · rintro ⟨line, hline, rest, rfl⟩
    exact ⟨rest, hline⟩
  · rintro ⟨rest, hline⟩
    exact ⟨c :: rest, hline, rest, rfl⟩

theorem ne_of_firstCharacter? {answer : String} {c : Char} (h : firstCharacter? answer = some c) :
    c ≠ '\n' := by
  obtain ⟨rest, hline⟩ := firstCharacter?_eq_some_iff.1 h
  exact (List.ne_and_not_mem_of_not_mem_cons hline.not_mem).1.symm

/-- The character that is seen in a glyph by a classifier whose answer only depends on the picture.
    A glyph with no pixel in the picture is not shown to it. -/
def character? (answer : Image kind → String) (image : Image kind) (style : CropStyle)
    (g : Glyph) : Option Char :=
  if (image.crop g.rect).IsEmpty then none
  else (g.prepared image style).toOption.bind fun crop => firstCharacter? (answer crop)

variable {answer : Image kind → String} {image : Image kind} {style : CropStyle}

/-- A glyph with a character has pixels, so it is never left out later. -/
theorem not_isEmpty_of_character? {g : Glyph} {c : Char}
    (h : g.character? answer image style = some c) : ¬ g.rect.IsEmpty := by
  intro hempty
  have hcrop : (image.crop g.rect).IsEmpty := by
    unfold Rect.IsEmpty at hempty
    unfold Image.IsEmpty Image.crop Image.ofFn
    simp only
    omega
  rw [character?, if_pos hcrop] at h
  cases h

theorem ne_of_character? {g : Glyph} {c : Char} (h : g.character? answer image style = some c) :
    c ≠ '\n' := by
  unfold character? at h
  split at h
  · cases h
  · obtain ⟨crop, -, hcharacter⟩ := Option.bind_eq_some_iff.1 h
    exact ne_of_firstCharacter? hcharacter

/-- A labeling without an overflow gets as far as the first glyph's picture. -/
theorem exists_prepared_of_labelFrom {classify : Classifier kind} {shown : List (Image kind)}
    {g : Glyph} {rest : List Glyph} (hvisible : ¬ (image.crop g.rect).IsEmpty)
    (hfits : (labelFrom classify image style shown (g :: rest)).NoOverflow) :
    ∃ crop, g.prepared image style = .ok crop := by
  apply (g.prepared_inBounds image style).exists_ok
  intro operation herror
  apply hfits operation
  rw [labelFrom, if_neg hvisible, herror]

/-- A glyph that is shown adds its picture, and its character if there is one. -/
theorem labelFrom_cons_of_shown {shown : List (Image kind)} {g : Glyph} {rest : List Glyph}
    {crop : Image kind}
    (hvisible : ¬ (image.crop g.rect).IsEmpty) (hcrop : g.prepared image style = .ok crop) :
    labelFrom (fun _ crop => .ok (answer crop)) image style shown (g :: rest) =
      (labelFrom (fun _ crop => .ok (answer crop)) image style (shown ++ [crop]) rest).map
        (((g.character? answer image style).map g.withCharacter).toList ++ ·) := by
  have hcharacter : g.character? answer image style = firstCharacter? (answer crop) := by
    rw [character?, if_neg hvisible, hcrop]
    rfl
  rw [hcharacter]
  exact labelFrom_cons_of_answer hvisible hcrop rfl

/-- A classifier that only looks at the picture and never fails is shown the glyphs that have pixels
    there, and exactly those in which it sees a character are labeled. -/
theorem labelFrom_answers {shown : List (Image kind)} {glyphs : List Glyph}
    (hfits : (labelFrom (fun _ crop => .ok (answer crop)) image style shown glyphs).NoOverflow) :
    ∃ crops,
      labelFrom (fun _ crop => .ok (answer crop)) image style shown glyphs =
        ⟨shown ++ crops, .ok (glyphs.filterMap fun g =>
          (g.character? answer image style).map g.withCharacter)⟩ ∧
      (glyphs.filter fun g => ¬ (image.crop g.rect).IsEmpty).map (·.prepared image style) =
        crops.map .ok := by
  induction glyphs generalizing shown with
  | nil => exact ⟨[], by simp [labelFrom], rfl⟩
  | cons g rest ih =>
    rw [List.filterMap_eq_flatMap_toList, List.flatMap_cons, ← List.filterMap_eq_flatMap_toList]
    by_cases hempty : (image.crop g.rect).IsEmpty
    · rw [labelFrom, if_pos hempty] at hfits ⊢
      obtain ⟨crops, hlabeled, hcrops⟩ := ih hfits
      refine ⟨crops, ?_, ?_⟩
      · rw [hlabeled, character?, if_pos hempty]
        rfl
      · rw [List.filter_cons_of_neg (by simpa using hempty), hcrops]
    · obtain ⟨crop, hcrop⟩ := exists_prepared_of_labelFrom hempty hfits
      rw [labelFrom_cons_of_shown hempty hcrop] at hfits ⊢
      obtain ⟨crops, hlabeled, hcrops⟩ := ih hfits.of_map
      refine ⟨crop :: crops, ?_, ?_⟩
      · rw [hlabeled, List.append_assoc]
        rfl
      · rw [List.filter_cons_of_pos (by simpa using hempty), List.map_cons, List.map_cons, hcrop,
          hcrops]

end Glyph

end ScoreOverlay
