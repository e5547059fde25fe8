import ScoreOverlay.Reader
import ScoreOverlay.Proofs.Field.Selection
import ScoreOverlay.Proofs.Labeling.Transcript

namespace ScoreOverlay

/-- For labeled glyphs, a field has some of all words. -/
theorem Settings.fieldWords_sublist {settings : Settings} {glyphs : List Glyph} {frame : Frame}
    {field : Field} (hall : NoOverflow (settings.allWords glyphs))
    (hfield : NoOverflow (settings.fieldWords glyphs frame field)) :
    ∃ all words, settings.allWords glyphs = .ok all ∧
      settings.fieldWords glyphs frame field = .ok words ∧ words.Sublist all := by
  obtain ⟨all, hall⟩ := (settings.allWords_inBounds glyphs).exists_ok hall
  obtain ⟨clusters, hgroup, hclusters⟩ := bind_eq_ok_iff.1 hall
  obtain ⟨words, hwords, kept, hsublist, hkept⟩ :=
    (settings.fieldWords_ensures hgroup frame field).exists_ok hfield
  exact ⟨all, words, hall, hwords, Word.ofClusters_sublist hsublist hkept hclusters⟩

namespace Reader

/-- Reading a field only selects among the words of the picture. It shows the classifier the same
    pictures as reading all words and fails where that fails. Otherwise it gives some of those
    words, in their order and with their texts and centers. This holds for every classifier,
    also for one that remembers the pictures it has seen. -/
theorem readField_selects {reader : Reader} {kind : PixelKind} {classify : Classifier kind}
    {image : Image kind} {outlines : List Outline} {field : Field}
    (hall : (reader.readWords classify image outlines).NoOverflow)
    (hfield : (reader.readField classify image outlines field).NoOverflow) :
    (reader.readField classify image outlines field).shown =
        (reader.readWords classify image outlines).shown ∧
      match (reader.readWords classify image outlines).outcome with
      | .error failure =>
        (reader.readField classify image outlines field).outcome = .error failure
      | .ok all => ∃ words,
        (reader.readField classify image outlines field).outcome = .ok words ∧
          words.Sublist all := by
  refine ⟨rfl, ?_⟩
  cases hlabeled : (reader.labeled classify image outlines).outcome with
  | error failure =>
    have herror : (reader.readWords classify image outlines).outcome = .error failure :=
      Transcript.andThen_of_error hlabeled
    rw [herror]
    exact Transcript.andThen_of_error hlabeled
  | ok glyphs =>
    obtain ⟨all, words, hall, hwords, hsublist⟩ :=
      Settings.fieldWords_sublist (hall.next hlabeled) (hfield.next hlabeled)
    have hok : (reader.readWords classify image outlines).outcome = .ok all :=
      Transcript.andThen_eq_ok hlabeled hall
    rw [hok]
    exact ⟨words, Transcript.andThen_eq_ok hlabeled hwords, hsublist⟩

/-- The outline of a rectangle of pixels. -/
private def frameOf (x y width height : Int) : Outline :=
  [⟨x, y⟩, ⟨x + width - 1, y⟩, ⟨x + width - 1, y + height - 1⟩, ⟨x, y + height - 1⟩]

/-- Two names on both sides of the center line and something on the line itself. -/
private def names : List Outline := [frameOf 8 2 8 12, frameOf 35 2 10 12, frameOf 64 2 9 12]

private def canvas : Image .gray8 := Image.ofFn 80 16 fun _ _ => Pixel.blank.inverted

private def byWidth : Classifier .gray8 := fun _ crop =>
  .ok (if crop.width = 8 then "a" else if crop.width = 9 then "b" else "-")

private def usual : Reader := ⟨{}, Settings.valid_default⟩

private def labeledNames : List Glyph :=
  [⟨frameOf 8 2 8 12, [], ⟨8, 2, 8, 12⟩, "a"⟩, ⟨frameOf 35 2 10 12, [], ⟨35, 2, 10, 12⟩, "-"⟩,
    ⟨frameOf 64 2 9 12, [], ⟨64, 2, 9, 12⟩, "b"⟩]

theorem readField_selects_names :
    (usual.readWords byWidth canvas names).outcome =
        .ok [⟨"A", ⟨12, 8⟩⟩, ⟨"-", ⟨40, 8⟩⟩, ⟨"B", ⟨68, 8⟩⟩] ∧
      (usual.readField byWidth canvas names .name).shown =
        (usual.readWords byWidth canvas names).shown ∧
      ∃ words, (usual.readField byWidth canvas names .name).outcome = .ok words ∧
        words.Sublist [⟨"A", ⟨12, 8⟩⟩, ⟨"-", ⟨40, 8⟩⟩, ⟨"B", ⟨68, 8⟩⟩] := by
  have hlabeled : (usual.labeled byWidth canvas names).outcome = .ok labeledNames := by
    decide +kernel
  have hgroup : Glyph.group labeledNames = .ok (labeledNames.reverse.map ([·])) := by
    decide +kernel
  have hall : usual.settings.allWords labeledNames =
      .ok [⟨"A", ⟨12, 8⟩⟩, ⟨"-", ⟨40, 8⟩⟩, ⟨"B", ⟨68, 8⟩⟩] := by
    unfold Settings.allWords
    rw [hgroup, ok_bind]
    simp only [Word.ofClusters, Word.ofCluster?, Word.sortByX_eq_insertionSort]
    decide +kernel
  have hwords : (usual.readWords byWidth canvas names).outcome =
      .ok [⟨"A", ⟨12, 8⟩⟩, ⟨"-", ⟨40, 8⟩⟩, ⟨"B", ⟨68, 8⟩⟩] :=
    Transcript.andThen_eq_ok hlabeled hall
  obtain ⟨hshown, hfield⟩ := @readField_selects usual _ byWidth canvas names .name
    (Transcript.noOverflow_of_isOk (by decide +kernel))
    (Transcript.noOverflow_of_isOk (by decide +kernel))
  rw [hwords] at hfield
  exact ⟨hwords, hshown, hfield⟩

end Reader

end ScoreOverlay
