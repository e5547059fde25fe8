import ScoreOverlay.Field
import ScoreOverlay.Labeling

namespace ScoreOverlay

/-- Reads fields out of pictures of a score overlay. Its settings are valid. -/
structure Reader where
  settings : Settings
  valid : settings.Valid

namespace Reader

/-- A reader with the given settings, or the first condition that they do not meet. -/
def ofSettings (settings : Settings) : Except Error Reader :=
  match h : settings.violation? with
  | none => .ok ⟨settings, settings.valid_iff_violation?_eq_none.2 h⟩
  | some violation => .error (.invalidSetting violation)

/-- A reader whose settings come from assignments to the default ones. Only the outcome has to be
    valid. -/
def ofUpdates (updates : List Settings.Update) : Except Error Reader :=
  ofSettings (Settings.ofUpdates updates)

/-- How the reader cuts out glyphs. -/
def style (reader : Reader) : CropStyle := ⟨reader.settings.mask, reader.settings.invert⟩

variable {kind : PixelKind}

/-- The glyphs that outlines stand for, with the characters that the classifier sees. -/
def labeled (reader : Reader) (classify : Classifier kind) (image : Image kind)
    (outlines : List Outline) : Transcript kind (List Glyph) :=
  match reader.settings.findGlyphs outlines image.frame with
  | .error fault => ⟨[], .error (.fault fault)⟩
  | .ok glyphs => Glyph.labelAll classify image reader.style glyphs

/-- Every word in the picture, from left to right. -/
def readWords (reader : Reader) (classify : Classifier kind) (image : Image kind)
    (outlines : List Outline) : Transcript kind (List Word) :=
  (reader.labeled classify image outlines).andThen reader.settings.allWords

/-- The words of a field in the picture, from left to right. -/
def readField (reader : Reader) (classify : Classifier kind) (image : Image kind)
    (outlines : List Outline) (field : Field) : Transcript kind (List Word) :=
  (reader.labeled classify image outlines).andThen fun glyphs =>
    reader.settings.fieldWords glyphs image.frame field

end Reader

end ScoreOverlay
