import ScoreOverlay.Failure
import ScoreOverlay.Image.Mask
import ScoreOverlay.Text.Line

namespace ScoreOverlay

variable {kind : PixelKind}

/-- Recognises the glyph in a picture. It sees the pictures it was shown before, oldest first, and
    may give up with an error. -/
abbrev Classifier (kind : PixelKind) := List (Image kind) → Image kind → Except Error String

/-- A result with the pictures that a classifier was shown on the way to it. -/
structure Transcript (kind : PixelKind) (α : Type) where
  shown : List (Image kind)
  outcome : Except Failure α

namespace Transcript

variable {α β : Type}

/-- Passes a result on to a computation that shows no pictures. -/
def andThen (t : Transcript kind α) (f : α → Checked β) : Transcript kind β :=
  ⟨t.shown, t.outcome.bind fun a => (f a).mapError Failure.fault⟩

def map (t : Transcript kind α) (f : α → β) : Transcript kind β := ⟨t.shown, t.outcome.map f⟩

end Transcript

/-- How a glyph is cut out of the picture for the classifier. -/
structure CropStyle where
  /-- Hides what lies outside the glyph's outlines, so that a margin never shows a neighbour. -/
  mask : Bool := true
  /-- Inverts colours, for light glyphs on a dark overlay. -/
  invert : Bool := false
deriving DecidableEq, Repr

namespace Glyph

/-- The part of the picture at the glyph's rectangle, prepared for the classifier. -/
def prepared (g : Glyph) (image : Image kind) (style : CropStyle) : Checked (Image kind) := do
  let crop := image.crop g.rect
  let crop ←
    if style.mask then crop.masked ⟨max g.rect.x 0, max g.rect.y 0⟩ g.outlines else pure crop
  return if style.invert then crop.inverted else crop

/-- Of a classifier's answer only the first character of the first line is trusted. -/
def firstCharacter? (answer : String) : Option Char :=
  (Text.firstLine? answer.toList).bind List.head?

/-- The glyph with a character as its text. -/
def withCharacter (g : Glyph) (c : Char) : Glyph := { g with text := String.singleton c }

/-- Labels glyphs in order, given the pictures shown before. A glyph with no pixel in the picture is
    passed over without a question, one with an empty answer is dropped, and the first failure ends
    everything. -/
def labelFrom (classify : Classifier kind) (image : Image kind) (style : CropStyle) :
    List (Image kind) → List Glyph → Transcript kind (List Glyph)
  | shown, [] => ⟨shown, .ok []⟩
  | shown, g :: rest =>
    if (image.crop g.rect).IsEmpty then labelFrom classify image style shown rest
    else
      match g.prepared image style with
      | .error fault => ⟨shown, .error (.fault fault)⟩
      | .ok crop =>
        match classify shown crop with
        | .error error => ⟨shown ++ [crop], .error (.reported error)⟩
        | .ok answer =>
          let others := labelFrom classify image style (shown ++ [crop]) rest
          match firstCharacter? answer with
          | none => others
          | some c => others.map (g.withCharacter c :: ·)

/-- Gives each glyph the character that the classifier sees in it. -/
def labelAll (classify : Classifier kind) (image : Image kind) (style : CropStyle)
    (glyphs : List Glyph) : Transcript kind (List Glyph) :=
  labelFrom classify image style [] glyphs

end Glyph

end ScoreOverlay
