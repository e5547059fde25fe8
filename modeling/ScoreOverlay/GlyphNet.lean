import ScoreOverlay.Image.Levels
import ScoreOverlay.Labeling

namespace ScoreOverlay

/-- A trained network and what it takes to use it. A score is known by the `binary32` number that it
    stands for and by its rank; one that is no number has a rank as well. -/
structure Network (Score : Type) where
  /-- Brings a picture to the given width and height. -/
  resize : {kind : PixelKind} → Image kind → Nat → Nat → Image kind
  /-- Scores the levels of a picture, once for every glyph that is known. There may be no output. -/
  run : {width height : Nat} → Levels width height → Except String (Option (List Score))
  value : Score → Binary.Scalar
  rank : Score → Nat

namespace Network

variable {Score : Type}

/-- Of two scores with their positions the later one is taken, unless it has the lower rank. -/
def better (network : Network Score) (best? : Option (Score × Nat)) (entry : Score × Nat) :
    Option (Score × Nat) :=
  match best? with
  | none => some entry
  | some best => if network.rank entry.1 < network.rank best.1 then some best else some entry

/-- The score of the highest rank and its position. If there are several it is the last one. -/
def best? (network : Network Score) (scores : List Score) : Option (Score × Nat) :=
  scores.zipIdx.foldl network.better none

end Network

/-- A network with the list of glyphs that it knows. -/
structure GlyphNet (Score : Type) where
  network : Network Score
  /-- The known glyphs, in the order of their scores. -/
  keys : List String
  /-- The width of the pictures that the network works on. -/
  inputWidth : Nat := 24
  inputHeight : Nat := 32
  /-- The least score at which a glyph counts as recognised. -/
  minScore : Binary.Scalar := 0

namespace GlyphNet

variable {Score : Type} {kind : PixelKind}

/-- Opens a network, and then reads the glyphs that it knows from a text with one on each line. -/
def load (network : Except String (Network Score)) (readText : String → Except String String)
    (keysPath : String) : Except Error (GlyphNet Score) := do
  let network ← network.mapError Error.runtime
  let text ← (readText keysPath).mapError (Error.glyphKeys keysPath)
  return { network, keys := (Text.lines text.toList).map String.ofList }

/-- The scores of the known glyphs for a picture. -/
def scores? (net : GlyphNet Score) (image : Image kind) : Except Error (Option (List Score)) :=
  let scaled := net.network.resize image net.inputWidth net.inputHeight
  (net.network.run scaled.levels).mapError Error.runtime

/-- The known glyph with the best score, or nothing if that score is too low. -/
def classify (net : GlyphNet Score) (image : Image kind) : Except Error String := do
  match (← net.scores? image).bind net.network.best? with
  | none => return ""
  | some (score, position) =>
    if net.minScore ≤ net.network.value score then return net.keys[position]?.getD ""
    return ""

end GlyphNet

end ScoreOverlay
