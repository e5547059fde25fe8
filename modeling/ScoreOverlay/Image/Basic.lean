import ScoreOverlay.Geometry.Rect

namespace ScoreOverlay

/-- The kinds of pixels: one or three colour channels of 8 or 16 bits, with or without alpha. Kinds
    whose channels are floating point numbers are not among them. -/
inductive PixelKind where
  | gray8
  | grayAlpha8
  | rgb8
  | rgba8
  | gray16
  | grayAlpha16
  | rgb16
  | rgba16
deriving DecidableEq, Repr

namespace PixelKind

/-- The number of channels that carry colour. -/
def colours : PixelKind → Nat
  | gray8 | grayAlpha8 | gray16 | grayAlpha16 => 1
  | rgb8 | rgba8 | rgb16 | rgba16 => 3

/-- The number of channels that carry opacity. -/
def alphas : PixelKind → Nat
  | grayAlpha8 | rgba8 | grayAlpha16 | rgba16 => 1
  | gray8 | rgb8 | gray16 | rgb16 => 0

/-- The greatest value of a channel. -/
def greatest : PixelKind → Nat
  | gray8 | grayAlpha8 | rgb8 | rgba8 => 255
  | gray16 | grayAlpha16 | rgb16 | rgba16 => 65535

/-- The values that a channel can have. -/
abbrev Channel (kind : PixelKind) := Fin (kind.greatest + 1)

end PixelKind

/-- The channel values of a pixel. -/
structure Pixel (kind : PixelKind) where
  colour : Vector kind.Channel kind.colours
  alpha : Vector kind.Channel kind.alphas
deriving DecidableEq, Repr

namespace Pixel

variable {kind : PixelKind}

/-- Opaque black. -/
def blank : Pixel kind := ⟨Vector.replicate _ 0, Vector.replicate _ (Fin.last _)⟩

/-- The pixel with its colours turned to their opposites. Alpha stays. -/
def inverted (p : Pixel kind) : Pixel kind :=
  { p with colour := Vector.ofFn fun channel => p.colour[channel].rev }

end Pixel

/-- A picture, as rows of pixels from the top. -/
structure Image (kind : PixelKind) where
  width : Nat
  height : Nat
  rows : Vector (Vector (Pixel kind) width) height
deriving DecidableEq, Repr

namespace Image

variable {kind : PixelKind}

/-- The picture whose pixel in column `x` of row `y` is `f x y`. -/
def ofFn (width height : Nat) (f : Fin width → Fin height → Pixel kind) : Image kind :=
  ⟨width, height, Vector.ofFn fun y => Vector.ofFn fun x => f x y⟩

def pixel (image : Image kind) (x : Fin image.width) (y : Fin image.height) : Pixel kind :=
  image.rows[y][x]

/-- The pixel in column `x` of row `y`, if the picture has one there. -/
def pixel? (image : Image kind) (x y : Nat) : Option (Pixel kind) :=
  if h : x < image.width ∧ y < image.height then some (image.pixel ⟨x, h.1⟩ ⟨y, h.2⟩) else none

/-- The picture has no pixel. -/
def IsEmpty (image : Image kind) : Prop := image.width = 0 ∨ image.height = 0

instance (image : Image kind) : Decidable image.IsEmpty :=
  inferInstanceAs (Decidable (image.width = 0 ∨ image.height = 0))

/-- The picture's size as a frame for coordinates. -/
def frame (image : Image kind) : Frame := Frame.ofPixels image.width image.height

/-- Replaces each pixel by a value computed from its position and the pixel itself. -/
def mapPixels (image : Image kind) (f : Nat → Nat → Pixel kind → Pixel kind) : Image kind :=
  ofFn image.width image.height fun x y => f x y (image.pixel x y)

def inverted (image : Image kind) : Image kind := image.mapPixels fun _ _ p => p.inverted

/-- The part of the picture that starts at the rectangle's corner and has its size, as far as there
    are pixels. A negative corner moves to zero and does not make the part smaller. -/
def crop (image : Image kind) (r : Rect) : Image kind :=
  let left := min r.x.toNat image.width
  let top := min r.y.toNat image.height
  ofFn (min r.width.toNat (image.width - left)) (min r.height.toNat (image.height - top))
    fun x y => image.pixel ⟨left + x, by omega⟩ ⟨top + y, by omega⟩

end Image

end ScoreOverlay
