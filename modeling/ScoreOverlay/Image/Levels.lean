import ScoreOverlay.Image.Basic

namespace ScoreOverlay

variable {kind : PixelKind}

namespace PixelKind

/-- A channel value as a part of the greatest one, in `binary32`. Gray values are multiplied by the
    rounded inverse and colour values divided, so the two can differ in the last bit. -/
def part (kind : PixelKind) (value : kind.Channel) : Rat :=
  let round := Binary.binary32.round
  if kind.colours = 1 then round (value.val * round (1 / kind.greatest))
  else round (value.val / kind.greatest)

/-- A channel value, moved from the range of zero to one to that of minus one to one. -/
def level (kind : PixelKind) (value : kind.Channel) : Rat :=
  let round := Binary.binary32.round
  round (round (kind.part value * 2) - 1)

/-- The channel that carries one of the three colours. A gray pixel has one channel for all. -/
def carrier (kind : PixelKind) (colour : Fin 3) : Fin kind.colours :=
  match kind with
  | gray8 | grayAlpha8 | gray16 | grayAlpha16 => (0 : Fin 1)
  | rgb8 | rgba8 | rgb16 | rgba16 => colour

end PixelKind

/-- The level of one of the three colours of a pixel. -/
def Pixel.level (p : Pixel kind) (colour : Fin 3) : Rat := kind.level p.colour[kind.carrier colour]

/-- Numbers by colour, row and column. -/
abbrev Levels (width height : Nat) := Vector (Vector (Vector Rat width) height) 3

/-- The levels of all pixels. Opacity does not matter. -/
def Image.levels (image : Image kind) : Levels image.width image.height :=
  Vector.ofFn fun colour => Vector.ofFn fun y => Vector.ofFn fun x =>
    (image.pixel x y).level colour

end ScoreOverlay
