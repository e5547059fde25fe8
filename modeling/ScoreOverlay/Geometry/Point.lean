import ScoreOverlay.Coordinate
import ScoreOverlay.Binary.Format

namespace ScoreOverlay

/-- A pixel position. The x axis points right and the y axis points down. -/
structure Point where
  x : Int
  y : Int
deriving DecidableEq, Repr, Inhabited

namespace Point

/-- The distance of two points, as the nearest number of `binary64`. Coordinates are small enough
    that the sum of squares is taken exactly. -/
def distance (p q : Point) : Rat :=
  Binary.binary64.sqrt ((p.x - q.x) * (p.x - q.x) + (p.y - q.y) * (p.y - q.y)).toNat

/-- The point as seen from `origin`. -/
def relativeTo (p origin : Point) : Checked Point := do
  return ⟨← Coordinate.sub p.x origin.x, ← Coordinate.sub p.y origin.y⟩

/-- The point with its axes exchanged. -/
def transposed (p : Point) : Point := ⟨p.y, p.x⟩

end Point

/-- The size of the picture that glyphs are found in. -/
structure Frame where
  width : Int
  height : Int
deriving DecidableEq, Repr

namespace Frame

/-- The frame of a picture with the given numbers of pixels, which count modulo the number of
    coordinates. -/
def ofPixels (width height : Nat) : Frame :=
  ⟨(width : Int).bmod Coordinate.count, (height : Int).bmod Coordinate.count⟩

/-- The vertical center line. -/
def middle (frame : Frame) : Int := frame.width.tdiv 2

end Frame

end ScoreOverlay
