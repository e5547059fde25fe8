import ScoreOverlay.Binary.Scalar
import ScoreOverlay.Geometry.Point

namespace ScoreOverlay

/-- A rectangle of pixels with its sides along the axes. Sizes are not assumed to be positive: a
    rectangle without positive width and height covers no pixel. -/
structure Rect where
  x : Int
  y : Int
  width : Int
  height : Int
deriving DecidableEq, Repr

namespace Rect

/-- Negative sizes become zero. -/
def clamped (x y width height : Int) : Rect := ⟨x, y, max width 0, max height 0⟩

/-- The first column to the right of the rectangle. -/
def right (r : Rect) : Checked Int := Coordinate.add r.x r.width

/-- The first row below the rectangle. -/
def bottom (r : Rect) : Checked Int := Coordinate.add r.y r.height

def IsEmpty (r : Rect) : Prop := r.width ≤ 0 ∨ r.height ≤ 0

instance (r : Rect) : Decidable r.IsEmpty :=
  inferInstanceAs (Decidable (r.width ≤ 0 ∨ r.height ≤ 0))

/-- The pixel `p` lies in the rectangle. -/
def Covers (r : Rect) (p : Point) : Prop :=
  r.x ≤ p.x ∧ p.x < r.x + r.width ∧ r.y ≤ p.y ∧ p.y < r.y + r.height

instance (r : Rect) (p : Point) : Decidable (r.Covers p) :=
  inferInstanceAs
    (Decidable (r.x ≤ p.x ∧ p.x < r.x + r.width ∧ r.y ≤ p.y ∧ p.y < r.y + r.height))

/-- The product of the sides. It is no coordinate, so it is not bounded like one. -/
def area (r : Rect) : Int := r.width * r.height

def center (r : Rect) : Checked Point := do
  return ⟨← Coordinate.add r.x (r.width.tdiv 2), ← Coordinate.add r.y (r.height.tdiv 2)⟩

/-- The least rectangle around both. -/
def union (r s : Rect) : Checked Rect := do
  let x := min r.x s.x
  let y := min r.y s.y
  let width ← Coordinate.sub (max (← r.right) (← s.right)) x
  let height ← Coordinate.sub (max (← r.bottom) (← s.bottom)) y
  return clamped x y width height

/-- The number of pixels that both rectangles cover. -/
def sharedArea (r s : Rect) : Checked Int := do
  let width ← Coordinate.sub (min (← r.right) (← s.right)) (max r.x s.x)
  let height ← Coordinate.sub (min (← r.bottom) (← s.bottom)) (max r.y s.y)
  return if 0 < width ∧ 0 < height then width * height else 0

/-- The part that `shared` pixels are of an area, in `binary64`. -/
def coverage (shared area : Int) : Rat :=
  Binary.binary64.round (Binary.binary64.round shared / Binary.binary64.round area)

/-- The shared pixels are more than `threshold` of one of the two areas. An empty rectangle
    overlaps nothing. -/
def overlaps (r s : Rect) (threshold : Binary.Scalar) : Checked Bool := do
  let shared ← r.sharedArea s
  if shared = 0 then return false
  return [r.area, s.area].any fun area => 0 < area ∧ threshold < (coverage shared area : Rat)

end Rect

end ScoreOverlay
