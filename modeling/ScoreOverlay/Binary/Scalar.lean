import ScoreOverlay.Binary.Format

namespace ScoreOverlay.Binary

/-- A floating point number of any format: a finite value, the zero below zero, an infinity, or
    the value that is no number. Thresholds and ratios come from outside and can be any of them;
    what is computed from coordinates is finite and stays a plain rational. -/
inductive Scalar where
  | nan
  | negInfinity
  | posInfinity
  | negZero
  | finite (value : Rat)
deriving DecidableEq, Repr

namespace Scalar

instance : Coe Rat Scalar := ⟨finite⟩

instance : OfNat Scalar n := ⟨finite n⟩

/-- The finite value, where there is one. Both zeros have the value zero. -/
def value? : Scalar → Option Rat
  | finite value => some value
  | negZero => some 0
  | _ => none

/-- Strict order. Nothing is less than `nan`, and `nan` is less than nothing. -/
def lt : Scalar → Scalar → Bool
  | nan, _ => false
  | _, nan => false
  | _, negInfinity => false
  | posInfinity, _ => false
  | negInfinity, _ => true
  | _, posInfinity => true
  | x, y => (x.value?.getD 0 : Rat) < y.value?.getD 0

/-- Order with equality, which `nan` does not even have to itself. -/
def le : Scalar → Scalar → Bool
  | nan, _ => false
  | _, nan => false
  | negInfinity, _ => true
  | _, posInfinity => true
  | _, negInfinity => false
  | posInfinity, _ => false
  | x, y => (x.value?.getD 0 : Rat) ≤ y.value?.getD 0

instance : LT Scalar := ⟨fun x y => x.lt y = true⟩

instance : LE Scalar := ⟨fun x y => x.le y = true⟩

instance (x y : Scalar) : Decidable (x < y) := inferInstanceAs (Decidable (x.lt y = true))

instance (x y : Scalar) : Decidable (x ≤ y) := inferInstanceAs (Decidable (x.le y = true))

def IsFinite (x : Scalar) : Prop := x.value?.isSome = true

instance (x : Scalar) : Decidable x.IsFinite :=
  inferInstanceAs (Decidable (x.value?.isSome = true))

/-- The nearest number of the format. What is too large becomes an infinity, and what is too small
    a zero with the sign of `q`. -/
def ofRat (f : Format) (q : Rat) : Scalar :=
  let rounded := f.round q
  if f.Overflows rounded then if q < 0 then negInfinity else posInfinity
  else if rounded = 0 ∧ q < 0 then negZero
  else finite rounded

/-- The product of a finite number and a scalar, in the format `f`. -/
def scale (f : Format) (factor : Rat) : Scalar → Scalar
  | nan => nan
  | negInfinity => if factor < 0 then posInfinity else if 0 < factor then negInfinity else nan
  | posInfinity => if factor < 0 then negInfinity else if 0 < factor then posInfinity else nan
  | negZero => if factor < 0 then 0 else negZero
  | finite value => if value = 0 ∧ factor < 0 then negZero else ofRat f (factor * value)

end Scalar

end ScoreOverlay.Binary
