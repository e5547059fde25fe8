import ScoreOverlay.Binary.Scalar

namespace ScoreOverlay

/-- The decimal number `coefficient * 10 ^ exponent`. -/
structure Decimal where
  coefficient : Nat
  exponent : Int
deriving DecidableEq, Repr

namespace Decimal

def value (d : Decimal) : Rat := d.coefficient * (10 : Rat) ^ d.exponent

/-- Whether `q` rounds to `v`, for a positive number `v` of the format. The bounds lie half way to
    the neighbours of `v`; below a power of two the neighbour is nearer. The bounds themselves go
    to `v` exactly when its significand is even. -/
def ReadsBackAs (f : Binary.Format) (v q : Rat) : Prop :=
  let quantum := (2 : Rat) ^ f.quantumExponent v
  let significand := (v / quantum).floor
  let atBinade := significand = f.binade ∧ f.minExponent < f.quantumExponent v
  let low := v - (if atBinade then quantum / 4 else quantum / 2)
  let high := v + quantum / 2
  if significand % 2 = 0 then low ≤ q ∧ q ≤ high else low < q ∧ q < high

instance (f : Binary.Format) (v q : Rat) : Decidable (ReadsBackAs f v q) := by
  unfold ReadsBackAs; infer_instance

/-- The multiple of `10 ^ exponent` next to `v` that reads back as `v`. If both neighbours do, it
    is the nearer one, and the upper one of two at the same distance. -/
def nextTo? (f : Binary.Format) (v : Rat) (exponent : Int) : Option Decimal :=
  let below : Decimal := ⟨(v / (10 : Rat) ^ exponent).floor.toNat, exponent⟩
  let above : Decimal := ⟨below.coefficient + 1, exponent⟩
  if ReadsBackAs f v below.value then
    if ReadsBackAs f v above.value ∧ above.value - v ≤ v - below.value then some above
    else some below
  else if ReadsBackAs f v above.value then some above
  else none

/-- Searches the grids of multiples of a power of ten, from coarse to fine. -/
def search (f : Binary.Format) (v : Rat) : Nat → Int → Option Decimal
  | 0, _ => none
  | rounds + 1, exponent =>
    match nextTo? f v exponent with
    | some d => some d
    | none => search f v rounds (exponent - 1)

/-- The decimal number with the fewest digits that reads back as `v`, for a positive number `v` of
    the format. The search starts on a grid coarser than `v`, and the number of digits that always
    suffices grows with the precision. -/
def shortest (f : Binary.Format) (v : Rat) : Decimal :=
  let coarsest := (Binary.floorLog2 v + 1) * 30103 / 100000 + 1
  (search f v (f.precision + 3) coarsest).getD ⟨0, 0⟩

/-- Digits with a point where needed, and never an exponent. -/
def positional (d : Decimal) : String :=
  let digits := Nat.toDigits 10 d.coefficient
  let zeros (n : Nat) := List.replicate n '0'
  String.ofList <|
    if 0 ≤ d.exponent then digits ++ zeros d.exponent.toNat
    else
      let places := (-d.exponent).toNat
      if places < digits.length then
        digits.take (digits.length - places) ++ '.' :: digits.drop (digits.length - places)
      else '0' :: '.' :: (zeros (places - digits.length) ++ digits)

end Decimal

/-- A number of the format in the fewest digits. Whole numbers have no point, and the zero below
    zero keeps its sign. -/
def Binary.Scalar.text (f : Binary.Format) : Binary.Scalar → String
  | nan => "NaN"
  | negInfinity => "-inf"
  | posInfinity => "inf"
  | negZero => "-0"
  | finite value =>
    if value = 0 then "0"
    else if value < 0 then "-" ++ (Decimal.shortest f (-value)).positional
    else (Decimal.shortest f value).positional

end ScoreOverlay
