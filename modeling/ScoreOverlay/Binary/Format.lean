namespace ScoreOverlay.Binary

/-- The exponent of the greatest power of two that is at most `q`, for positive `q`. -/
def floorLog2 (q : Rat) : Int :=
  let e : Int := (q.num.natAbs.log2 : Int) - (q.den.log2 : Int)
  if q < (2 : Rat) ^ e then e - 1 else e

/-- The nearest integer; a half goes to the even neighbour. -/
def roundHalfEven (q : Rat) : Int :=
  let n := q.floor
  let fraction := q - n
  if fraction < 1 / 2 then n
  else if 1 / 2 < fraction then n + 1
  else if n % 2 = 0 then n else n + 1

/-- The nearest integer; a half goes away from zero. -/
def roundHalfAway (q : Rat) : Int :=
  if q < 0 then -(-q + 1 / 2).floor else (q + 1 / 2).floor

/-- A binary floating point format: significands of `precision` bits, scaled by powers of two
    from `minExponent` to `maxExponent`. -/
structure Format where
  precision : Nat
  minExponent : Int
  maxExponent : Int
deriving DecidableEq, Repr

def binary64 : Format := ⟨53, -1074, 971⟩

def binary32 : Format := ⟨24, -149, 104⟩

namespace Format

/-- The least significand that uses all bits. As many numbers of the format lie between a power of
    two and the next. -/
def binade (f : Format) : Nat := 1 <<< (f.precision - 1)

/-- The exponent of the spacing of the format's numbers around `q`. -/
def quantumExponent (f : Format) (q : Rat) : Int :=
  max (floorLog2 q.abs - (f.precision - 1)) f.minExponent

/-- The number of the format that is nearest to `q`, ties to even. Exponents are unbounded
    above: a result that is too large for the format is told apart by `Overflows`. -/
def round (f : Format) (q : Rat) : Rat :=
  if q = 0 then 0
  else
    let quantum := (2 : Rat) ^ f.quantumExponent q
    roundHalfEven (q / quantum) * quantum

/-- The nearest integer with at most as many bits as the precision, ties to even. It is what `round`
    gives for an integer. -/
def roundInt (f : Format) (n : Int) : Int :=
  let excess := n.natAbs.log2 + 1 - f.precision
  if excess = 0 then n
  else
    let quantum : Int := (1 <<< excess : Nat)
    let low := n / quantum
    let rest := n % quantum
    let up : Bool := quantum < 2 * rest || (2 * rest = quantum && low % 2 = 1)
    (if up then low + 1 else low) * quantum

/-- The least power of two above every number of the format. -/
def limit (f : Format) : Rat := (2 : Rat) ^ (f.precision + f.maxExponent)

/-- Whether a rounded value lies beyond the greatest finite number of the format. -/
def Overflows (f : Format) (q : Rat) : Prop := f.limit ≤ q.abs

instance (f : Format) (q : Rat) : Decidable (f.Overflows q) :=
  inferInstanceAs (Decidable (f.limit ≤ q.abs))

/-- The number of the format that is nearest to the square root of `n`.

The root is first cut off two bits below the format's precision. If anything was cut off, one
more bit stands for it, so that the cut value is never taken for a tie. -/
def sqrt (f : Format) (n : Nat) : Rat :=
  let scale := f.precision + 2
  let square := n <<< (2 * scale)
  let root := square.sqrt
  let twice := if root * root = square then 2 * root else 2 * root + 1
  f.round (twice * (2 : Rat) ^ (-(scale + 1) : Int))

end Format

end ScoreOverlay.Binary
