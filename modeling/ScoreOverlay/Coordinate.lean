import ScoreOverlay.Checked

namespace ScoreOverlay

namespace Coordinate

/-- The least coordinate. Pixel coordinates and sizes are integers of 32 bits with a sign. -/
def least : Int := -2147483648

/-- The greatest coordinate. -/
def greatest : Int := 2147483647

/-- The number of coordinates. -/
def count : Nat := 4294967296

def InRange (n : Int) : Prop := least ≤ n ∧ n ≤ greatest

instance (n : Int) : Decidable (InRange n) :=
  inferInstanceAs (Decidable (least ≤ n ∧ n ≤ greatest))

/-- Accepts the exact result of an operation if it is a coordinate. -/
def check (operation : Operation) (n : Int) : Checked Int :=
  if InRange n then pure n else throw (.overflow operation)

def add (a b : Int) : Checked Int := check .addition (a + b)

def sub (a b : Int) : Checked Int := check .subtraction (a - b)

def mul (a b : Int) : Checked Int := check .multiplication (a * b)

def neg (a : Int) : Checked Int := check .negation (-a)

/-- The absolute value; only the least coordinate has none. -/
def abs (a : Int) : Checked Int := if a < 0 then neg a else pure a

/-- Adds up a list from the left. Every partial sum has to be a coordinate. -/
def sum (l : List Int) : Checked Int := l.foldlM add 0

theorem check_eq_ok_iff {operation : Operation} {n m : Int} :
    check operation n = .ok m ↔ InRange n ∧ n = m := by
  unfold check
  split <;> simp_all [pure, Except.pure, throw, throwThe, MonadExceptOf.throw]

theorem check_of_inRange {operation : Operation} {n : Int} (h : InRange n) :
    check operation n = .ok n :=
  check_eq_ok_iff.2 ⟨h, rfl⟩

end Coordinate

end ScoreOverlay
