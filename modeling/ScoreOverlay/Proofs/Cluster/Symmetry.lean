import Mathlib.Algebra.Order.Field.Rat
import ScoreOverlay.Cluster.Profile
import ScoreOverlay.Proofs.Binary.Rounding
import ScoreOverlay.Proofs.Checked.Overflow
import ScoreOverlay.Proofs.Cluster.Profile

namespace ScoreOverlay

/-- A test that gives up under a condition succeeds if the condition is not met and the rest of the
    test succeeds. -/
theorem unless_eq_ok_true_iff {condition : Prop} [Decidable condition] {x : Checked Bool} :
    (if condition then .ok false else x) = .ok true ↔ ¬ condition ∧ x = .ok true := by
  split <;> simp [*]

namespace Profile

/-- The part that a number is of a unit, in `binary32`. -/
def part (n : Int) (unit : Rat) : Rat := Binary.binary32.round (Binary.binary32.round n / unit)

/-- Two measures can be compared, and their difference is a small part of the unit. -/
def AreNear (a b : Int) (unit : Rat) : Prop :=
  (Coordinate.InRange (a - b) ∧ Coordinate.InRange (b - a)) ∧
    part (a - b).natAbs unit < maxDifference

/-- The mean of both average heights, in `binary32`. -/
def meanHeight (p q : Profile) : Rat :=
  Binary.binary32.round (Binary.binary32.round (p.averageHeight + q.averageHeight : Int) / 2)

/-- The larger average height, in `binary32`. -/
def maxHeight (p q : Profile) : Rat :=
  Binary.binary32.round (max p.averageHeight q.averageHeight : Int)

/-- The distances from the center line form an interval whose length is a coordinate. -/
def HasSpan (p : Profile) : Prop :=
  Coordinate.InRange (p.far - p.near) ∧ p.near < p.far

/-- The length that the intervals of distances share. It is negative where they are apart. -/
def shared (p q : Profile) : Int := min p.far q.far - max p.near q.near

/-- All that a successful test for symmetry means. Neither profile has a role of its own. -/
structure IsSymmetricTo (p q : Profile) (threshold : Binary.Scalar) : Prop where
  sum : Coordinate.InRange (p.averageHeight + q.averageHeight)
  heights : 0 < p.meanHeight q ∧ 0 < p.maxHeight q
  levels_near : AreNear p.averageY q.averageY (p.meanHeight q)
  heights_near : AreNear p.averageHeight q.averageHeight (p.maxHeight q)
  spans : p.HasSpan ∧ q.HasSpan
  shared : Coordinate.InRange (p.shared q)
  exceeds : threshold < (part (p.shared q) (Binary.binary32.round (p.far - p.near : Int)) : Rat) ∨
    threshold < (part (p.shared q) (Binary.binary32.round (q.far - q.near : Int)) : Rat)

theorem relativeDifference_eq_ok_iff {a b : Int} {unit r : Rat} :
    relativeDifference a b unit = .ok r ↔
      (Coordinate.InRange (a - b) ∧ Coordinate.InRange (b - a)) ∧
        part (a - b).natAbs unit = r := by
  have hbind : relativeDifference a b unit = (do
      let difference ← Coordinate.sub a b >>= Coordinate.abs
      return part difference unit) := (bind_assoc _ _ _).symm
  rw [hbind, bind_eq_ok_iff]
  simp only [Coordinate.abs_sub_eq_ok_iff, pure_eq_ok, Except.ok.injEq]
  constructor
  · rintro ⟨_, ⟨hrange, hrange', rfl⟩, hpart⟩
    exact ⟨⟨hrange, hrange'⟩, hpart⟩
  · rintro ⟨⟨hrange, hrange'⟩, hpart⟩
    exact ⟨_, ⟨hrange, hrange', rfl⟩, hpart⟩

theorem span_eq_ok_iff {p : Profile} {n : Int} :
    p.span = .ok n ↔ Coordinate.InRange (p.far - p.near) ∧ p.far - p.near = n :=
  Coordinate.check_eq_ok_iff

variable {p q : Profile} {threshold : Binary.Scalar}

/-- A test succeeds only through all its comparisons, so the order in which they are made does not
    show in a success. -/
theorem symmetricTo_eq_ok_true_iff :
    p.symmetricTo q threshold = .ok true ↔ p.IsSymmetricTo q threshold := by
  simp only [symmetricTo, bind_eq_ok_iff, unless_eq_ok_true_iff, relativeDifference_eq_ok_iff,
    span_eq_ok_iff, Coordinate.add, Coordinate.sub, Coordinate.check_eq_ok_iff, pure_eq_ok,
    Except.ok.injEq, Bool.or_eq_true, decide_eq_true_eq, not_or, Rat.not_le, Int.not_le]
  constructor
  · rintro ⟨_, ⟨hsum, rfl⟩, hheights, _, ⟨hlevel, rfl⟩, _, ⟨hheight, rfl⟩, hnear, _,
      ⟨hspan, rfl⟩, hpos, _, ⟨hspan', rfl⟩, hpos', _, ⟨hshared, rfl⟩, hexceeds⟩
    exact ⟨hsum, hheights, ⟨hlevel, hnear.1⟩, ⟨hheight, hnear.2⟩,
      ⟨⟨hspan, Int.sub_pos.1 hpos⟩, hspan', Int.sub_pos.1 hpos'⟩, hshared, hexceeds⟩
  · rintro ⟨hsum, hheights, ⟨hlevel, hlevelNear⟩, ⟨hheight, hheightNear⟩,
      ⟨⟨hspan, hpos⟩, hspan', hpos'⟩, hshared, hexceeds⟩
    exact ⟨_, ⟨hsum, rfl⟩, hheights, _, ⟨hlevel, rfl⟩, _, ⟨hheight, rfl⟩,
      ⟨hlevelNear, hheightNear⟩, _, ⟨hspan, rfl⟩, Int.sub_pos.2 hpos, _, ⟨hspan', rfl⟩,
      Int.sub_pos.2 hpos', _, ⟨hshared, rfl⟩, hexceeds⟩

/-- A part that is above a threshold is positive, and so is the length that it is a part of. -/
private theorem pos_of_part {shared span : Int}
    (hthreshold : 0 ≤ threshold) (hspan : 0 < span)
    (h : threshold < (part shared (Binary.binary32.round span) : Rat)) : 0 < shared := by
  have hratio := Binary.Format.pos_of_round_pos (Binary.Scalar.pos_of_lt hthreshold h)
  have hround : 0 ≤ Binary.binary32.round span :=
    Binary.Format.round_nonneg (Rat.intCast_nonneg.2 (Int.le_of_lt hspan))
  by_contra hnot
  have hshared : Binary.binary32.round shared ≤ 0 :=
    Binary.Format.round_nonpos (Rat.intCast_nonpos.2 (by omega))
  exact absurd hratio (not_lt.2 (div_nonpos_of_nonpos_of_nonneg hshared hround))

/-- Symmetric clusters have distances of their own, and some in common. -/
theorem distances_of_symmetricTo (hthreshold : 0 ≤ threshold)
    (h : p.symmetricTo q threshold = .ok true) :
    p.near < p.far ∧ q.near < q.far ∧ max p.near q.near < min p.far q.far := by
  have hsymmetric := symmetricTo_eq_ok_true_iff.1 h
  obtain ⟨⟨-, hspan⟩, -, hspan'⟩ := hsymmetric.spans
  have hshared : 0 < p.shared q := by
    rcases hsymmetric.exceeds with hexceeds | hexceeds
    · exact pos_of_part hthreshold (Int.sub_pos.2 hspan) hexceeds
    · exact pos_of_part hthreshold (Int.sub_pos.2 hspan') hexceeds
  exact ⟨hspan, hspan', Int.sub_pos.1 hshared⟩

theorem AreNear.symm {a b : Int} {unit : Rat} (h : AreNear a b unit) : AreNear b a unit := by
  have habs : (b - a).natAbs = (a - b).natAbs := by omega
  exact ⟨h.1.symm, habs ▸ h.2⟩

theorem meanHeight_comm (p q : Profile) : p.meanHeight q = q.meanHeight p := by
  rw [meanHeight, meanHeight, Int.add_comm]

theorem maxHeight_comm (p q : Profile) : p.maxHeight q = q.maxHeight p := by
  rw [maxHeight, maxHeight, Int.max_comm]

theorem shared_comm (p q : Profile) : p.shared q = q.shared p := by
  rw [shared, shared, Int.min_comm, Int.max_comm]

theorem IsSymmetricTo.symm (h : p.IsSymmetricTo q threshold) : q.IsSymmetricTo p threshold where
  sum := Int.add_comm q.averageHeight _ ▸ h.sum
  heights := by
    rw [meanHeight_comm, maxHeight_comm]
    exact h.heights
  levels_near := by
    rw [meanHeight_comm]
    exact h.levels_near.symm
  heights_near := by
    rw [maxHeight_comm]
    exact h.heights_near.symm
  spans := h.spans.symm
  shared := by
    rw [shared_comm]
    exact h.shared
  exceeds := by
    rw [shared_comm]
    exact h.exceeds.symm

/-- Symmetry has no direction, for any two profiles and every threshold. A success in one order is
    a success in the other. A refusal can come from an early exit that spares an overflow, so it is
    the same in both orders where neither overflows. -/
theorem symmetricTo_comm (p q : Profile) (threshold : Binary.Scalar) :
    (p.symmetricTo q threshold = .ok true ↔ q.symmetricTo p threshold = .ok true) ∧
      (NoOverflow (p.symmetricTo q threshold) → NoOverflow (q.symmetricTo p threshold) →
        ∃ answer, p.symmetricTo q threshold = .ok answer ∧
          q.symmetricTo p threshold = .ok answer) := by
  have hiff : p.symmetricTo q threshold = .ok true ↔ q.symmetricTo p threshold = .ok true := by
    rw [symmetricTo_eq_ok_true_iff, symmetricTo_eq_ok_true_iff]
    exact ⟨IsSymmetricTo.symm, IsSymmetricTo.symm⟩
  refine ⟨hiff, fun hfits hfits' => ?_⟩
  obtain ⟨answer, hanswer⟩ := (symmetricTo_inBounds p q threshold).exists_ok hfits
  obtain ⟨answer', hanswer'⟩ := (symmetricTo_inBounds q p threshold).exists_ok hfits'
  -- There are only two answers, so agreeing on success is agreeing.
  rw [hanswer, hanswer'] at hiff
  rw [Except.ok.injEq, Except.ok.injEq] at hiff
  obtain rfl := Bool.eq_iff_iff.2 hiff
  exact ⟨answer, hanswer, hanswer'⟩

/-- Columns out of order, and distances that do not fit the side. -/
private def disordered : Profile := ⟨90, 10, 0, -300, 40, .middle, -5, 95, 0⟩

private def negative : Profile := ⟨-8, -3, -2, -301, 41, .left, -10, 60, 0⟩

/-- The profiles are symmetric in both orders, and in neither if the threshold is no number. -/
theorem symmetricTo_comm_disordered :
    negative.symmetricTo disordered (.finite (mkRat 3 5)) = .ok true ∧
      disordered.symmetricTo negative .nan = .ok false ∧
      negative.symmetricTo disordered .nan = .ok false := by
  have hsymmetric : disordered.symmetricTo negative (.finite (mkRat 3 5)) = .ok true := by
    decide +kernel
  have hnan : disordered.symmetricTo negative .nan = .ok false := by decide +kernel
  have hfits : NoOverflow (negative.symmetricTo disordered .nan) := by decide +kernel
  refine ⟨(symmetricTo_comm disordered negative _).1.1 hsymmetric, hnan, ?_⟩
  obtain ⟨answer, hanswer, hanswer'⟩ :=
    (symmetricTo_comm disordered negative .nan).2 (NoOverflow.of_ok hnan) hfits
  rw [hnan] at hanswer
  cases hanswer
  exact hanswer'

end Profile

end ScoreOverlay
