import ScoreOverlay.Cluster.Profile
import ScoreOverlay.Proofs.Binary.Quotient
import ScoreOverlay.Proofs.Checked.Bounds

namespace ScoreOverlay

/-- What is relied on in a division: its result, where the quotient is a finite number of
    `binary32`. It may do anything, or fault, where the divisor is zero or the quotient is `nan` or
    infinite. -/
def DividesFinitely (divide : Rat → Rat → Checked Rat) : Prop :=
  ∀ a b c, (Binary.Scalar.quotient Binary.binary32 a b).value? = some c → divide a b = .ok c

namespace Profile

/-- The relative difference of two measures, with a division of its own. -/
def relativeDifferenceBy (divide : Rat → Rat → Checked Rat) (a b : Int) (unit : Rat) :
    Checked Rat := do
  let difference ← Coordinate.abs (← Coordinate.sub a b)
  divide (Binary.binary32.round difference) unit

/-- The test for symmetry, with a division of its own. -/
def symmetricToBy (divide : Rat → Rat → Checked Rat) (p q : Profile)
    (threshold : Binary.Scalar) : Checked Bool := do
  let round := Binary.binary32.round
  let meanHeight ← divide (round (← Coordinate.add p.averageHeight q.averageHeight)) 2
  let maxHeight := round (max p.averageHeight q.averageHeight : Int)
  if meanHeight ≤ 0 ∨ maxHeight ≤ 0 then return false
  let levelDifference ← relativeDifferenceBy divide p.averageY q.averageY meanHeight
  let heightDifference ← relativeDifferenceBy divide p.averageHeight q.averageHeight maxHeight
  if maxDifference ≤ levelDifference ∨ maxDifference ≤ heightDifference then return false
  let firstSpan ← p.span
  if firstSpan ≤ 0 then return false
  let secondSpan ← q.span
  if secondSpan ≤ 0 then return false
  let shared := round (← Coordinate.sub (min p.far q.far) (max p.near q.near))
  let firstPart ← divide shared (round firstSpan)
  let secondPart ← divide shared (round secondSpan)
  return threshold < (firstPart : Rat) || threshold < (secondPart : Rat)

/-- With the rounded quotients it is the test itself. -/
theorem symmetricToBy_round (p q : Profile) (threshold : Binary.Scalar) :
    p.symmetricToBy (fun a b => pure (Binary.binary32.round (a / b))) q threshold =
      p.symmetricTo q threshold :=
  rfl

variable {divide : Rat → Rat → Checked Rat}

theorem divide_eq_of_inRange (hdivide : DividesFinitely divide) {n : Int} {unit : Rat}
    (hn : Coordinate.InRange n) (hunit : 1 / 2 ≤ unit) :
    divide (Binary.binary32.round n) unit =
      .ok (Binary.binary32.round (Binary.binary32.round n / unit)) :=
  hdivide _ _ _ (Binary.Scalar.value?_quotient (Binary.abs_round_le_of_inRange hn) hunit)

theorem relativeDifferenceBy_eq (hdivide : DividesFinitely divide) {a b : Int} {unit : Rat}
    (hunit : 1 / 2 ≤ unit) :
    relativeDifferenceBy divide a b unit = relativeDifference a b unit := by
  refine bind_congr_of_ok fun difference hsub => bind_congr_of_ok fun distance habs => ?_
  obtain ⟨hrange, hrange', hdistance⟩ :=
    Coordinate.abs_sub_eq_ok_iff.1 (bind_eq_ok_iff.2 ⟨difference, hsub, habs⟩)
  refine divide_eq_of_inRange hdivide ?_ hunit
  unfold Coordinate.InRange at *
  omega

theorem half_le_round {n : Int} (h : 0 < n) : 1 / 2 ≤ Binary.binary32.round n := by
  have := Binary.one_le_round_of_pos h
  linarith

theorem half_le_round_of_pos {n : Int} (h : 0 < Binary.binary32.round n) :
    1 / 2 ≤ Binary.binary32.round n :=
  half_le_round (by exact_mod_cast Binary.Format.pos_of_round_pos h)

/-- A mean height that is positive after two roundings is at least one half. -/
theorem half_le_meanHeight {sum : Int}
    (h : 0 < Binary.binary32.round (Binary.binary32.round sum / 2)) :
    1 / 2 ≤ Binary.binary32.round (Binary.binary32.round sum / 2) := by
  have hround : 0 < Binary.binary32.round sum := by
    have := Binary.Format.pos_of_round_pos h
    linarith
  exact Binary.half_le_round_half (by exact_mod_cast Binary.Format.pos_of_round_pos hround)

/-- The guards of the test keep all its divisors away from zero, so what a division by zero gives,
    or one without a finite result, does not matter. -/
theorem symmetricToBy_eq (hdivide : DividesFinitely divide) (p q : Profile)
    (threshold : Binary.Scalar) :
    p.symmetricToBy divide q threshold = p.symmetricTo q threshold := by
  refine bind_congr_of_ok fun sum hsum => ?_
  have hsumRange := Coordinate.inRange_of_check_eq_ok hsum
  rw [divide_eq_of_inRange hdivide hsumRange (by norm_num), ok_bind]
  -- Both tests give up alike. What follows a guard divides only by what the guard let pass.
  refine ite_congr rfl (fun _ => rfl) fun hheights => ?_
  obtain ⟨hmean, hmax⟩ := not_or.1 hheights
  have hmeanUnit := half_le_meanHeight (not_le.1 hmean)
  have hmaxUnit := half_le_round_of_pos (not_le.1 hmax)
  rw [relativeDifferenceBy_eq hdivide hmeanUnit]
  refine bind_congr_of_ok fun levelDifference _ => ?_
  rw [relativeDifferenceBy_eq hdivide hmaxUnit]
  refine bind_congr_of_ok fun heightDifference _ => ?_
  refine ite_congr rfl (fun _ => rfl) fun _ => ?_
  refine bind_congr_of_ok fun firstSpan _ => ?_
  refine ite_congr rfl (fun _ => rfl) fun hfirst => ?_
  refine bind_congr_of_ok fun secondSpan _ => ?_
  refine ite_congr rfl (fun _ => rfl) fun hsecond => ?_
  refine bind_congr_of_ok fun shared hshared => ?_
  have hsharedRange := Coordinate.inRange_of_check_eq_ok hshared
  dsimp only
  rw [divide_eq_of_inRange hdivide hsharedRange (half_le_round (not_le.1 hfirst)), ok_bind,
    divide_eq_of_inRange hdivide hsharedRange (half_le_round (not_le.1 hsecond))]
  rfl

end Profile

end ScoreOverlay
