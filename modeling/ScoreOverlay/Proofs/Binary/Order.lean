import Mathlib.Data.Rat.Floor
import Mathlib.Order.WithBotTop
import ScoreOverlay.Binary.Scalar

namespace ScoreOverlay.Binary.Scalar

/-- The place of a scalar on the line of the rationals with an infinity at each end. Both zeros
    have the same place, and `nan` has none. -/
def place? : Scalar → Option (WithBotTop Rat)
  | nan => none
  | negInfinity => some ⊥
  | posInfinity => some ⊤
  | negZero => some (WithBotTop.coe 0)
  | finite value => some (WithBotTop.coe value)

theorem lt_iff {x y : Scalar} : x < y ↔ ∃ p ∈ x.place?, ∃ q ∈ y.place?, p < q := by
  change x.lt y = true ↔ _
  cases x <;> cases y <;> simp only [lt, decide_eq_true_iff] <;>
    simp [place?, value?, bot_lt_iff_ne_bot, lt_top_iff_ne_top]

theorem le_iff {x y : Scalar} : x ≤ y ↔ ∃ p ∈ x.place?, ∃ q ∈ y.place?, p ≤ q := by
  change x.le y = true ↔ _
  cases x <;> cases y <;> simp only [le, decide_eq_true_iff] <;> simp [place?, value?]

theorem lt_of_lt_of_le {x y z : Scalar} (hxy : x < y) (hyz : y ≤ z) : x < z := by
  obtain ⟨p, hp, q, hq, hpq⟩ := lt_iff.1 hxy
  obtain ⟨q', hq', r, hr, hqr⟩ := le_iff.1 hyz
  obtain rfl := Option.mem_unique hq hq'
  exact lt_iff.2 ⟨p, hp, r, hr, hpq.trans_le hqr⟩

theorem not_lt_of_le {x y : Scalar} (h : x ≤ y) : ¬ y < x := by
  intro hlt
  obtain ⟨p, hp, q, hq, hpq⟩ := le_iff.1 h
  obtain ⟨q', hq', p', hp', hlt⟩ := lt_iff.1 hlt
  obtain rfl := Option.mem_unique hp hp'
  obtain rfl := Option.mem_unique hq hq'
  exact hpq.not_gt hlt

theorem coe_le_coe {a b : Rat} : (a : Scalar) ≤ b ↔ a ≤ b := by
  simp [le_iff, place?]

/-- The place lies between two numbers, or is one of them. -/
def IsBetween (low high : Rat) (x : Scalar) : Prop :=
  ∃ place ∈ x.place?, WithBotTop.coe low ≤ place ∧ place ≤ WithBotTop.coe high

theorem isBetween_iff {low high : Rat} {x : Scalar} :
    x.IsBetween low high ↔ (low : Scalar) ≤ x ∧ x ≤ high := by
  rw [le_iff, le_iff]
  constructor
  · rintro ⟨place, hplace, hlow, hhigh⟩
    exact ⟨⟨_, rfl, place, hplace, hlow⟩, place, hplace, _, rfl, hhigh⟩
  · rintro ⟨⟨_, hleast, place, hplace, hlow⟩, place', hplace', _, hgreatest, hhigh⟩
    cases hleast
    cases hgreatest
    obtain rfl := Option.mem_unique hplace hplace'
    exact ⟨place, hplace, hlow, hhigh⟩

end ScoreOverlay.Binary.Scalar
