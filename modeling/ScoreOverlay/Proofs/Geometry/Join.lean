import ScoreOverlay.Proofs.Checked.Overflow
import ScoreOverlay.Proofs.Geometry.Containment

namespace ScoreOverlay.Rect

/-- One side of a union: the length of the least interval around two. -/
private def joinedSide (start size start' size' : Int) : Checked Int := do
  Coordinate.sub (max (← Coordinate.add start size) (← Coordinate.add start' size'))
    (min start start')

private theorem joinedSide_eq_ok_iff {a m b n k : Int} :
    joinedSide a m b n = .ok k ↔
      (Coordinate.InRange (a + m) ∧ Coordinate.InRange (b + n) ∧ Coordinate.InRange k) ∧
        min a b + k = max (a + m) (b + n) := by
  simp only [joinedSide, Coordinate.add, Coordinate.sub, bind_eq_ok_iff, Coordinate.check_eq_ok_iff]
  constructor
  · rintro ⟨right, ⟨hright, rfl⟩, right', ⟨hright', rfl⟩, hlength, rfl⟩
    exact ⟨⟨hright, hright', hlength⟩, by omega⟩
  · rintro ⟨⟨hright, hright', hlength⟩, hend⟩
    have hk : max (a + m) (b + n) - min a b = k := by omega
    exact ⟨_, ⟨hright, rfl⟩, _, ⟨hright', rfl⟩, hk ▸ hlength, hk⟩

private theorem joinedSide_comm (a m b n : Int) : joinedSide a m b n = joinedSide b n a m := by
  rw [joinedSide, Coordinate.add_bind_comm]
  simp only [joinedSide, max_comm, min_comm]

/-- An inner interval is no longer than the outer one, so it cannot overflow alone. -/
private theorem joinedSide_assoc {a m b n c l k j : Int} (hm : 0 ≤ m) (hn : 0 ≤ n)
    (hinner : joinedSide a m b n = .ok k) (houter : joinedSide (min a b) k c l = .ok j) :
    ∃ k', joinedSide b n c l = .ok k' ∧ joinedSide a m (min b c) k' = .ok j := by
  simp only [joinedSide_eq_ok_iff, Coordinate.InRange, Coordinate.least, Coordinate.greatest]
    at hinner houter ⊢
  exact ⟨max (b + n) (c + l) - min b c, by omega, by omega⟩

private theorem union_eq (r s : Rect) : r.union s = (do
    let width ← joinedSide r.x r.width s.x s.width
    let height ← joinedSide r.y r.height s.y s.height
    return clamped (min r.x s.x) (min r.y s.y) width height) := by
  simp only [union, joinedSide, right, bottom, bind_assoc]

theorem union_comm (r s : Rect) : r.union s = s.union r := by
  rw [union_eq, union_eq, joinedSide_comm r.x, joinedSide_comm r.y, min_comm r.x, min_comm r.y]

theorem isProper_of_union {r s u : Rect} (h : r.union s = .ok u) : u.IsProper := by
  rw [union_eq] at h
  obtain ⟨width, -, h⟩ := bind_eq_ok_iff.1 h
  obtain ⟨height, -, h⟩ := bind_eq_ok_iff.1 h
  cases h
  exact ⟨le_max_right width 0, le_max_right height 0⟩

variable {r s t : Rect}

/-- Beside a proper rectangle the clamp of the sides is inactive. -/
private theorem IsProper.union_eq_ok_iff (hr : r.IsProper) {u : Rect} :
    r.union s = .ok u ↔ (u.x = min r.x s.x ∧ u.y = min r.y s.y) ∧
      joinedSide r.x r.width s.x s.width = .ok u.width ∧
        joinedSide r.y r.height s.y s.height = .ok u.height := by
  have hlength {a m b n k : Int} (hm : 0 ≤ m) (h : joinedSide a m b n = .ok k) : max k 0 = k := by
    have := (joinedSide_eq_ok_iff.1 h).2
    omega
  rw [union_eq]
  simp only [bind_eq_ok_iff]
  constructor
  · rintro ⟨width, hwidth, height, hheight, h⟩
    cases h
    rw [clamped, hlength hr.width hwidth, hlength hr.height hheight]
    exact ⟨⟨rfl, rfl⟩, hwidth, hheight⟩
  · rintro ⟨⟨hx, hy⟩, hwidth, hheight⟩
    refine ⟨u.width, hwidth, u.height, hheight, ?_⟩
    rw [clamped, hlength hr.width hwidth, hlength hr.height hheight, ← hx, ← hy]
    rfl

private theorem union_union_eq_ok (hr : r.IsProper) (hs : s.IsProper) {u : Rect}
    (h : (do (← r.union s).union t) = .ok u) : (do r.union (← s.union t)) = .ok u := by
  obtain ⟨v, hv, hu⟩ := bind_eq_ok_iff.1 h
  obtain ⟨⟨hvx, hvy⟩, hwidth, hheight⟩ := hr.union_eq_ok_iff.1 hv
  obtain ⟨⟨hux, huy⟩, hwidth', hheight'⟩ := (isProper_of_union hv).union_eq_ok_iff.1 hu
  rw [hvx] at hwidth' hux
  rw [hvy] at hheight' huy
  obtain ⟨width, hinner, houter⟩ := joinedSide_assoc hr.width hs.width hwidth hwidth'
  obtain ⟨height, hinner', houter'⟩ := joinedSide_assoc hr.height hs.height hheight hheight'
  rw [min_assoc] at hux huy
  exact bind_eq_ok_iff.2 ⟨⟨min s.x t.x, min s.y t.y, width, height⟩,
    hs.union_eq_ok_iff.2 ⟨⟨rfl, rfl⟩, hinner, hinner'⟩,
    hr.union_eq_ok_iff.2 ⟨⟨hux, huy⟩, houter, houter'⟩⟩

/-- Three rectangles can be united from the left or from the right. If a coordinate overflows one
    way, one does the other way as well. -/
theorem union_assoc (hr : r.IsProper) (hs : s.IsProper) (ht : t.IsProper) {u : Rect} :
    (do (← r.union s).union t) = .ok u ↔ (do r.union (← s.union t)) = .ok u := by
  constructor
  · exact union_union_eq_ok hr hs
  · intro h
    have hswapped : (do (← t.union s).union r) = .ok u := by
      simpa only [union_comm t s, union_comm _ r] using h
    simpa only [union_comm s r, union_comm t] using union_union_eq_ok ht hs hswapped

theorem union_self (hr : r.IsProper) {u : Rect} (h : r.union r = .ok u) : u = r := by
  obtain ⟨hx, hy, hright, hbottom⟩ := union_eq_ok hr.width hr.height h
  cases u
  cases r
  simp only [Rect.mk.injEq] at *
  omega

/-- The rectangle is the least one around both. -/
structure IsJoinOf (join r s : Rect) : Prop where
  left : r.IsWithin join
  right : s.IsWithin join
  least : ∀ area : Rect, r.IsWithin area → s.IsWithin area → join.IsWithin area

theorem isJoinOf_of_union (hr : r.IsProper) (hs : s.IsProper) {u : Rect} (h : r.union s = .ok u) :
    u.IsJoinOf r s := by
  have hhull : u.IsHullOf ([r] ++ [s]) :=
    (IsHullOf.singleton r).union (IsHullOf.singleton s) hr.width hr.height h
  obtain ⟨hleft, htop, hright, hbottom⟩ := hhull.surrounds (List.mem_pair.2 (.inl rfl))
  obtain ⟨hleft', htop', hright', hbottom'⟩ := hhull.surrounds (List.mem_pair.2 (.inr rfl))
  exact ⟨⟨hr.width, hr.height, hleft, htop, hright, hbottom⟩,
    ⟨hs.width, hs.height, hleft', htop', hright', hbottom'⟩,
    fun _ hr hs => union_isWithin hr hs h⟩

end ScoreOverlay.Rect
