import Mathlib.Tactic.Ring
import ScoreOverlay.Cluster.Grouping
import ScoreOverlay.Proofs.Checked.Bounds

namespace ScoreOverlay

theorem Point.distance_comm (p q : Point) : p.distance q = q.distance p := by
  unfold distance
  congr 2
  ring

namespace Glyph

/-- All that a successful test means: the sides that it looks at are coordinates, one of the two
    distances between facing bottom corners is within the member's reach, and the tops are less than
    the member's height apart. -/
theorem neighbours_eq_ok_true_iff {member candidate : Glyph} :
    member.neighbours candidate = .ok true ↔
      ∃ right bottom right' bottom' offset,
        member.rect.right = .ok right ∧ member.rect.bottom = .ok bottom ∧
        candidate.rect.right = .ok right' ∧ candidate.rect.bottom = .ok bottom' ∧
        (Point.distance ⟨member.rect.x, bottom⟩ ⟨right', bottom'⟩ < member.reach ∨
          Point.distance ⟨right, bottom⟩ ⟨candidate.rect.x, bottom'⟩ < member.reach) ∧
        (Coordinate.sub member.rect.y candidate.rect.y >>= Coordinate.abs) = .ok offset ∧
        offset < member.height := by
  simp only [neighbours, bind_eq_ok_iff]
  constructor
  · rintro ⟨bottom, hbottom, right', hright', bottom', hbottom', right, hright, _, hbottom₂, _,
      hbottom₂', h⟩
    obtain rfl := Except.ok.inj (hbottom.symm.trans hbottom₂)
    obtain rfl := Except.ok.inj (hbottom'.symm.trans hbottom₂')
    split at h
    · simp only [bind_eq_ok_iff, pure_eq_ok, Except.ok.injEq, decide_eq_true_eq] at h
      obtain ⟨difference, hsub, offset, habs, hlt⟩ := h
      exact ⟨right, bottom, right', bottom', offset, hright, hbottom, hright', hbottom', ‹_›,
        ⟨difference, hsub, habs⟩, hlt⟩
    · cases h
  · rintro ⟨right, bottom, right', bottom', offset, hright, hbottom, hright', hbottom', hnear,
      ⟨difference, hsub, habs⟩, hlt⟩
    refine ⟨bottom, hbottom, right', hright', bottom', hbottom', right, hright, bottom, hbottom,
      bottom', hbottom', ?_⟩
    rw [if_pos hnear, hsub, ok_bind, habs, ok_bind, pure_eq_ok, decide_eq_true hlt]

theorem natAbs_lt_of_neighbours {member candidate : Glyph}
    (h : member.neighbours candidate = .ok true) :
    ((member.rect.y - candidate.rect.y).natAbs : Int) < member.height := by
  obtain ⟨_, _, _, _, offset, -, -, -, -, -, hoffset, hlt⟩ := neighbours_eq_ok_true_iff.1 h
  obtain ⟨-, -, rfl⟩ := Coordinate.abs_sub_eq_ok_iff.1 hoffset
  exact hlt

theorem reach_eq {g h : Glyph} (hheight : g.height = h.height) : g.reach = h.reach := by
  unfold reach
  rw [hheight]

/-- Between glyphs of one height the test has no direction. -/
theorem neighbours_symm {g h : Glyph} (hheight : g.height = h.height)
    (hnear : g.neighbours h = .ok true) : h.neighbours g = .ok true := by
  rw [neighbours_eq_ok_true_iff] at hnear ⊢
  obtain ⟨right, bottom, right', bottom', offset, hright, hbottom, hright', hbottom', hdistance,
    hoffset, hlt⟩ := hnear
  obtain ⟨hrange, hrange', habs⟩ := Coordinate.abs_sub_eq_ok_iff.1 hoffset
  refine ⟨right', bottom', right, bottom, offset, hright', hbottom', hright, hbottom, ?_, ?_,
    hheight ▸ hlt⟩
  · rw [Point.distance_comm, Point.distance_comm ⟨right', bottom'⟩, ← reach_eq hheight]
    exact hdistance.symm
  · exact Coordinate.abs_sub_eq_ok_iff.2 ⟨hrange', hrange, by omega⟩

end Glyph

end ScoreOverlay
