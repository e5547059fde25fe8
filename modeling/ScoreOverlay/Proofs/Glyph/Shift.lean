import ScoreOverlay.Cluster.Grouping
import ScoreOverlay.Proofs.Checked.Lockstep

namespace ScoreOverlay

variable (dx dy : Int)

/-- The point moved to the right by `dx` and down by `dy`. -/
def Point.shifted (p : Point) : Point := ⟨p.x + dx, p.y + dy⟩

/-- The rectangle at the moved place. -/
def Rect.shifted (r : Rect) : Rect := { r with x := r.x + dx, y := r.y + dy }

/-- The glyph with the same text at the moved place. -/
def Glyph.shifted (g : Glyph) : Glyph :=
  { g with
    outline := g.outline.map (Point.shifted dx dy)
    absorbed := g.absorbed.map (List.map (Point.shifted dx dy))
    rect := g.rect.shifted dx dy }

/-- A distance does not depend on where the two points are together. -/
theorem Point.distance_shifted (p q : Point) :
    (p.shifted dx dy).distance (q.shifted dx dy) = p.distance q := by
  simp only [distance, shifted, Int.add_sub_add_right]

namespace Rect

theorem right_lockstep (r : Rect) : Lockstep (· + dx) r.right (r.shifted dx dy).right :=
  Coordinate.add_lockstep r.x r.width dx

theorem bottom_lockstep (r : Rect) : Lockstep (· + dy) r.bottom (r.shifted dx dy).bottom :=
  Coordinate.add_lockstep r.y r.height dy

theorem center_lockstep (r : Rect) :
    Lockstep (Point.shifted dx dy) r.center (r.shifted dx dy).center := by
  refine (Coordinate.add_lockstep _ _ dx).bind fun x _ => ?_
  exact (Coordinate.add_lockstep _ _ dy).bind fun y _ => Lockstep.pure rfl

end Rect

namespace Glyph

theorem height_shifted (g : Glyph) : (g.shifted dx dy).height = g.height := rfl

/-- Glyphs that are moved together stay neighbours. -/
theorem neighbours_lockstep (member candidate : Glyph) :
    Lockstep id (member.neighbours candidate)
      ((member.shifted dx dy).neighbours (candidate.shifted dx dy)) := by
  refine (Rect.bottom_lockstep dx dy _).bind fun bottom _ => ?_
  refine (Rect.right_lockstep dx dy _).bind fun right' _ => ?_
  refine (Rect.bottom_lockstep dx dy _).bind fun bottom' _ => ?_
  refine (Rect.right_lockstep dx dy _).bind fun right _ => ?_
  refine (Rect.bottom_lockstep dx dy _).bind fun bottom₂ _ => ?_
  refine (Rect.bottom_lockstep dx dy _).bind fun bottom₂' _ => ?_
  have hleft := Point.distance_shifted dx dy ⟨member.rect.x, bottom⟩ ⟨right', bottom'⟩
  have hright := Point.distance_shifted dx dy ⟨right, bottom₂⟩ ⟨candidate.rect.x, bottom₂'⟩
  refine Lockstep.ite ?_ (fun _ => ?_) fun _ => Lockstep.rfl
  · exact iff_of_eq (by rw [← hleft, ← hright]; rfl)
  · simp only [shifted, Rect.shifted, Coordinate.sub_add_add]
    exact Lockstep.rfl

end Glyph

end ScoreOverlay
