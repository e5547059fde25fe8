import ScoreOverlay.Proofs.Checked.Overflow
import ScoreOverlay.Proofs.Geometry.Segment
import ScoreOverlay.Proofs.Geometry.Simplification
import ScoreOverlay.Proofs.Glyph.Containment

namespace ScoreOverlay

namespace Rect

/-- No side of the rectangle is more than three pixels inside the same side of the other one. -/
structure StaysClose (r outer : Rect) : Prop where
  left : r.x ≤ outer.x + 3
  top : r.y ≤ outer.y + 3
  right : outer.x + outer.width ≤ r.x + r.width + 3
  bottom : outer.y + outer.height ≤ r.y + r.height + 3

instance (r outer : Rect) : Decidable (r.StaysClose outer) :=
  decidable_of_iff
    ((r.x ≤ outer.x + 3 ∧ r.y ≤ outer.y + 3) ∧
      outer.x + outer.width ≤ r.x + r.width + 3 ∧ outer.y + outer.height ≤ r.y + r.height + 3)
    ⟨fun ⟨⟨left, top⟩, right, bottom⟩ => ⟨left, top, right, bottom⟩,
      fun h => ⟨⟨h.left, h.top⟩, h.right, h.bottom⟩⟩

/-- The pixel lies in the rectangle or at most three pixels outside. -/
def CoversNearly (r : Rect) (p : Point) : Prop :=
  (r.x - 3 ≤ p.x ∧ p.x < r.x + r.width + 3) ∧ r.y - 3 ≤ p.y ∧ p.y < r.y + r.height + 3

theorem StaysClose.of_extent {r outer : Rect} {points : List Point}
    (houter : outer.IsExtentOf points) (h : ∀ p ∈ points, r.CoversNearly p) :
    r.StaysClose outer := by
  obtain ⟨⟨⟨left, hleft, hx⟩, top, htop, hy⟩, ⟨right, hright, hx'⟩, bottom, hbottom, hy'⟩ :=
    houter.exists_on_sides
  obtain ⟨⟨hleft, -⟩, -⟩ := h left hleft
  obtain ⟨-, htop, -⟩ := h top htop
  obtain ⟨⟨-, hright⟩, -⟩ := h right hright
  obtain ⟨-, -, hbottom⟩ := h bottom hbottom
  constructor <;> omega

end Rect

theorem Outline.extent?_eq_some {o : Outline} {r : Rect} (hr : r.IsExtentOf o)
    (hfits : NoOverflow o.extent?) : o.extent? = .ok (some r) := by
  obtain ⟨r?, hextent⟩ := o.extent?_inBounds.exists_ok hfits
  have hvalue := Outline.extent?_eq_ok hextent
  cases r? with
  | none =>
    rw [show o = [] from hvalue] at hr
    cases hr.left
  | some s => rw [hextent, hr.unique hvalue]

/-- What is left of an outline when points are left out: both ends are kept, and every other point
    is kept or not farther than three pixels from the segment between two neighbours that are
    kept. The distance may be the exact one or the one that is computed. -/
structure Outline.IsSimplificationOf (kept o : Outline) : Prop where
  sublist : kept.Sublist o
  first : kept.head? = o.head?
  last : kept.getLast? = o.getLast?
  near : ∀ p ∈ o, p ∈ kept ∨ ∃ start stop, [start, stop] <:+: kept ∧
    (p.IsNearSegment start stop 3 ∨ p.distanceToSegment start stop ≤ 3)

theorem Outline.simplify_isSimplificationOf (o : Outline) :
    (o.simplify Glyph.tolerance).IsSimplificationOf o where
  sublist := o.simplify_sublist Glyph.tolerance
  first := (o.ends_simplify Glyph.tolerance).1
  last := (o.ends_simplify Glyph.tolerance).2
  near p hp := by
    refine (Outline.mem_simplify_or_passesBy Glyph.tolerance hp).imp_right ?_
    rintro ⟨start, stop, hinfix, hclose⟩
    refine ⟨start, stop, hinfix, .inr ?_⟩
    by_contra hfar
    exact hclose (decide_eq_true (not_le.1 hfar))

/-- The extent of what is left of an outline nearly covers the points that are left out. -/
theorem Outline.IsSimplificationOf.coversNearly {kept o : Outline} {r : Rect} {p : Point}
    (h : kept.IsSimplificationOf o) (hrange : ∀ p ∈ o, p.IsInRange) (hr : r.IsExtentOf kept)
    (hp : p ∈ o) : r.CoversNearly p := by
  unfold Rect.CoversNearly
  rcases h.near p hp with hkept | ⟨start, stop, hinfix, hnear⟩
  · have hcovers := hr.covers hkept
    unfold Rect.Covers at hcovers
    omega
  · have hstart : start ∈ kept := hinfix.subset (by simp)
    have hstop : stop ∈ kept := hinfix.subset (by simp)
    have hbeside : p.IsBeside start stop := by
      rcases hnear with hexact | hcomputed
      · exact Point.isBeside_of_isNearSegment hexact
      · exact Point.isBeside_of_distanceToSegment_le (hrange p hp)
          (hrange start (h.sublist.subset hstart)) (hrange stop (h.sublist.subset hstop)) hcomputed
    have hcovers := hr.covers hstart
    have hcovers' := hr.covers hstop
    unfold Point.IsBeside at hbeside
    unfold Rect.Covers at hcovers hcovers'
    omega

namespace Glyph

/-- A new glyph, for any way to simplify its outline. -/
def ofOutlineBy? (simplify : Outline → Outline) (outline : Outline) : Checked (Option Glyph) := do
  return (← (simplify outline).extent?).map (⟨outline, [], ·, ""⟩)

/-- The rectangle of a new glyph hardly differs from that of its outline, although it is taken from
    a simplified one. It is never empty, lies within the other one and covers both ends of the
    outline, and none of its sides is more than three pixels away. The coordinates may be any
    there are, and the outline may be simplified in any way that leaves out only points near to
    what it keeps. The outline's own rectangle may be too large to be computed; it is compared all
    the same. -/
theorem ofOutline?_staysClose {simplify : Outline → Outline} {o : Outline} (hne : o ≠ [])
    (hrange : ∀ p ∈ o, p.IsInRange) (hsimplify : (simplify o).IsSimplificationOf o)
    (hfits : NoOverflow (ofOutlineBy? simplify o)) :
    (ofOutline? o = ofOutlineBy? (Outline.simplify tolerance) o ∧
      (o.simplify tolerance).IsSimplificationOf o) ∧
    ∃ rect raw, ofOutlineBy? simplify o = .ok (some ⟨o, [], rect, ""⟩) ∧ raw.IsExtentOf o ∧
      (NoOverflow o.extent? → o.extent? = .ok (some raw)) ∧
      ¬ rect.IsEmpty ∧ rect.IsWithin raw ∧ rect.StaysClose raw ∧
      ∀ p, o.head? = some p ∨ o.getLast? = some p → rect.Covers p := by
  refine ⟨⟨rfl, o.simplify_isSimplificationOf⟩, ?_⟩
  obtain ⟨raw, hraw⟩ := Rect.exists_isExtentOf hne
  have hbounds : InBounds (ofOutlineBy? simplify o) :=
    (Outline.extent?_inBounds _).bind fun _ _ => InBounds.pure _
  obtain ⟨g?, hg⟩ := hbounds.exists_ok hfits
  obtain ⟨rect?, hrect, hmap⟩ := bind_eq_ok_iff.1 hg
  have hextent := Outline.extent?_eq_ok hrect
  cases rect? with
  | none =>
    have hfirst := hsimplify.first
    rw [show simplify o = [] from hextent] at hfirst
    exact absurd (List.head?_eq_none_iff.1 hfirst.symm) hne
  | some rect =>
    cases hmap
    obtain ⟨hwithin, hpixels⟩ :=
      hextent.isWithin fun p hp => hraw.covers (hsimplify.sublist.subset hp)
    refine ⟨rect, raw, hg, hraw, Outline.extent?_eq_some hraw, hpixels, hwithin, ?_, ?_⟩
    · exact .of_extent hraw fun p hp => hsimplify.coversNearly hrange hextent hp
    · rintro p (hp | hp)
      · exact hextent.covers (List.mem_of_head? (hsimplify.first.trans hp))
      · exact hextent.covers (List.mem_of_getLast? (hsimplify.last.trans hp))

/-- A flat roof. Its ridge is three pixels from the line between the eaves, which are all that is
    kept of it. -/
private def roof : Outline := [⟨0, 0⟩, ⟨10, 3⟩, ⟨20, 0⟩]

theorem ofOutline?_staysClose_roof :
    ofOutline? roof = .ok (some ⟨roof, [], ⟨0, 0, 21, 1⟩, ""⟩) ∧
      roof.extent? = .ok (some ⟨0, 0, 21, 4⟩) ∧
      (⟨0, 0, 21, 1⟩ : Rect).IsWithin ⟨0, 0, 21, 4⟩ ∧
      (⟨0, 0, 21, 1⟩ : Rect).StaysClose ⟨0, 0, 21, 4⟩ := by
  have hrun : ofOutline? roof = .ok (some ⟨roof, [], ⟨0, 0, 21, 1⟩, ""⟩) := by decide +kernel
  have hraw : roof.extent? = .ok (some ⟨0, 0, 21, 4⟩) := by decide +kernel
  obtain ⟨-, rect, raw, hrect, -, hextent, -, hwithin, hclose, -⟩ :=
    ofOutline?_staysClose (by decide) (by decide) roof.simplify_isSimplificationOf
      (NoOverflow.of_ok hrun)
  cases hrect.symm.trans hrun
  cases (hextent (NoOverflow.of_ok hraw)).symm.trans hraw
  exact ⟨hrun, hraw, hwithin, hclose⟩

end Glyph

end ScoreOverlay
