import ScoreOverlay.Proofs.Checked.Overflow
import ScoreOverlay.Proofs.Geometry.Overlap
import ScoreOverlay.Proofs.Geometry.Padding

namespace ScoreOverlay

/-- The area in which coordinates are far from their limits, so that nothing that is computed from
    its points overflows. -/
def Rect.safeArea : Rect := ⟨-65536, -65536, 131073, 131073⟩

/-- The frame is no larger than the part of the safe area to the right and below of the origin. -/
structure Frame.IsSafe (frame : Frame) : Prop where
  width : 0 ≤ frame.width ∧ frame.width ≤ 65536
  height : 0 ≤ frame.height ∧ frame.height ≤ 65536

theorem Frame.IsSafe.middle {frame : Frame} (h : frame.IsSafe) :
    0 ≤ frame.middle ∧ frame.middle ≤ 32768 := by
  have := h.width
  unfold Frame.middle
  rw [Int.tdiv_eq_ediv_of_nonneg this.1]
  omega

theorem Point.bounds_of_covers {p : Point} (h : Rect.safeArea.Covers p) :
    -65536 ≤ p.x ∧ p.x ≤ 65536 ∧ -65536 ≤ p.y ∧ p.y ≤ 65536 := by
  simp only [Rect.Covers, Rect.safeArea] at h
  omega

theorem Outline.extent?_noOverflow {o : Outline} (h : ∀ p ∈ o, Rect.safeArea.Covers p) :
    NoOverflow o.extent? := by
  cases o with
  | nil => exact NoOverflow.pure _
  | cons first rest =>
    have hspan (f : Point → Int) (hf : ∀ p ∈ first :: rest, -65536 ≤ f p ∧ f p ≤ 65536) :
        NoOverflow (do Coordinate.add (← Coordinate.sub
          (rest.foldl (fun n p => max n (f p)) (f first))
          (rest.foldl (fun n p => min n (f p)) (f first))) 1) := by
      obtain ⟨p, hp, hlow⟩ :=
        List.mem_map.1 (List.min?_eq_some_iff.1 (min?_map_cons f first rest)).1
      obtain ⟨q, hq, hhigh⟩ :=
        List.mem_map.1 (List.max?_eq_some_iff.1 (max?_map_cons f first rest)).1
      have := hf p hp
      have := hf q hq
      rw [← hlow, ← hhigh]
      refine (Coordinate.sub_noOverflow (by omega) (by omega)).bind fun difference hsub => ?_
      have := Coordinate.eq_of_sub_eq_ok hsub
      exact Coordinate.add_noOverflow (by omega) (by omega)
    refine (hspan Point.x fun p hp => ?_).bind fun _ _ => ?_
    · have := Point.bounds_of_covers (h p hp)
      omega
    · refine (hspan Point.y fun p hp => ?_).bind fun _ _ => NoOverflow.pure _
      have := Point.bounds_of_covers (h p hp)
      omega

namespace Rect

variable {r s : Rect}

theorem isWithin_safeArea_iff :
    r.IsWithin safeArea ↔
      0 ≤ r.width ∧ 0 ≤ r.height ∧ -65536 ≤ r.x ∧ -65536 ≤ r.y ∧ r.x + r.width ≤ 65537 ∧
        r.y + r.height ≤ 65537 :=
  ⟨fun ⟨hwidth, hheight, hleft, htop, hright, hbottom⟩ =>
      ⟨hwidth, hheight, hleft, htop, hright, hbottom⟩,
    fun ⟨hwidth, hheight, hleft, htop, hright, hbottom⟩ =>
      ⟨hwidth, hheight, hleft, htop, hright, hbottom⟩⟩

theorem right_eq_ok (h : r.IsWithin safeArea) : r.right = .ok (r.x + r.width) := by
  have := isWithin_safeArea_iff.1 h
  exact Coordinate.check_eq_ok (by omega) (by omega)

theorem bottom_eq_ok (h : r.IsWithin safeArea) : r.bottom = .ok (r.y + r.height) := by
  have := isWithin_safeArea_iff.1 h
  exact Coordinate.check_eq_ok (by omega) (by omega)

theorem center_noOverflow (h : r.IsWithin safeArea) : NoOverflow r.center := by
  have := isWithin_safeArea_iff.1 h
  unfold center
  rw [Int.tdiv_eq_ediv_of_nonneg h.width, Int.tdiv_eq_ediv_of_nonneg h.height]
  refine (Coordinate.add_noOverflow (by omega) (by omega)).bind fun _ _ => ?_
  exact (Coordinate.add_noOverflow (by omega) (by omega)).bind fun _ _ => NoOverflow.pure _

theorem union_noOverflow (hr : r.IsWithin safeArea) (hs : s.IsWithin safeArea) :
    NoOverflow (r.union s) := by
  have := isWithin_safeArea_iff.1 hr
  have := isWithin_safeArea_iff.1 hs
  unfold union
  simp only [right_eq_ok hr, right_eq_ok hs, bottom_eq_ok hr, bottom_eq_ok hs, ok_bind]
  refine (Coordinate.sub_noOverflow (by omega) (by omega)).bind fun _ _ => ?_
  exact (Coordinate.sub_noOverflow (by omega) (by omega)).bind fun _ _ => NoOverflow.pure _

theorem sharedArea_noOverflow (hr : r.IsWithin safeArea) (hs : s.IsWithin safeArea) :
    NoOverflow (r.sharedArea s) := by
  have := isWithin_safeArea_iff.1 hr
  have := isWithin_safeArea_iff.1 hs
  unfold sharedArea
  simp only [right_eq_ok hr, right_eq_ok hs, bottom_eq_ok hr, bottom_eq_ok hs, ok_bind]
  refine (Coordinate.sub_noOverflow (by omega) (by omega)).bind fun _ _ => ?_
  exact (Coordinate.sub_noOverflow (by omega) (by omega)).bind fun _ _ => NoOverflow.pure _

theorem overlaps_noOverflow (threshold : Binary.Scalar) (hr : r.IsWithin safeArea)
    (hs : s.IsWithin safeArea) : NoOverflow (r.overlaps s threshold) := by
  refine (sharedArea_noOverflow hr hs).bind fun _ _ => ?_
  exact NoOverflow.ite (fun _ => NoOverflow.pure _) fun _ => NoOverflow.pure _

theorem paddedSide_noOverflow {start limit : Int} {length : Checked Int}
    {reach : Int → Checked Int} (hlength : NoOverflow length) (hreach : NoOverflow (reach start))
    (hstart : 0 ≤ start ∧ start ≤ 2147483647) (hlimit : 0 ≤ limit ∧ limit ≤ 65536) :
    NoOverflow (paddedSide start length reach limit) := by
  refine hreach.bind fun _ _ => NoOverflow.ite (fun _ => ?_) fun _ => ?_
  · exact hlength.bind fun _ _ => NoOverflow.pure _
  · refine (Coordinate.sub_noOverflow (by omega) (by omega)).bind fun room hroom => ?_
    have := Coordinate.eq_of_sub_eq_ok hroom
    exact (Coordinate.sub_noOverflow (by omega) (by omega)).bind fun _ _ => NoOverflow.pure _

private theorem widenedSide_noOverflow {start size parts part limit : Int}
    (hstart : 0 ≤ start) (hsize : 0 ≤ size) (hparts : 0 ≤ parts * part)
    (hfits : start + size + parts * part ≤ 2147483647) (hlimit : 0 ≤ limit ∧ limit ≤ 65536) :
    NoOverflow (paddedSide start (do Coordinate.add size (← Coordinate.mul parts part))
      (fun start => do Coordinate.add (← Coordinate.add start size) (← Coordinate.mul parts part))
      limit) := by
  have hmul : Coordinate.mul parts part = .ok (parts * part) :=
    Coordinate.check_eq_ok (by omega) (by omega)
  rw [hmul]
  refine paddedSide_noOverflow (Coordinate.add_noOverflow (by omega) (by omega)) ?_
    ⟨hstart, by omega⟩ hlimit
  refine (Coordinate.add_noOverflow (by omega) (by omega)).bind fun reached hreached => ?_
  have := Coordinate.eq_of_add_eq_ok hreached
  exact Coordinate.add_noOverflow (by omega) (by omega)

/-- A margin can be added if three halves of it fit behind the right and the lower side. -/
theorem padded_noOverflow_of_reach (reach : Int) {margin : Int} {frame : Frame}
    (hr : r.IsWithin safeArea) (hright : max r.x 0 + r.width ≤ reach)
    (hbottom : max r.y 0 + r.height ≤ reach)
    (hfits : reach + 3 * ((max margin 0 + 1) / 2) ≤ 2147483647) (hframe : frame.IsSafe) :
    NoOverflow (r.padded margin frame) := by
  have := isWithin_safeArea_iff.1 hr
  refine (Coordinate.add_noOverflow (by omega) (by omega)).bind fun grown hgrown => ?_
  have := Coordinate.eq_of_add_eq_ok hgrown
  have hhalf : 0 ≤ grown.tdiv 2 ∧ reach + 3 * grown.tdiv 2 ≤ 2147483647 := by
    rw [Int.tdiv_eq_ediv_of_nonneg (by omega)]
    omega
  have hside : 0 ≤ (if r.width < 1 ∧ 0 < margin then 2 else grown.tdiv 2) ∧
      max r.x 0 + r.width + 3 * (if r.width < 1 ∧ 0 < margin then 2 else grown.tdiv 2) ≤
        2147483647 := by
    split <;> omega
  dsimp only
  generalize grown.tdiv 2 = half at hhalf hside
  generalize (if r.width < 1 ∧ 0 < margin then 2 else half) = side at hside
  have hvertical (x width : Int) : NoOverflow (do
      let y ← Coordinate.sub r.y half
      let side ←
        paddedSide (max y 0) (do Coordinate.add r.height (← Coordinate.mul 2 half))
          (fun y => do Coordinate.add (← Coordinate.add y r.height) (← Coordinate.mul 2 half))
          frame.height
      return clamped x side.1 width side.2) := by
    refine (Coordinate.sub_noOverflow (by omega) (by omega)).bind fun y hy => ?_
    have := Coordinate.eq_of_sub_eq_ok hy
    exact (widenedSide_noOverflow (by omega) (by omega) (by omega) (by omega) hframe.height).bind
      fun _ _ => NoOverflow.pure _
  refine NoOverflow.ite (fun _ => ?_) fun _ => ?_
  · have : r.height.tdiv 6 = r.height / 6 := Int.tdiv_eq_ediv_of_nonneg hr.height
    refine (Coordinate.sub_noOverflow (by omega) (by omega)).bind fun x hx => ?_
    have := Coordinate.eq_of_sub_eq_ok hx
    have hside : NoOverflow (paddedSide (max x 0) (pure (r.height.tdiv 2))
        (fun x => Coordinate.add x r.height) frame.width) :=
      paddedSide_noOverflow (NoOverflow.pure _) (Coordinate.add_noOverflow (by omega) (by omega))
        (by omega) hframe.width
    exact hside.bind fun side _ => hvertical side.1 side.2
  · refine (Coordinate.sub_noOverflow (by omega) (by omega)).bind fun x hx => ?_
    have := Coordinate.eq_of_sub_eq_ok hx
    exact (widenedSide_noOverflow (by omega) (by omega) (by omega) (by omega) hframe.width).bind
      fun side _ => hvertical side.1 side.2

/-- A margin that is no wider than the frame may be can be added. -/
theorem padded_noOverflow {margin : Int} {frame : Frame} (hr : r.IsWithin safeArea)
    (hmargin : margin ≤ 65536) (hframe : frame.IsSafe) : NoOverflow (r.padded margin frame) := by
  have := isWithin_safeArea_iff.1 hr
  exact padded_noOverflow_of_reach 131073 hr (by omega) (by omega) (by omega) hframe

/-- A side that is padded reaches no further than its limit or its start. -/
theorem IsPaddedSide.bounds {start size limit first side : Int}
    (h : IsPaddedSide start size limit first side) :
    0 ≤ first ∧ first ≤ max start 0 ∧ first + max side 0 ≤ max limit first := by
  obtain ⟨⟨before, hnonneg, -, hfirst⟩, hside | hside⟩ := h
  · omega
  · omega

/-- What padding makes of a rectangle in the safe area lies there too. Outside the frame it may be
    left without pixels. -/
theorem padded_isWithin_safeArea {p : Rect} {margin : Int} {frame : Frame}
    (hr : r.IsWithin safeArea) (hmargin : 0 < margin) (hframe : frame.IsSafe)
    (h : r.padded margin frame = .ok p) : p.IsWithin safeArea := by
  obtain ⟨width, height, hp, hx, hy⟩ := padded_eq_ok hmargin hr.width hr.height h
  have hclampX : p.width = max width 0 := congrArg Rect.width hp
  have hclampY : p.height = max height 0 := congrArg Rect.height hp
  have := isWithin_safeArea_iff.1 hr
  have := hframe.width
  have := hframe.height
  have := hx.bounds
  have := hy.bounds
  rw [isWithin_safeArea_iff]
  omega

end Rect

end ScoreOverlay
