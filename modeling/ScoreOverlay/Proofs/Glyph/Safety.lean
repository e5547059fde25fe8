import ScoreOverlay.Proofs.Geometry.SafeArea
import ScoreOverlay.Proofs.Glyph.Containment
import ScoreOverlay.Proofs.Glyph.Fusion.Separation

namespace ScoreOverlay

namespace Glyph

/-- The glyphs are few enough that nothing overflows that is added up over them, and lie in the safe
    area. -/
structure AreSafe (glyphs : List Glyph) : Prop where
  count : glyphs.length ≤ 4096
  within : ∀ g ∈ glyphs, g.rect.IsWithin Rect.safeArea

theorem ofOutlines_noOverflow {outlines : List Outline}
    (h : ∀ o ∈ outlines, ∀ p ∈ o, Rect.safeArea.Covers p) : NoOverflow (ofOutlines outlines) := by
  refine NoOverflow.bind (NoOverflow.mapM fun o ho => ?_) fun _ _ => NoOverflow.pure _
  refine (Outline.extent?_noOverflow fun p hp => ?_).bind fun _ _ => NoOverflow.pure _
  exact h o ho p ((Outline.simplify_sublist _ o).subset hp)

theorem absorb_isWithin {g other grown : Glyph} {area : Rect} (hg : g.rect.IsWithin area)
    (hother : other.rect.IsWithin area) (h : g.absorb other = .ok grown) :
    grown.rect.IsWithin area := by
  obtain ⟨rect, hrect, h⟩ := bind_eq_ok_iff.1 h
  cases h
  exact Rect.union_isWithin hg hother hrect

theorem absorbAll_isWithin {g grown : Glyph} {others : List Glyph} {area : Rect}
    (hg : g.rect.IsWithin area) (hothers : ∀ other ∈ others, other.rect.IsWithin area)
    (h : g.absorbAll others = .ok grown) : grown.rect.IsWithin area := by
  have hkeeps : Ensures (g.absorbAll others) fun grown => grown.rect.IsWithin area :=
    Ensures.foldlM hg fun g hg other hother =>
      ⟨absorb_inBounds g other, fun _ h => absorb_isWithin hg (hothers other hother) h⟩
  exact hkeeps.2 grown h

theorem absorbAll_noOverflow {g : Glyph} {others : List Glyph}
    (hg : g.rect.IsWithin Rect.safeArea)
    (hothers : ∀ other ∈ others, other.rect.IsWithin Rect.safeArea) :
    NoOverflow (g.absorbAll others) := by
  refine NoOverflow.foldlM (P := fun g : Glyph => g.rect.IsWithin Rect.safeArea) hg ?_ ?_
  · exact fun g hg other hother grown h => absorb_isWithin hg (hothers other hother) h
  · intro g hg other hother
    exact (Rect.union_noOverflow hg (hothers other hother)).bind fun _ _ => NoOverflow.pure _

end Glyph

namespace Fusion

/-- In the safe area a pass overflows nowhere, as what a turn grows stays there. -/
theorem sweep_noOverflow (threshold : Binary.Scalar) {visited pending : List Glyph}
    (hvisited : ∀ g ∈ visited, g.rect.IsWithin Rect.safeArea)
    (hpending : ∀ g ∈ pending, g.rect.IsWithin Rect.safeArea) :
    NoOverflow (sweep threshold visited pending) := by
  induction hcount : pending.length using Nat.strong_induction_on generalizing visited pending with
  | _ count ih =>
    cases pending with
    | nil =>
      rw [sweep]
      exact NoOverflow.pure visited
    | cons anchor pending =>
      obtain ⟨hanchor, hlater⟩ := List.forall_mem_cons.1 hpending
      rw [sweep_cons]
      refine (NoOverflow.split fun g hg =>
        Rect.overlaps_noOverflow threshold hanchor (hvisited g hg)).bind fun parts hparts => ?_
      refine (NoOverflow.split fun g hg =>
        Rect.overlaps_noOverflow threshold hanchor (hlater g hg)).bind fun parts' hparts' => ?_
      have hbefore := split_isDivision hparts
      have hafter := split_isDivision hparts'
      have hothers : ∀ g ∈ parts.1 ++ parts'.1, g.rect.IsWithin Rect.safeArea := by
        intro g hg
        rcases List.mem_append.1 hg with hg | hg
        · exact hvisited g (hbefore.passed_sublist.subset hg)
        · exact hlater g (hafter.passed_sublist.subset hg)
      refine (Glyph.absorbAll_noOverflow hanchor hothers).bind fun grown hgrown => ?_
      have hlength := split_length hparts'
      simp only [List.length_cons] at hcount
      refine ih parts'.2.length (by omega) (fun g hg => ?_)
        (fun g hg => hlater g (hafter.failed_sublist.subset hg)) rfl
      rcases List.mem_append.1 hg with hg | hg
      · exact hvisited g (hbefore.failed_sublist.subset hg)
      · rw [List.mem_singleton.1 hg]
        exact Glyph.absorbAll_isWithin hanchor hothers hgrown

theorem fuse_noOverflow (threshold : Binary.Scalar) {glyphs : List Glyph}
    (h : ∀ g ∈ glyphs, g.rect.IsWithin Rect.safeArea) :
    NoOverflow (Glyph.fuse threshold glyphs) := by
  rw [fuse_eq_sweep]
  exact sweep_noOverflow threshold (by simp) h

theorem Accounts.length_le {glyphs : List Glyph} {groups : List (Group glyphs.length)}
    (h : Accounts glyphs groups) : groups.length ≤ glyphs.length := by
  have hcount := length_le_positions groups
  rwa [h.partition.length_eq, List.length_finRange] at hcount

end Fusion

namespace Settings

variable {settings : Settings} {outlines : List Outline} {frame : Frame}

/-- Up to the margin nothing overflows in the safe area. -/
theorem findGlyphs_noOverflow_of_padded (hpoints : ∀ o ∈ outlines, ∀ p ∈ o, Rect.safeArea.Covers p)
    (hpadded : ∀ found fused, Glyph.ofOutlines outlines = .ok found →
      Glyph.fuse settings.overlapThreshold (settings.limits.select found) = .ok fused →
        ∀ g ∈ fused, NoOverflow (g.rect.padded settings.margin frame)) :
    NoOverflow (settings.findGlyphs outlines frame) := by
  refine (Glyph.ofOutlines_noOverflow hpoints).bind fun found hfound => ?_
  have hselected : ∀ g ∈ settings.limits.select found, g.StandsIn Rect.safeArea :=
    Glyph.standsIn_of_select hpoints hfound
  refine (Fusion.fuse_noOverflow _ fun g hg => (hselected g hg).1).bind fun fused hfused => ?_
  refine NoOverflow.ite (fun _ => NoOverflow.pure _) fun _ => NoOverflow.mapM fun g hg => ?_
  exact (hpadded found fused hfound hfused g hg).bind fun _ _ => NoOverflow.pure _

theorem findGlyphs_noOverflow (hmargin : settings.margin ≤ 65536) (hframe : frame.IsSafe)
    (hpoints : ∀ o ∈ outlines, ∀ p ∈ o, Rect.safeArea.Covers p) :
    NoOverflow (settings.findGlyphs outlines frame) := by
  refine findGlyphs_noOverflow_of_padded hpoints fun found fused hfound hfused g hg => ?_
  have hstand := Glyph.standsIn_of_fuse (Glyph.standsIn_of_select hpoints hfound) hfused
  exact Rect.padded_noOverflow (hstand g hg).1 hmargin hframe

/-- Each glyph that is found shows some of the outlines. -/
theorem outlines_subset_of_findGlyphs {glyphs : List Glyph}
    (h : settings.findGlyphs outlines frame = .ok glyphs) :
    ∀ g ∈ glyphs, g.outlines ⊆ outlines := by
  obtain ⟨found, fused, hfound, hfused, -, hwide⟩ := settings.findGlyphs_eq_ok h
  have hselected : ∀ g ∈ settings.limits.select found, g.outlines ⊆ outlines := by
    intro g hg
    obtain ⟨o, ho, hg⟩ := Glyph.exists_outline hfound (List.mem_filter.1 hg).1
    obtain ⟨houtline, habsorbed, -⟩ := Glyph.ofOutline?_eq_ok hg
    rw [Glyph.outlines, houtline, habsorbed]
    simpa using ho
  have hshown : ∀ g ∈ fused, g.outlines ⊆ outlines := by
    intro g hg o ho
    obtain ⟨anchor, others, hmembers, hfusion⟩ := Glyph.exists_members_of_fuse hfused hg
    obtain ⟨m, hm, ho⟩ := List.mem_flatMap.1 (hfusion.outlines_perm.mem_iff.1 ho)
    exact hselected m (hmembers hm) ho
  intro g hg
  obtain ⟨narrow, hnarrow, hsame, -⟩ := hwide g hg
  rw [hsame]
  exact hshown narrow hnarrow

/-- There are no more glyphs than outlines. -/
theorem length_le_of_findGlyphs {glyphs : List Glyph}
    (h : settings.findGlyphs outlines frame = .ok glyphs) : glyphs.length ≤ outlines.length := by
  obtain ⟨found, fused, hfound, hfused, hlength, -⟩ := settings.findGlyphs_eq_ok h
  obtain ⟨glyphs?, hglyphs, hfound⟩ := bind_eq_ok_iff.1 hfound
  cases hfound
  obtain ⟨groups, rfl, hinv⟩ := Fusion.exists_groups hfused
  rw [hlength, List.length_map]
  calc
    groups.length ≤ (settings.limits.select (glyphs?.filterMap id)).length :=
      hinv.accounts.length_le
    _ ≤ (glyphs?.filterMap id).length := List.length_filter_le _ _
    _ ≤ glyphs?.length := List.length_filterMap_le _ _
    _ = outlines.length := length_of_mapM_eq_ok hglyphs

/-- From few outlines in the safe area come few glyphs in the safe area. -/
theorem areSafe_of_findGlyphs {glyphs : List Glyph} (hframe : frame.IsSafe)
    (hcount : outlines.length ≤ 4096) (hpoints : ∀ o ∈ outlines, ∀ p ∈ o, Rect.safeArea.Covers p)
    (h : settings.findGlyphs outlines frame = .ok glyphs) : Glyph.AreSafe glyphs := by
  refine ⟨(length_le_of_findGlyphs h).trans hcount, ?_⟩
  obtain ⟨found, fused, hfound, hfused, -, hwide⟩ := settings.findGlyphs_eq_ok h
  have hstand := Glyph.standsIn_of_fuse (Glyph.standsIn_of_select hpoints hfound) hfused
  intro g hg
  obtain ⟨narrow, hnarrow, -, hrect | ⟨hmargin, hrect⟩⟩ := hwide g hg
  · rw [hrect]
    exact (hstand narrow hnarrow).1
  · exact Rect.padded_isWithin_safeArea (hstand narrow hnarrow).1 hmargin hframe hrect

end Settings

end ScoreOverlay
