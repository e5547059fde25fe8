import Mathlib.Data.List.Pairwise
import Mathlib.Data.List.Perm.Basic
import ScoreOverlay.Proofs.Glyph.Fusion.Groups

namespace ScoreOverlay.Fusion

theorem sweep_inBounds (threshold : Binary.Scalar) (visited pending : List Glyph) :
    InBounds (sweep threshold visited pending) := by
  induction hcount : pending.length using Nat.strong_induction_on generalizing visited pending with
  | _ count ih =>
    cases pending with
    | nil =>
      rw [sweep]
      exact InBounds.pure visited
    | cons anchor pending =>
      rw [sweep_cons]
      refine (InBounds.split fun _ _ => Rect.overlaps_inBounds _ _ _).bind fun _ _ => ?_
      refine (InBounds.split fun _ _ => Rect.overlaps_inBounds _ _ _).bind fun parts hparts => ?_
      refine (Glyph.absorbAll_inBounds _ _).bind fun grown _ => ih parts.2.length ?_ _ _ rfl
      have hlength := split_length hparts
      simp only [List.length_cons] at hcount
      omega

/-- No position that the pass uses is outside its list, and the cursor never moves back past the
    start. -/
theorem fuse_inBounds (threshold : Binary.Scalar) (glyphs : List Glyph) :
    InBounds (Glyph.fuse threshold glyphs) := by
  rw [fuse_eq_sweep]
  exact sweep_inBounds threshold [] glyphs

variable {glyphs : List Glyph} {groups : List (Group glyphs.length)}

theorem Accounts.existsUnique_group (h : Accounts glyphs groups) (i : Fin glyphs.length) :
    ∃! group, group ∈ groups ∧ i ∈ group.positions := by
  have hmem := h.partition.mem_iff.2 (List.mem_finRange i)
  have hnodup := h.partition.nodup_iff.2 (List.nodup_finRange _)
  obtain ⟨group, hgroup, hi⟩ := List.mem_flatMap.1 hmem
  refine ⟨group, ⟨hgroup, hi⟩, ?_⟩
  rintro other ⟨hother, hi'⟩
  by_contra hne
  have hsymm : Std.Symm (Function.onFun List.Disjoint
      (Group.positions : Group glyphs.length → List (Fin glyphs.length))) :=
    ⟨fun _ _ hdisjoint _ hi hi' => hdisjoint hi' hi⟩
  exact (List.nodup_flatMap.1 hnodup).2.forall hother hgroup hne hi' hi

/-- The members of a group, with their pixels and outlines, are found again in its glyph. -/
theorem Accounts.member_kept (h : Accounts glyphs groups) {group : Group glyphs.length}
    (hgroup : group ∈ groups) {i : Fin glyphs.length} (hi : i ∈ group.positions) :
    (∀ p, (glyphs.get i).rect.Covers p → group.fused.rect.Covers p) ∧
      (glyphs.get i).outlines.Subperm group.fused.outlines := by
  have hfusion := h.fusion group hgroup
  have hmember : glyphs.get i ∈ glyphs.get group.anchor :: group.others.map glyphs.get := by
    rw [← List.map_cons]
    exact List.mem_map_of_mem hi
  refine ⟨fun p hp => hfusion.rect.covers (List.mem_map_of_mem hmember) hp, ?_⟩
  have hsublist : (glyphs.get i).outlines.Sublist
      ((glyphs.get group.anchor :: group.others.map glyphs.get).flatMap Glyph.outlines) := by
    rw [List.flatMap_def]
    exact List.sublist_flatten_of_mem (List.mem_map_of_mem hmember)
  exact hsublist.subperm.trans hfusion.outlines_perm.symm.subperm

theorem Accounts.outlines_perm (h : Accounts glyphs groups) :
    ((groups.map Group.fused).flatMap Glyph.outlines).Perm (glyphs.flatMap Glyph.outlines) := by
  have hgroups : (groups.flatMap fun group => group.fused.outlines).Perm
      (groups.flatMap fun group => group.positions.flatMap fun i => (glyphs.get i).outlines) := by
    refine List.Perm.flatMap_left groups fun group hgroup => ?_
    have hperm := (h.fusion group hgroup).outlines_perm
    rwa [← List.map_cons, List.flatMap_map] at hperm
  have hpositions := h.partition.flatMap_right fun i => (glyphs.get i).outlines
  rw [List.flatMap_assoc] at hpositions
  have hall : (List.finRange glyphs.length).flatMap (fun i => (glyphs.get i).outlines) =
      glyphs.flatMap Glyph.outlines := by
    rw [← List.flatMap_map glyphs.get Glyph.outlines, List.map_get_finRange]
  rw [List.flatMap_map]
  exact hall ▸ hgroups.trans hpositions

/-- Fusing loses and duplicates nothing. The glyphs fall into groups, one for each glyph of the
    result and in the order of their anchors. A group's glyph has the outline and text of its
    anchor, its rectangle is the hull of those of all members, and it shows the anchor's outlines
    and then those of the others. A glyph that no other was fused into keeps its rectangle. Glyphs
    may have absorbed outlines before, and sizes need not be positive. -/
theorem fuse_conserves {threshold : Binary.Scalar} {glyphs : List Glyph}
    (hfits : NoOverflow (Glyph.fuse threshold glyphs)) :
    ∃ groups : List (Group glyphs.length),
      Glyph.fuse threshold glyphs = .ok (groups.map Group.fused) ∧
      Accounts glyphs groups ∧
      (∀ group ∈ groups, group.others = [] →
        group.fused.rect = (glyphs.get group.anchor).rect) ∧
      (∀ i, ∃! group, group ∈ groups ∧ i ∈ group.positions) ∧
      (∀ group ∈ groups, ∀ i ∈ group.positions,
        (∀ p, (glyphs.get i).rect.Covers p → group.fused.rect.Covers p) ∧
          (glyphs.get i).outlines.Subperm group.fused.outlines) ∧
      ((groups.map Group.fused).flatMap Glyph.outlines).Perm (glyphs.flatMap Glyph.outlines) := by
  obtain ⟨fused, hfused⟩ := (fuse_inBounds threshold glyphs).exists_ok hfits
  obtain ⟨groups, rfl, hinv⟩ := exists_groups hfused
  have haccounts := hinv.accounts
  refine ⟨groups, hfused, haccounts, ?_, haccounts.existsUnique_group,
    fun group hgroup i hi => haccounts.member_kept hgroup hi, haccounts.outlines_perm⟩
  intro group hgroup halone
  have hfusion := haccounts.fusion group hgroup
  rw [halone] at hfusion
  exact congrArg Glyph.rect hfusion.eq_of_alone

/-- Three glyphs in a row, each over the edge of the next. -/
private def row : List Glyph :=
  [⟨[⟨0, 0⟩, ⟨9, 9⟩], [], ⟨0, 0, 10, 10⟩, "a"⟩, ⟨[⟨8, 0⟩, ⟨17, 9⟩], [], ⟨8, 0, 10, 10⟩, "b"⟩,
    ⟨[⟨16, 0⟩, ⟨25, 9⟩], [[⟨16, 1⟩]], ⟨16, 0, 10, 10⟩, "c"⟩]

/-- The first glyph takes over the second and is then itself taken over by the third, so that the
    cursor moves back over it. -/
theorem fuse_conserves_row :
    Glyph.fuse (.finite (mkRat 3 20)) row =
        .ok [⟨[⟨16, 0⟩, ⟨25, 9⟩], [[⟨16, 1⟩], [⟨0, 0⟩, ⟨9, 9⟩], [⟨8, 0⟩, ⟨17, 9⟩]], ⟨0, 0, 26, 10⟩,
          "c"⟩] ∧
      ∃ groups : List (Group row.length),
        Glyph.fuse (.finite (mkRat 3 20)) row = .ok (groups.map Group.fused) ∧
          Accounts row groups := by
  have hfits : NoOverflow (Glyph.fuse (.finite (mkRat 3 20)) row) := by decide +kernel
  obtain ⟨groups, hfused, haccounts, _⟩ := fuse_conserves hfits
  exact ⟨by decide +kernel, groups, hfused, haccounts⟩

end ScoreOverlay.Fusion
