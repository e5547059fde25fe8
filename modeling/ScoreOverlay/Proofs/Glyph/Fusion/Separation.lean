import ScoreOverlay.Proofs.Glyph.Fusion.Conservation

namespace ScoreOverlay.Fusion

variable {threshold : Binary.Scalar} {glyphs : List Glyph}

private theorem split_eq_of_no_overlap {anchor : Glyph} {others : List Glyph}
    {parts : List Glyph × List Glyph} (hnone : ∀ other ∈ others, ¬ anchor.Overlaps threshold other)
    (h : split (fun other => anchor.rect.overlaps other.rect threshold) others = .ok parts) :
    parts = ([], others) := by
  obtain ⟨passed, failed⟩ := parts
  have hdivision := split_isDivision h
  have hempty : passed = [] := by
    refine List.eq_nil_iff_forall_not_mem.2 fun other hother => ?_
    exact hnone other (hdivision.passed_sublist.subset hother) (hdivision.holds other hother)
  subst hempty
  rw [hdivision.failed_sublist.eq_of_length hdivision.perm.length_eq]

/-- The pass changes nothing about glyphs that do not overlap. -/
theorem eq_of_no_overlap {visited pending fused : List Glyph}
    (hnone : (visited ++ pending).Pairwise fun g other => ¬ g.Overlaps threshold other)
    (h : sweep threshold visited pending = .ok fused) : fused = visited ++ pending := by
  induction pending generalizing visited with
  | nil =>
    rw [sweep] at h
    cases h
    rw [List.append_nil]
  | cons anchor pending ih =>
    have hvisited : ∀ other ∈ visited, ¬ anchor.Overlaps threshold other := by
      intro other hother hoverlaps
      exact (List.pairwise_append.1 hnone).2.2 other hother anchor List.mem_cons_self
        ((Rect.overlaps_comm other.rect anchor.rect threshold).trans hoverlaps)
    have hpending : ∀ other ∈ pending, ¬ anchor.Overlaps threshold other :=
      (List.pairwise_cons.1 (List.pairwise_append.1 hnone).2.1).1
    rw [sweep_cons] at h
    simp only [bind_eq_ok_iff] at h
    obtain ⟨parts, hbefore, parts', hafter, grown, hgrown, h⟩ := h
    rw [split_eq_of_no_overlap hvisited hbefore, split_eq_of_no_overlap hpending hafter] at *
    cases hgrown
    have hrest : fused = (visited ++ [anchor]) ++ pending := ih (by simpa using hnone) h
    simpa using hrest

theorem length_le_positions (groups : List (Group glyphs.length)) :
    groups.length ≤ (groups.flatMap Group.positions).length := by
  induction groups with
  | nil => simp
  | cons group rest ih =>
    simp only [List.flatMap_cons, List.length_append, List.length_cons, Group.positions]
    omega

/-- As many groups as glyphs leave no room for a group with a second member. -/
theorem Accounts.alone_of_length {groups : List (Group glyphs.length)} (h : Accounts glyphs groups)
    (hlength : groups.length = glyphs.length) : ∀ group ∈ groups, group.others = [] := by
  intro group hgroup
  obtain ⟨earlier, later, rfl⟩ := List.append_of_mem hgroup
  have hcount := h.partition.length_eq
  have hearlier := length_le_positions earlier
  have hlater := length_le_positions later
  simp only [List.flatMap_append, List.flatMap_cons, List.length_append, List.length_cons,
    List.length_finRange, Group.positions] at hcount hlength hearlier hlater
  exact List.length_eq_zero_iff.1 (by omega)

/-- The pass leaves a list as it is exactly if no two glyphs of it overlap. -/
theorem eq_self_iff {fused : List Glyph} (h : Glyph.fuse threshold glyphs = .ok fused) :
    fused = glyphs ↔ glyphs.Pairwise fun g other => ¬ g.Overlaps threshold other := by
  constructor
  · intro hself
    obtain ⟨groups, hgroups, hinv⟩ := exists_groups h
    have hmap : groups.map Group.fused = glyphs := hgroups.symm.trans hself
    have hlength : groups.length = glyphs.length := by
      simpa using congrArg List.length hmap
    have halone := hinv.accounts.alone_of_length hlength
    have hpairwise : (groups.map Group.fused).Pairwise fun g other =>
        ¬ g.Overlaps threshold other := by
      refine List.pairwise_map.2 (hinv.separated.imp_of_mem ?_)
      intro earlier later _ hlater hseparated
      have hfusion := hinv.fusion later hlater
      rw [halone later hlater] at hfusion
      rw [hfusion.eq_of_alone]
      exact hseparated.1.symm.not_overlaps
    rwa [hmap] at hpairwise
  · intro hnone
    rw [fuse_eq_sweep] at h
    have hsame : fused = [] ++ glyphs := eq_of_no_overlap hnone h
    exact hsame

/-- What one pass guarantees about overlaps. The anchor of each glyph of the result overlaps neither
    an earlier glyph of the result nor the anchor of an earlier one, so the pass changes nothing
    exactly if no two glyphs overlap. Two glyphs of the result may still overlap. -/
theorem fuse_separates (hfits : NoOverflow (Glyph.fuse threshold glyphs)) :
    ∃ groups : List (Group glyphs.length),
      Glyph.fuse threshold glyphs = .ok (groups.map Group.fused) ∧
        Accounts glyphs groups ∧ groups.Pairwise (Separated threshold glyphs) ∧
        (groups.map Group.fused = glyphs ↔
          glyphs.Pairwise fun g other => ¬ g.Overlaps threshold other) := by
  obtain ⟨fused, hfused⟩ := (fuse_inBounds threshold glyphs).exists_ok hfits
  obtain ⟨groups, rfl, hinv⟩ := exists_groups hfused
  exact ⟨groups, hfused, hinv.accounts, hinv.separated, eq_self_iff hfused⟩

/-- The second glyph grows into the first only after the first had its turn. -/
private def late : List Glyph :=
  [⟨[⟨0, 0⟩], [], ⟨0, 0, 10, 10⟩, "a"⟩, ⟨[⟨12, 8⟩], [], ⟨12, 8, 10, 10⟩, "b"⟩,
    ⟨[⟨2, 12⟩], [], ⟨2, 12, 20, 10⟩, "c"⟩]

theorem fuse_separates_late :
    Glyph.fuse (.finite (mkRat 3 20)) late =
        .ok [⟨[⟨0, 0⟩], [], ⟨0, 0, 10, 10⟩, "a"⟩, ⟨[⟨12, 8⟩], [[⟨2, 12⟩]], ⟨2, 8, 20, 14⟩, "b"⟩] ∧
      Rect.overlaps ⟨0, 0, 10, 10⟩ ⟨2, 8, 20, 14⟩ (.finite (mkRat 3 20)) = .ok true ∧
      ∃ groups : List (Group late.length),
        Glyph.fuse (.finite (mkRat 3 20)) late = .ok (groups.map Group.fused) ∧
          groups.Pairwise (Separated (.finite (mkRat 3 20)) late) := by
  have hfits : NoOverflow (Glyph.fuse (.finite (mkRat 3 20)) late) := by decide +kernel
  obtain ⟨groups, hfused, _, hseparated, _⟩ := fuse_separates hfits
  exact ⟨by decide +kernel, by decide +kernel, groups, hfused, hseparated⟩

end ScoreOverlay.Fusion
