import ScoreOverlay.Proofs.Geometry.Overlap
import ScoreOverlay.Proofs.Glyph.Absorption
import ScoreOverlay.Proofs.Glyph.Fusion.Sweep

namespace ScoreOverlay

/-- Two glyphs overlap. -/
def Glyph.Overlaps (threshold : Binary.Scalar) (g other : Glyph) : Prop :=
  g.rect.overlaps other.rect threshold = .ok true

/-- Two glyphs do not overlap, and finding that out does not overflow. -/
def Glyph.Apart (threshold : Binary.Scalar) (g other : Glyph) : Prop :=
  g.rect.overlaps other.rect threshold = .ok false

theorem Glyph.Apart.symm {threshold : Binary.Scalar} {g other : Glyph}
    (h : g.Apart threshold other) : other.Apart threshold g :=
  (Rect.overlaps_comm other.rect g.rect threshold).trans h

theorem Glyph.Apart.not_overlaps {threshold : Binary.Scalar} {g other : Glyph}
    (h : g.Apart threshold other) : ¬ g.Overlaps threshold other := by
  intro hoverlaps
  have hanswer : (Except.ok false : Checked Bool) = .ok true := (Eq.symm h).trans hoverlaps
  cases hanswer

namespace Fusion

/-- A glyph of the result and the positions in the original list of the glyphs it is made of. -/
structure Group (count : Nat) where
  anchor : Fin count
  others : List (Fin count)
  fused : Glyph

def Group.positions {count : Nat} (group : Group count) : List (Fin count) :=
  group.anchor :: group.others

/-- The groups account for all glyphs: each position is in one group and only once, anchors stand
    in the original order, and each group's glyph is the fusion of its members. -/
structure Accounts (glyphs : List Glyph) (groups : List (Group glyphs.length)) : Prop where
  partition : (groups.flatMap Group.positions).Perm (List.finRange glyphs.length)
  ordered : (groups.map Group.anchor).Pairwise (· < ·)
  fusion : ∀ group ∈ groups,
    group.fused.IsFusionOf (glyphs.get group.anchor) (group.others.map glyphs.get)

/-- The glyph of a later group was found apart from an earlier one, both from what the anchor of
    that one was and from what it has become. -/
def Separated (threshold : Binary.Scalar) (glyphs : List Glyph)
    (earlier later : Group glyphs.length) : Prop :=
  (glyphs.get later.anchor).Apart threshold earlier.fused ∧
    (glyphs.get later.anchor).Apart threshold (glyphs.get earlier.anchor)

/-- What holds between two turns: the groups that had their turn and the positions still to come
    account for all glyphs, and no anchor of a group overlaps a glyph still to come. -/
structure Invariant (threshold : Binary.Scalar) (glyphs : List Glyph)
    (groups : List (Group glyphs.length)) (pending : List (Fin glyphs.length)) : Prop where
  partition : (groups.flatMap Group.positions ++ pending).Perm (List.finRange glyphs.length)
  ordered : (groups.map Group.anchor ++ pending).Pairwise (· < ·)
  fusion : ∀ group ∈ groups,
    group.fused.IsFusionOf (glyphs.get group.anchor) (group.others.map glyphs.get)
  ahead : ∀ group ∈ groups, ∀ i ∈ pending,
    (glyphs.get group.anchor).Apart threshold (glyphs.get i)
  separated : groups.Pairwise (Separated threshold glyphs)

theorem Invariant.start (threshold : Binary.Scalar) (glyphs : List Glyph) :
    Invariant threshold glyphs [] (List.finRange glyphs.length) where
  partition := List.Perm.refl _
  ordered := List.pairwise_lt_finRange _
  fusion := by simp
  ahead := by simp
  separated := List.Pairwise.nil

theorem Invariant.accounts {threshold : Binary.Scalar} {glyphs : List Glyph}
    {groups : List (Group glyphs.length)} (h : Invariant threshold glyphs groups []) :
    Accounts glyphs groups where
  partition := by simpa using h.partition
  ordered := by simpa using h.ordered
  fusion := h.fusion

section Turn

variable {threshold : Binary.Scalar} {glyphs : List Glyph}
  {groups taken kept : List (Group glyphs.length)} {anchor : Fin glyphs.length}
  {pending absorbed rest : List (Fin glyphs.length)} {grown : Glyph}

/-- The group of a turn's glyph: all members of the groups it takes over and the glyphs that it
    takes over before their turn. -/
def grownGroup (anchor : Fin glyphs.length) (taken : List (Group glyphs.length))
    (absorbed : List (Fin glyphs.length)) (grown : Glyph) : Group glyphs.length :=
  ⟨anchor, taken.flatMap Group.positions ++ absorbed, grown⟩

theorem grownGroup_partition (htaken : (taken ++ kept).Perm groups)
    (habsorbed : (absorbed ++ rest).Perm pending) :
    ((kept ++ [grownGroup anchor taken absorbed grown]).flatMap Group.positions ++ rest).Perm
      (groups.flatMap Group.positions ++ anchor :: pending) := by
  refine List.perm_iff_count.2 fun i => ?_
  have hgroups := (htaken.flatMap_right Group.positions).count_eq i
  have hpending := habsorbed.count_eq i
  simp only [List.flatMap_append, List.count_append] at hgroups hpending
  simp only [List.flatMap_append, List.flatMap_cons, List.flatMap_nil, List.append_nil,
    List.count_append, List.count_cons, Group.positions, grownGroup] at hgroups ⊢
  omega

/-- The fusion of a turn. Only an anchor with pixels takes over anything, and then the union of
    rectangles is their hull. -/
theorem grownGroup_fusion
    (hfusion : ∀ group ∈ taken,
      group.fused.IsFusionOf (glyphs.get group.anchor) (group.others.map glyphs.get))
    (hsize : taken ≠ [] ∨ absorbed ≠ [] →
      0 < (glyphs.get anchor).rect.width ∧ 0 < (glyphs.get anchor).rect.height)
    (hgrown : (glyphs.get anchor).absorbAll (taken.map Group.fused ++ absorbed.map glyphs.get) =
      .ok grown) :
    grown.IsFusionOf (glyphs.get anchor)
      ((grownGroup anchor taken absorbed grown).others.map glyphs.get) := by
  by_cases hnone : taken = [] ∧ absorbed = []
  · obtain ⟨rfl, rfl⟩ := hnone
    cases hgrown
    exact Glyph.IsFusionOf.refl _
  · obtain ⟨hwidth, hheight⟩ := hsize (by tauto)
    rw [Glyph.absorbAll, List.foldlM_append] at hgrown
    obtain ⟨next, hnext, hgrown⟩ := bind_eq_ok_iff.1 hgrown
    obtain ⟨hfirst, hwidth', hheight'⟩ := (Glyph.IsFusionOf.refl (glyphs.get anchor)).absorbAll
      hfusion hwidth.le hheight.le hnext
    have halone : ∀ i ∈ absorbed, (glyphs.get i).IsFusionOf (glyphs.get i) [] :=
      fun i _ => Glyph.IsFusionOf.refl (glyphs.get i)
    have hsecond := hfirst.absorbAll halone hwidth' hheight' hgrown
    rw [← List.map_eq_flatMap] at hsecond
    simpa [grownGroup, Group.positions, List.map_flatMap] using hsecond.1

/-- One turn keeps the invariant. -/
theorem Invariant.turn (hinv : Invariant threshold glyphs groups (anchor :: pending))
    (htaken : IsDivision (fun group : Group glyphs.length =>
      (glyphs.get anchor).rect.overlaps group.fused.rect threshold) groups taken kept)
    (habsorbed : IsDivision (fun i =>
      (glyphs.get anchor).rect.overlaps (glyphs.get i).rect threshold) pending absorbed rest)
    (hgrown : (glyphs.get anchor).absorbAll (taken.map Group.fused ++ absorbed.map glyphs.get) =
      .ok grown) :
    Invariant threshold glyphs (kept ++ [grownGroup anchor taken absorbed grown]) rest := by
  have hsize : taken ≠ [] ∨ absorbed ≠ [] →
      0 < (glyphs.get anchor).rect.width ∧ 0 < (glyphs.get anchor).rect.height := by
    rintro (hne | hne)
    · obtain ⟨group, hgroup⟩ := List.exists_mem_of_ne_nil taken hne
      exact Rect.pos_of_overlaps (htaken.holds group hgroup)
    · obtain ⟨i, hi⟩ := List.exists_mem_of_ne_nil absorbed hne
      exact Rect.pos_of_overlaps (habsorbed.holds i hi)
  constructor
  · exact (grownGroup_partition htaken.perm habsorbed.perm).trans hinv.partition
  · have hsublist : ((kept ++ [grownGroup anchor taken absorbed grown]).map Group.anchor ++
        rest).Sublist (groups.map Group.anchor ++ anchor :: pending) := by
      simpa [grownGroup] using
        (htaken.failed_sublist.map Group.anchor).append (habsorbed.failed_sublist.cons_cons anchor)
    exact hinv.ordered.sublist hsublist
  · intro group hgroup
    rcases List.mem_append.1 hgroup with hold | hnew
    · exact hinv.fusion group (htaken.failed_sublist.subset hold)
    · rw [List.mem_singleton.1 hnew]
      exact grownGroup_fusion
        (fun group hgroup => hinv.fusion group (htaken.passed_sublist.subset hgroup)) hsize hgrown
  · intro group hgroup i hi
    rcases List.mem_append.1 hgroup with hold | hnew
    · exact hinv.ahead group (htaken.failed_sublist.subset hold) i
        (List.mem_cons_of_mem _ (habsorbed.failed_sublist.subset hi))
    · rw [List.mem_singleton.1 hnew]
      exact habsorbed.fails i hi
  · refine List.pairwise_append.2 ⟨hinv.separated.sublist htaken.failed_sublist,
      List.pairwise_singleton _ _, ?_⟩
    intro group hgroup new hnew
    rw [List.mem_singleton.1 hnew]
    exact ⟨htaken.fails group hgroup, (hinv.ahead group (htaken.failed_sublist.subset hgroup) anchor
      List.mem_cons_self).symm⟩

end Turn

/-- The pass turns one state of the invariant after the other into the next, to the end. -/
theorem Invariant.sweep {threshold : Binary.Scalar} {glyphs fused : List Glyph}
    {groups : List (Group glyphs.length)} {pending : List (Fin glyphs.length)}
    (hinv : Invariant threshold glyphs groups pending)
    (h : sweep threshold (groups.map Group.fused) (pending.map glyphs.get) = .ok fused) :
    ∃ groups', fused = groups'.map Group.fused ∧ Invariant threshold glyphs groups' [] := by
  induction hcount : pending.length using Nat.strong_induction_on generalizing groups pending with
  | _ count ih =>
    cases pending with
    | nil =>
      rw [List.map_nil, Fusion.sweep] at h
      cases h
      exact ⟨groups, rfl, hinv⟩
    | cons anchor pending =>
      rw [List.map_cons, sweep_cons] at h
      simp only [bind_eq_ok_iff] at h
      obtain ⟨⟨before, keptGlyphs⟩, hbefore, ⟨after, restGlyphs⟩, hafter, grown, hgrown, h⟩ := h
      obtain ⟨taken, kept, rfl, rfl, htaken⟩ := split_map_isDivision hbefore
      obtain ⟨absorbed, rest, rfl, rfl, habsorbed⟩ := split_map_isDivision hafter
      have hnext := hinv.turn htaken habsorbed hgrown
      have hless := habsorbed.failed_sublist.length_le
      refine ih rest.length ?_ hnext ?_ rfl
      · simp only [List.length_cons] at hcount
        omega
      · simpa [grownGroup] using h

/-- The invariant at the end of the pass over a whole list. -/
theorem exists_groups {threshold : Binary.Scalar} {glyphs fused : List Glyph}
    (h : Glyph.fuse threshold glyphs = .ok fused) :
    ∃ groups, fused = groups.map Group.fused ∧ Invariant threshold glyphs groups [] := by
  rw [fuse_eq_sweep] at h
  apply (Invariant.start threshold glyphs).sweep
  simpa using h

end Fusion

end ScoreOverlay
