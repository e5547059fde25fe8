import ScoreOverlay.Proofs.Cluster.Pairing.Matching

namespace ScoreOverlay.Pairing

/-- The second table comes from the first by taking whole pairs apart: it has no new pairs, and
    what is left is again a matching. -/
structure Refines (pairing refined : Pairing) : Prop where
  length : refined.length = pairing.length
  matching : refined.IsMatching
  kept : ∀ {i j}, refined.Pairs i j → pairing.Pairs i j

theorem Refines.refl {pairing : Pairing} (h : pairing.IsMatching) : Refines pairing pairing :=
  ⟨rfl, h, id⟩

theorem Refines.trans {pairing refined further : Pairing} (h : Refines pairing refined)
    (h' : Refines refined further) : Refines pairing further :=
  ⟨h'.length.trans h.length, h'.matching, fun hpairs => h.kept (h'.kept hpairs)⟩

/-- Of every pair both members stay or neither does. -/
theorem Refines.both {pairing refined : Pairing} {i j : Nat} (h : Refines pairing refined)
    (hmatching : pairing.IsMatching) (hpairs : pairing.Pairs i j) :
    (∃ k, refined.Pairs i k) ↔ ∃ k, refined.Pairs j k := by
  constructor
  · rintro ⟨k, hk⟩
    obtain rfl := (h.kept hk).unique hpairs
    exact ⟨i, h.matching.symm hk⟩
  · rintro ⟨k, hk⟩
    obtain rfl := (h.kept hk).unique (hmatching.symm hpairs)
    exact ⟨j, h.matching.symm hk⟩

/-- The table after a pair has been taken apart. -/
def part (pairing : Pairing) (i j : Nat) : Pairing := (pairing.set i none).set j none

theorem part_pairs_iff {pairing : Pairing} {i j a b : Nat} :
    (pairing.part i j).Pairs a b ↔ pairing.Pairs a b ∧ a ≠ i ∧ a ≠ j := by
  unfold Pairs part
  rw [List.getElem?_set, List.getElem?_set, List.length_set]
  grind

theorem part_refines {pairing : Pairing} {i j : Nat} (h : pairing.IsMatching)
    (hpairs : pairing.Pairs i j) : Refines pairing (pairing.part i j) := by
  refine ⟨by simp [part], ⟨fun hab => h.ne (part_pairs_iff.1 hab).1, ?_⟩,
    fun hab => (part_pairs_iff.1 hab).1⟩
  intro a b hab
  obtain ⟨hold, hai, haj⟩ := part_pairs_iff.1 hab
  refine part_pairs_iff.2 ⟨h.symm hold, ?_, ?_⟩
  · rintro rfl
    exact haj ((h.symm hold).unique hpairs)
  · rintro rfl
    exact hai ((h.symm hold).unique (h.symm hpairs))

/-- Everything that taking apart can do. A free position changes nothing. -/
theorem separate_ensures {pairing : Pairing} {i : Nat} (h : pairing.IsMatching)
    (hi : i < pairing.length) :
    Ensures (pairing.separate i) fun next =>
      (next = pairing ∧ pairing.Free i) ∨ ∃ j, pairing.Pairs i j ∧ next = pairing.part i j := by
  refine (Ensures.elementAt hi).bind fun partner? hpartner => ?_
  cases partner? with
  | none => exact Ensures.pure (.inl ⟨rfl, hpartner⟩)
  | some j =>
    have hj : j < (pairing.set i none).length := by
      rw [List.length_set]
      exact Pairs.lt_length (h.symm hpartner)
    exact (Ensures.elementAt hj).bind fun _ _ => Ensures.pure (.inr ⟨j, hpartner, rfl⟩)

/-- The second table is left of the first when each pair is taken apart that passes the test, seen
    from one of its members. -/
structure TakesApart (drops : Nat → Nat → Prop) (pairing refined : Pairing) : Prop where
  refines : Refines pairing refined
  pairs : ∀ i j, refined.Pairs i j ↔ pairing.Pairs i j ∧ ¬ drops i j ∧ ¬ drops j i

namespace TakesApart

variable {drops drops' : Nat → Nat → Prop} {pairing refined further : Pairing}

theorem refl (h : pairing.IsMatching) (hnone : ∀ i j, pairing.Pairs i j → ¬ drops i j) :
    TakesApart drops pairing pairing := by
  refine ⟨Refines.refl h, fun i j => (and_iff_left_of_imp fun hpairs => ?_).symm⟩
  exact ⟨hnone i j hpairs, hnone j i (h.symm hpairs)⟩

theorem unique (h : TakesApart drops pairing refined) (h' : TakesApart drops pairing further) :
    refined = further := by
  apply ext_pairs (h.refines.length.trans h'.refines.length.symm)
  intro i j
  rw [h.pairs, h'.pairs]

theorem trans (h : TakesApart drops pairing refined) (h' : TakesApart drops' refined further) :
    TakesApart (fun i j => drops i j ∨ drops' i j) pairing further := by
  refine ⟨h.refines.trans h'.refines, fun i j => ?_⟩
  rw [h'.pairs, h.pairs]
  tauto

theorem congr (h : TakesApart drops pairing refined) (hmatching : pairing.IsMatching)
    (hiff : ∀ i j, pairing.Pairs i j → (drops i j ↔ drops' i j)) :
    TakesApart drops' pairing refined := by
  refine ⟨h.refines, fun i j => ?_⟩
  rw [h.pairs]
  refine and_congr_right fun hpairs => ?_
  rw [hiff i j hpairs, hiff j i (hmatching.symm hpairs)]

/-- A turn that leaves the pair of a position as it is. -/
theorem skip {v : Nat} (h : pairing.IsMatching) (hkeeps : ∀ k, pairing.Pairs v k → ¬ drops v k) :
    TakesApart (fun i j => i = v ∧ drops i j) pairing pairing := by
  apply refl h
  rintro i j hpairs ⟨rfl, hdrop⟩
  exact hkeeps j hpairs hdrop

end TakesApart

/-- A turn that takes the pair of a position apart. -/
theorem separate_takesApart {drops : Nat → Nat → Prop} {pairing : Pairing} {v : Nat}
    (h : pairing.IsMatching) (hv : v < pairing.length)
    (hdrops : ∀ k, pairing.Pairs v k → drops v k) :
    Ensures (pairing.separate v) (TakesApart (fun i j => i = v ∧ drops i j) pairing) := by
  refine (separate_ensures h hv).imp ?_
  rintro next (⟨rfl, hfree⟩ | ⟨k, hpairs, rfl⟩)
  · apply TakesApart.refl h
    rintro i j hpairs ⟨rfl, -⟩
    exact hfree.not_pairs hpairs
  · refine ⟨part_refines h hpairs, fun i j => ?_⟩
    rw [part_pairs_iff]
    refine and_congr_right fun hij => and_congr (not_congr ?_) (not_congr ?_)
    · constructor
      · rintro rfl
        exact ⟨rfl, hdrops j hij⟩
      · exact And.left
    · constructor
      · rintro rfl
        obtain rfl := hij.unique (h.symm hpairs)
        exact ⟨rfl, hdrops i hpairs⟩
      · rintro ⟨rfl, -⟩
        exact (h.symm hij).unique hpairs

/-- The height of the cluster at a position. -/
def heightAt (profiles : List Profile) (i : Nat) : Int :=
  (profiles[i]?.map (·.averageHeight)).getD 0

section Loops

variable {profiles : List Profile} {clusters : List Cluster} {pairing : Pairing}

/-- The turns of a loop over the positions see the table as earlier turns have left it. If each
    looks only at the pair of its position, and tests it in the same way whatever the rest of the
    table is, the loop takes apart what a test of the pairs of the first table does. -/
private theorem foldlM_takesApart {drops : Nat → Nat → Prop}
    {step : Pairing → Nat → Checked Pairing} (h : pairing.IsMatching)
    (hstep : ∀ refined : Pairing, refined.IsMatching → refined.length = pairing.length →
      ∀ v < pairing.length,
        Ensures (step refined v) (TakesApart (fun i j => i = v ∧ drops i j) refined)) :
    Ensures ((List.range pairing.length).foldlM step pairing) (TakesApart drops pairing) := by
  have hloop : Ensures ((List.range pairing.length).foldlM step pairing)
      (TakesApart (fun i j => i < pairing.length ∧ drops i j) pairing) := by
    apply Ensures.foldlM_range (P := fun v => TakesApart (fun i j => i < v ∧ drops i j) pairing)
    · exact TakesApart.refl h (by simp)
    · intro v hv refined hrefined
      refine (hstep refined hrefined.refines.matching hrefined.refines.length v hv).imp ?_
      intro next hnext
      refine (hrefined.trans hnext).congr h fun i j _ => ?_
      rw [← or_and_right, Nat.lt_succ_iff_lt_or_eq]
  refine hloop.imp fun refined hrefined => hrefined.congr h fun i j hpairs => ?_
  exact and_iff_right hpairs.lt_length

/-- Which pairs taking apart below a level leaves does not depend on the order of the scan. -/
theorem dropBelow_takesApart (h : pairing.IsMatching) (hlength : pairing.length = profiles.length)
    (level : Int) :
    Ensures (pairing.dropBelow profiles level)
      (TakesApart (fun i _ => ∃ profile ∈ profiles[i]?, level < profile.averageY) pairing) := by
  refine foldlM_takesApart h fun refined hrefined hsame v hv => ?_
  have hv' : v < refined.length := by omega
  refine (Ensures.elementAt hv').bind fun partner? hpartner => ?_
  refine Ensures.ite (fun hnone => Ensures.pure ?_) fun _ => ?_
  · apply TakesApart.skip hrefined
    intro k hpairs
    cases hpartner.symm.trans hpairs
    cases hnone
  · refine (Ensures.elementAt (l := profiles) (by omega)).bind fun profile hprofile => ?_
    refine Ensures.ite (fun hbelow => ?_) fun habove => Ensures.pure ?_
    · exact separate_takesApart hrefined hv' fun _ _ => ⟨profile, hprofile, hbelow⟩
    · apply TakesApart.skip hrefined
      rintro k - ⟨other, hother, hbelow⟩
      cases hprofile.symm.trans hother
      exact habove hbelow

/-- The number of glyphs of the cluster at a position. -/
def sizeAt (clusters : List Cluster) (i : Nat) : Nat :=
  (clusters[i]?.getD []).length

theorem sizeAt_eq {i : Nat} {cluster : Cluster} (h : clusters[i]? = some cluster) :
    sizeAt clusters i = cluster.length := by
  simp [sizeAt, h]

theorem pairedSizes_ensures (hlength : pairing.length = clusters.length) :
    Ensures (pairedSizes clusters pairing) fun sizes =>
      ∀ n, n ∈ sizes ↔ ∃ i j, pairing.Pairs i j ∧ sizeAt clusters i = n := by
  refine ⟨InBounds.mapM fun i hi => ?_, fun sizes hsizes n => ?_⟩
  · have hi' := List.mem_range.1 (List.mem_filter.1 hi).1
    exact (InBounds.elementAt (by omega)).bind fun _ _ => InBounds.pure _
  · rw [mem_of_mapM_eq_ok hsizes]
    constructor
    · rintro ⟨i, hi, hsize⟩
      obtain ⟨j, hj⟩ := Option.isSome_iff_exists.1 (List.mem_filter.1 hi).2
      obtain ⟨cluster, hcluster, hsize⟩ := bind_eq_ok_iff.1 hsize
      cases hsize
      exact ⟨i, j, Option.join_eq_some_iff.1 hj, sizeAt_eq (elementAt_eq_ok_iff.1 hcluster)⟩
    · rintro ⟨i, j, hpairs, rfl⟩
      have hi : i < clusters.length := hlength ▸ hpairs.lt_length
      refine ⟨i, List.mem_filter.2 ⟨List.mem_range.2 hpairs.lt_length, ?_⟩, ?_⟩
      · exact Option.isSome_iff_exists.2 ⟨j, Option.join_eq_some_iff.2 hpairs⟩
      · rw [elementAt_of_lt hi, ok_bind, sizeAt_eq (List.getElem?_eq_getElem hi)]
        rfl

/-- Which pairs are left when the smaller ones are taken apart does not depend on the order of the
    scan: those with a member that no paired cluster outnumbers. -/
theorem keepMostGlyphs_takesApart (h : pairing.IsMatching)
    (hlength : pairing.length = clusters.length) :
    Ensures (pairing.keepMostGlyphs clusters)
      (TakesApart (fun i j => ∃ k l, pairing.Pairs k l ∧
        max (sizeAt clusters i) (sizeAt clusters j) < sizeAt clusters k) pairing) := by
  refine (pairedSizes_ensures hlength).bind fun sizes hsizes => ?_
  cases hmost : sizes.max? with
  | none =>
    refine Ensures.pure (TakesApart.refl h ?_)
    rintro i j - ⟨k, l, hpairs, -⟩
    have hsize := (hsizes _).2 ⟨k, l, hpairs, rfl⟩
    rw [List.max?_eq_none_iff.1 hmost] at hsize
    cases hsize
  | some most =>
    obtain ⟨hmem, hbound⟩ := List.max?_eq_some_iff.1 hmost
    have htest : (fun i j => ∃ k l, pairing.Pairs k l ∧
          max (sizeAt clusters i) (sizeAt clusters j) < sizeAt clusters k) =
        fun i j => sizeAt clusters i < most ∧ sizeAt clusters j < most := by
      funext i j
      rw [← Nat.max_lt, eq_iff_iff]
      constructor
      · rintro ⟨k, l, hpairs, hlt⟩
        exact hlt.trans_le (hbound _ ((hsizes _).2 ⟨k, l, hpairs, rfl⟩))
      · intro hlt
        obtain ⟨k, l, hpairs, rfl⟩ := (hsizes most).1 hmem
        exact ⟨k, l, hpairs, hlt⟩
    rw [htest]
    refine foldlM_takesApart h fun refined hrefined hsame v hv => ?_
    have hv' : v < refined.length := by omega
    refine (Ensures.elementAt hv').bind fun partner? hpartner => ?_
    cases partner? with
    | none =>
      refine Ensures.pure (TakesApart.skip hrefined fun k hpairs => ?_)
      cases hpartner.symm.trans hpairs
    | some j =>
      have hj : j < refined.length := Pairs.lt_length (hrefined.symm hpartner)
      refine (Ensures.elementAt (l := clusters) (by omega)).bind fun cluster hcluster => ?_
      refine (Ensures.elementAt (l := clusters) (by omega)).bind fun partner hpartner' => ?_
      rw [← sizeAt_eq hcluster, ← sizeAt_eq hpartner']
      refine Ensures.ite (fun hsmall => ?_) fun hlarge => Ensures.pure ?_
      · apply separate_takesApart hrefined hv'
        intro k hpairs
        rwa [hpairs.unique hpartner]
      · apply TakesApart.skip hrefined
        intro k hpairs
        rwa [hpairs.unique hpartner]

theorem heightAt_eq {i : Nat} {p : Profile} (h : profiles[i]? = some p) :
    heightAt profiles i = p.averageHeight := by
  simp [heightAt, h]

/-- Everything that one turn of the scan can do. A position without a partner is passed over. A pair
    is taken apart if both members are shorter than the height that is kept, and otherwise the
    height of the member visited is kept in its place. -/
theorem keepTallAt_ensures {kept? : Option Int} {i : Nat} (h : pairing.IsMatching)
    (hlength : pairing.length = profiles.length) (hi : i < pairing.length) :
    Ensures (keepTallAt profiles (kept?, pairing) i) fun next =>
      (pairing.Free i ∧ next = (kept?, pairing)) ∨
        ∃ j, pairing.Pairs i j ∧
          ((∃ kept, kept? = some kept ∧ max (heightAt profiles i) (heightAt profiles j) < kept ∧
              next = (kept?, pairing.part i j)) ∨
            ((∀ kept, kept? = some kept →
                kept ≤ max (heightAt profiles i) (heightAt profiles j)) ∧
              next = (some (heightAt profiles i), pairing))) := by
  refine (Ensures.elementAt hi).bind fun partner? hpartner => ?_
  cases partner? with
  | none => exact Ensures.pure (.inl ⟨hpartner, rfl⟩)
  | some j =>
    have hj : j < pairing.length := Pairs.lt_length (h.symm hpartner)
    refine (Ensures.elementAt (l := profiles) (by omega)).bind fun profile hprofile => ?_
    refine (Ensures.elementAt (l := profiles) (by omega)).bind fun partner hpartner' => ?_
    rw [← heightAt_eq hprofile, ← heightAt_eq hpartner']
    refine Ensures.ite (fun hshort => ?_) fun htall => ?_
    · cases kept? with
      | none => exact absurd hshort.1 (Int.lt_irrefl _)
      | some kept =>
        refine (separate_ensures h hi).bind fun next hnext => Ensures.pure ?_
        rcases hnext with ⟨-, hfree⟩ | ⟨j', hpairs, rfl⟩
        · exact absurd (hfree.symm.trans hpartner) (by simp)
        · obtain rfl := hpairs.unique hpartner
          exact .inr ⟨j', hpairs, .inl ⟨kept, rfl, Int.max_lt.2 hshort, rfl⟩⟩
    · refine Ensures.pure (.inr ⟨j, hpartner, .inr ⟨?_, rfl⟩⟩)
      rintro kept rfl
      simp only [Option.getD_some] at htall
      omega

theorem keepTallAt_refines {kept? : Option Int} {i : Nat} (h : pairing.IsMatching)
    (hlength : pairing.length = profiles.length) (hi : i < pairing.length) :
    Ensures (keepTallAt profiles (kept?, pairing) i) fun next => Refines pairing next.2 := by
  refine (keepTallAt_ensures h hlength hi).imp ?_
  rintro next (⟨-, rfl⟩ | ⟨j, hpairs, ⟨kept, -, -, rfl⟩ | ⟨-, rfl⟩⟩)
  · exact Refines.refl h
  · exact part_refines h hpairs
  · exact Refines.refl h

theorem keepTall_refines (h : pairing.IsMatching) (hlength : pairing.length = profiles.length) :
    Ensures (pairing.keepTall profiles) (Refines pairing) := by
  refine Ensures.bind (P := fun state => Refines pairing state.2) ?_ fun _ => Ensures.pure
  refine Ensures.foldlM (Refines.refl h) fun state hstate i hi => ?_
  have hi' := List.mem_range.1 hi
  have hsame := hstate.length
  exact (keepTallAt_refines hstate.matching (by omega) (by omega)).imp
    fun next hnext => hstate.trans hnext

theorem clockLevel_inBounds (frame : Frame) : InBounds (clockLevel frame) :=
  (Coordinate.mul_inBounds _ _).bind fun _ _ => InBounds.pure _

/-- Either preference only takes whole pairs apart, in whatever order the scan meets them. -/
theorem refine_refines (h : pairing.IsMatching) (hprofiles : pairing.length = profiles.length)
    (hclusters : pairing.length = clusters.length) (frame : Frame) (preference : Preference) :
    Ensures (pairing.refine preference clusters profiles frame) (Refines pairing) := by
  cases preference with
  | mostGlyphs =>
    refine (clockLevel_inBounds frame).ensures.bind fun level _ => ?_
    refine (dropBelow_takesApart h hprofiles level).bind fun refined hrefined => ?_
    have hsame := hrefined.refines.length
    exact (keepMostGlyphs_takesApart hrefined.refines.matching (by omega)).imp
      fun next hnext => hrefined.refines.trans hnext.refines
  | tallest => exact keepTall_refines h hprofiles

end Loops

end ScoreOverlay.Pairing
