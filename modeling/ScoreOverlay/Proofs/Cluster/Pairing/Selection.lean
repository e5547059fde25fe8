import Mathlib.Algebra.Ring.Parity
import Mathlib.Data.List.Induction
import Mathlib.Data.Set.Finite.Lemmas
import ScoreOverlay.Proofs.Cluster.Pairing.Refinement

namespace ScoreOverlay

namespace Pairing

variable {pairing : Pairing}

/-- The positions that have a partner. -/
def paired (pairing : Pairing) : List Nat :=
  (List.range pairing.length).filter fun i => (pairing[i]?.join).isSome

/-- The pair that the position is the first member of, if it is. -/
def pairAt? (pairing : Pairing) (i : Nat) : Option (Nat × Nat) :=
  pairing[i]?.join.bind fun j => if i < j then some (i, j) else none

/-- The pairs, each with its first member in front. -/
def pairs (pairing : Pairing) : List (Nat × Nat) :=
  (List.range pairing.length).filterMap pairing.pairAt?

theorem join_eq_some_iff {i j : Nat} : pairing[i]?.join = some j ↔ pairing.Pairs i j := by
  unfold Pairs
  rw [Option.join_eq_some_iff]

theorem mem_paired {i : Nat} : i ∈ pairing.paired ↔ ∃ j, pairing.Pairs i j := by
  unfold paired
  rw [List.mem_filter, List.mem_range, Option.isSome_iff_exists]
  simp only [join_eq_some_iff]
  exact ⟨And.right, fun ⟨j, h⟩ => ⟨h.lt_length, j, h⟩⟩

/-- Among some of the pairs there is one with a member that has the greatest measure. -/
theorem exists_greatest {α : Type} [LinearOrder α] (measure : Nat → α) {P : Nat → Nat → Prop}
    {i j : Nat} (hpairs : ∀ k l, P k l → pairing.Pairs k l) (hsome : P i j) :
    ∃ k l, P k l ∧ ∀ m n, P m n → measure m ≤ measure k := by
  have hfinite : {k | ∃ l, P k l}.Finite := by
    apply (Set.finite_lt_nat pairing.length).subset
    rintro k ⟨l, hkl⟩
    exact (hpairs k l hkl).lt_length
  have hnonempty : {k | ∃ l, P k l}.Nonempty := ⟨i, j, hsome⟩
  obtain ⟨k, ⟨l, hkl⟩, hgreatest⟩ := Set.exists_max_image _ measure hfinite hnonempty
  exact ⟨k, l, hkl, fun m n hmn => hgreatest m ⟨n, hmn⟩⟩

theorem paired_ascending (pairing : Pairing) : pairing.paired.Pairwise (· < ·) :=
  List.pairwise_lt_range.filter _

theorem pairAt?_eq_some_iff {i : Nat} {pair : Nat × Nat} :
    pairing.pairAt? i = some pair ↔ pair.1 = i ∧ pairing.Pairs i pair.2 ∧ i < pair.2 := by
  unfold pairAt?
  rw [Option.bind_eq_some_iff]
  constructor
  · rintro ⟨j, hj, hpair⟩
    split at hpair <;> cases hpair
    exact ⟨rfl, join_eq_some_iff.1 hj, ‹_›⟩
  · rintro ⟨rfl, hpairs, hlt⟩
    exact ⟨pair.2, join_eq_some_iff.2 hpairs, if_pos hlt⟩

theorem mem_pairs {pair : Nat × Nat} :
    pair ∈ pairing.pairs ↔ pairing.Pairs pair.1 pair.2 ∧ pair.1 < pair.2 := by
  unfold pairs
  simp only [List.mem_filterMap, List.mem_range, pairAt?_eq_some_iff]
  constructor
  · rintro ⟨i, -, rfl, h⟩
    exact h
  · rintro ⟨hpairs, hlt⟩
    exact ⟨pair.1, hpairs.lt_length, rfl, hpairs, hlt⟩

theorem pairs_nodup (pairing : Pairing) : pairing.pairs.Nodup := by
  refine List.Nodup.filterMap (fun i i' pair h h' => ?_) List.nodup_range
  exact (pairAt?_eq_some_iff.1 h).1.symm.trans (pairAt?_eq_some_iff.1 h').1

theorem IsMatching.disjoint {i j k l : Nat} (h : pairing.IsMatching) (hij : pairing.Pairs i j)
    (hkl : pairing.Pairs k l) (hlt : i < j) (hlt' : k < l) (hne : (i, j) ≠ (k, l)) :
    [i, j].Disjoint [k, l] := by
  intro a ha ha'
  rcases List.mem_pair.1 ha with rfl | rfl <;> rcases List.mem_pair.1 ha' with rfl | rfl
  · exact hne (by rw [hij.unique hkl])
  · have := hij.unique (h.symm hkl)
    omega
  · have := hkl.unique (h.symm hij)
    omega
  · exact hne (by rw [(h.symm hij).unique (h.symm hkl)])

/-- The pairs of a matching are disjoint, and their members are the positions with a partner. -/
theorem IsMatching.pairs_perm (h : pairing.IsMatching) :
    (pairing.pairs.flatMap fun pair => [pair.1, pair.2]).Perm pairing.paired := by
  have hnodup : (pairing.pairs.flatMap fun pair => [pair.1, pair.2]).Nodup := by
    refine List.nodup_flatMap.2 ⟨fun pair hpair => ?_, ?_⟩
    · simpa using Nat.ne_of_lt (mem_pairs.1 hpair).2
    · refine (pairs_nodup pairing).pairwise_of_forall_ne fun pair hpair other hother hne => ?_
      obtain ⟨hpairs, hlt⟩ := mem_pairs.1 hpair
      obtain ⟨hpairs', hlt'⟩ := mem_pairs.1 hother
      exact h.disjoint hpairs hpairs' hlt hlt' hne
  have hpaired : pairing.paired.Nodup := (paired_ascending pairing).imp Nat.ne_of_lt
  refine (List.perm_ext_iff_of_nodup hnodup hpaired).2 fun i => ?_
  rw [List.mem_flatMap, mem_paired]
  constructor
  · rintro ⟨pair, hpair, hi⟩
    obtain ⟨hpairs, -⟩ := mem_pairs.1 hpair
    rcases List.mem_pair.1 hi with rfl | rfl
    · exact ⟨pair.2, hpairs⟩
    · exact ⟨pair.1, h.symm hpairs⟩
  · rintro ⟨j, hpairs⟩
    rcases Nat.lt_or_gt_of_ne (h.ne hpairs) with hlt | hlt
    · exact ⟨(i, j), mem_pairs.2 ⟨hpairs, hlt⟩, by simp⟩
    · exact ⟨(j, i), mem_pairs.2 ⟨h.symm hpairs, hlt⟩, by simp⟩

theorem dropUnpaired_append {before : List Cluster} (h : before.length < pairing.length)
    (cluster : Cluster) (behind : List Cluster) :
    pairing.dropUnpaired before.length (before ++ cluster :: behind) =
      .ok (before ++ if (pairing[before.length]?.join).isSome then cluster :: behind
        else behind) := by
  have hinside : before.length < (before ++ cluster :: behind).length := by simp
  unfold dropUnpaired
  rw [elementAt_of_lt h, removeAt_of_lt hinside, List.getElem?_eq_getElem h]
  cases pairing[before.length] <;> simp [List.eraseIdx_append_of_length_le]

/-- The loop keeps exactly the clusters that have a partner. It works from the back, so what lies
    behind the clusters still to be visited is only moved. -/
theorem foldrM_dropUnpaired {clusters : List Cluster} (h : clusters.length ≤ pairing.length)
    (behind : List Cluster) :
    ∃ kept, (List.range clusters.length).foldrM pairing.dropUnpaired (clusters ++ behind) =
        .ok (kept ++ behind) ∧
      kept.Sublist clusters ∧
      kept.map some =
        ((List.range clusters.length).filter fun i => (pairing[i]?.join).isSome).map
          (clusters[·]?) := by
  induction clusters using List.reverseRecOn generalizing behind with
  | nil => exact ⟨[], rfl, List.Sublist.refl _, rfl⟩
  | append_singleton before cluster ih =>
    rw [List.length_append, List.length_singleton] at h
    have hbefore : ∀ i ∈ (List.range before.length).filter fun i => (pairing[i]?.join).isSome,
        (before ++ [cluster])[i]? = before[i]? := by
      intro i hi
      exact List.getElem?_append_left (List.mem_range.1 (List.mem_filter.1 hi).1)
    rw [List.length_append, List.length_singleton, List.range_succ, List.foldrM_append,
      List.filter_append, List.map_append, List.map_congr_left hbefore, List.append_assoc,
      List.singleton_append]
    simp only [List.foldrM_cons, List.foldrM_nil, pure_eq_ok, ok_bind]
    rw [dropUnpaired_append (by omega), ok_bind]
    cases hpaired : (pairing[before.length]?.join).isSome with
    | true =>
      obtain ⟨kept, hkept, hsublist, hpositions⟩ := ih (by omega) (cluster :: behind)
      refine ⟨kept ++ [cluster], by simpa using hkept, hsublist.append_right [cluster], ?_⟩
      simp [hpositions, hpaired]
    | false =>
      obtain ⟨kept, hkept, hsublist, hpositions⟩ := ih (by omega) behind
      refine ⟨kept, by simpa using hkept, hsublist.trans (List.sublist_append_left _ _), ?_⟩
      simp [hpositions, hpaired]

theorem keepPaired_eq_ok {clusters : List Cluster} (h : pairing.length = clusters.length) :
    ∃ kept, keepPaired clusters pairing = .ok kept ∧ kept.Sublist clusters ∧
      kept.map some = pairing.paired.map (clusters[·]?) := by
  obtain ⟨kept, hkept, hsublist, hpositions⟩ := foldrM_dropUnpaired (Nat.le_of_eq h.symm) []
  rw [List.append_nil, List.append_nil] at hkept
  rw [← h] at hpositions
  exact ⟨kept, hkept, hsublist, hpositions⟩

end Pairing

namespace Cluster

/-- The clusters at two positions of a list are symmetric. -/
def SymmetricAt (clusters : List Cluster) (frame : Frame) (threshold : Binary.Scalar) (i j : Nat) :
    Prop :=
  ∃ first second p q, clusters[i]? = some first ∧ clusters[j]? = some second ∧
    Profile.ofCluster? first frame i = .ok (some p) ∧
    Profile.ofCluster? second frame j = .ok (some q) ∧ p.symmetricTo q threshold = .ok true

/-- The clusters kept are those at the surviving positions. These fall into pairs of the matching,
    each symmetric as seen from its first member, and no pair has only one survivor. -/
structure KeepsPairs (clusters : List Cluster) (frame : Frame) (threshold : Binary.Scalar)
    (pairing : Pairing) (survivors : List Nat) (kept : List Cluster) : Prop where
  sublist : kept.Sublist clusters
  positions : kept.map some = survivors.map (clusters[·]?)
  ascending : survivors.Pairwise (· < ·)
  pairs : ∃ pairs : List (Nat × Nat),
    (pairs.flatMap fun pair => [pair.1, pair.2]).Perm survivors ∧
      ∀ pair ∈ pairs, pair.1 < pair.2 ∧ pairing.Pairs pair.1 pair.2 ∧
        pairing.Pairs pair.2 pair.1 ∧ SymmetricAt clusters frame threshold pair.1 pair.2
  whole : ∀ {i j}, pairing.Pairs i j → (i ∈ survivors ↔ j ∈ survivors)

section

variable {clusters kept : List Cluster} {frame : Frame} {threshold : Binary.Scalar}
  {pairing : Pairing} {survivors : List Nat}

theorem KeepsPairs.length_eq (h : KeepsPairs clusters frame threshold pairing survivors kept) :
    kept.length = survivors.length := by
  simpa using congrArg List.length h.positions

theorem KeepsPairs.eq_nil_iff {refined : Pairing}
    (h : KeepsPairs clusters frame threshold pairing refined.paired kept) :
    kept = [] ↔ ∀ i j, ¬ refined.Pairs i j := by
  rw [← List.length_eq_zero_iff, h.length_eq, List.length_eq_zero_iff,
    List.eq_nil_iff_forall_not_mem]
  simp [Pairing.mem_paired]

theorem KeepsPairs.even_length (h : KeepsPairs clusters frame threshold pairing survivors kept) :
    Even kept.length := by
  obtain ⟨pairs, hperm, -⟩ := h.pairs
  have hpairs : (pairs.flatMap fun pair => [pair.1, pair.2]).length = pairs.length * 2 := by
    simp [List.length_flatMap]
  rw [h.length_eq, ← hperm.length_eq, hpairs]
  exact even_two.mul_left _

end

section

variable {clusters : List Cluster} {profiles : List Profile} {frame : Frame}
  {threshold : Binary.Scalar}

theorem symmetricAt_of_profiles {i j : Nat} (h : ∀ cluster ∈ clusters, cluster ≠ [])
    (hprofiles : Cluster.profiles clusters frame = .ok profiles)
    (hsymmetric : Profile.SymmetricAt profiles threshold i j) :
    SymmetricAt clusters frame threshold i j := by
  obtain ⟨hlength, hat⟩ := (profiles_ensures h frame).2 profiles hprofiles
  obtain ⟨p, q, hp, hq, hpq⟩ := hsymmetric
  have hi := (List.getElem?_eq_some_iff.1 hp).1
  have hj := (List.getElem?_eq_some_iff.1 hq).1
  have hfirst := List.getElem?_eq_getElem (hlength ▸ hi)
  have hsecond := List.getElem?_eq_getElem (hlength ▸ hj)
  obtain ⟨p', hp', hfirst'⟩ := hat i _ hfirst
  obtain ⟨q', hq', hsecond'⟩ := hat j _ hsecond
  obtain rfl := Option.some.inj (hp.symm.trans hp')
  obtain rfl := Option.some.inj (hq.symm.trans hq')
  exact ⟨_, _, p, q, hfirst, hsecond, hfirst', hsecond', hpq⟩

/-- The three passes together. Refining a matching leaves a matching, so what the removal keeps
    falls into pairs again. -/
theorem keepsPairs_of_refines {pairing refined : Pairing} {kept : List Cluster}
    (h : ∀ cluster ∈ clusters, cluster ≠ [])
    (hprofiles : Cluster.profiles clusters frame = .ok profiles)
    (hmatches : Pairing.Matches profiles threshold pairing) (hrefines : pairing.Refines refined)
    (hsublist : kept.Sublist clusters)
    (hpositions : kept.map some = refined.paired.map (clusters[·]?)) :
    KeepsPairs clusters frame threshold pairing refined.paired kept := by
  refine ⟨hsublist, hpositions, Pairing.paired_ascending refined,
    ⟨refined.pairs, hrefines.matching.pairs_perm, fun pair hpair => ?_⟩, fun hpairs => ?_⟩
  · obtain ⟨hpairs, hlt⟩ := Pairing.mem_pairs.1 hpair
    have hformed := hrefines.kept hpairs
    exact ⟨hlt, hformed, hmatches.matching.symm hformed,
      symmetricAt_of_profiles h hprofiles (hmatches.symmetric hformed hlt)⟩
  · rw [Pairing.mem_paired, Pairing.mem_paired]
    exact hrefines.both hmatches.matching hpairs

end

/-- The way of a selection: profiles, a matching of them, the matching refined, and what is paired
    in the end. -/
theorem selectSymmetric_refines (clusters : List Cluster) (frame : Frame)
    (preference : Preference) (threshold : Binary.Scalar) :
    Ensures (selectSymmetric clusters frame preference threshold) fun kept =>
      ∃ profiles pairing refined,
        Cluster.profiles (clusters.filter (· ≠ [])) frame = .ok profiles ∧
          Pairing.ofProfiles profiles threshold = .ok pairing ∧
          pairing.refine preference (clusters.filter (· ≠ [])) profiles frame = .ok refined ∧
          profiles.length = (clusters.filter (· ≠ [])).length ∧
          Pairing.Matches profiles threshold pairing ∧ pairing.Refines refined ∧
          KeepsPairs (clusters.filter (· ≠ [])) frame threshold pairing refined.paired kept := by
  have hnonempty : ∀ cluster ∈ clusters.filter (· ≠ []), cluster ≠ [] := by simp
  refine (profiles_ensures hnonempty frame).with_ok.bind ?_
  rintro profiles ⟨hprofiles, hlength, -⟩
  refine (Pairing.ofProfiles_ensures profiles threshold).with_ok.bind ?_
  rintro pairing ⟨hpairing, hmatches⟩
  have hsame := hmatches.length.trans hlength
  refine (Pairing.refine_refines hmatches.matching hmatches.length hsame frame
    preference).with_ok.bind ?_
  rintro refined ⟨hrefined, hrefines⟩
  obtain ⟨kept, hkept, hsublist, hpositions⟩ :=
    Pairing.keepPaired_eq_ok (hrefines.length.trans hsame)
  exact Ensures.of_ok hkept ⟨profiles, pairing, refined, hprofiles, hpairing, hrefined, hlength,
    hmatches, hrefines,
    keepsPairs_of_refines hnonempty hprofiles hmatches hrefines hsublist hpositions⟩

theorem selectSymmetric_ensures (clusters : List Cluster) (frame : Frame)
    (preference : Preference) (threshold : Binary.Scalar) :
    Ensures (selectSymmetric clusters frame preference threshold) fun kept =>
      ∃ profiles pairing survivors,
        Cluster.profiles (clusters.filter (· ≠ [])) frame = .ok profiles ∧
          Pairing.ofProfiles profiles threshold = .ok pairing ∧
          KeepsPairs (clusters.filter (· ≠ [])) frame threshold pairing survivors kept := by
  refine (selectSymmetric_refines clusters frame preference threshold).imp ?_
  rintro kept ⟨profiles, pairing, refined, hprofiles, hpairing, -, -, -, -, hpairs⟩
  exact ⟨profiles, pairing, refined.paired, hprofiles, hpairing, hpairs⟩

/-- Selecting never keeps half a pair. Without an overflow no position on the way is outside its
    list, and the result consists of non-empty clusters in their order, as they are. They fall into
    pairs that the matching formed and whose members are symmetric, of each pair formed both
    members are kept or neither is, and so their number is even. -/
theorem selectSymmetric_keepsPairs {clusters : List Cluster} {frame : Frame}
    {preference : Preference} {threshold : Binary.Scalar}
    (hfits : NoOverflow (selectSymmetric clusters frame preference threshold)) :
    ∃ profiles pairing survivors kept,
      Cluster.profiles (clusters.filter (· ≠ [])) frame = .ok profiles ∧
        Pairing.ofProfiles profiles threshold = .ok pairing ∧
        selectSymmetric clusters frame preference threshold = .ok kept ∧
        KeepsPairs (clusters.filter (· ≠ [])) frame threshold pairing survivors kept ∧
        Even kept.length := by
  obtain ⟨kept, hkept, profiles, pairing, survivors, hprofiles, hpairing, hpairs⟩ :=
    (selectSymmetric_ensures clusters frame preference threshold).exists_ok hfits
  exact ⟨profiles, pairing, survivors, kept, hprofiles, hpairing, hkept, hpairs,
    hpairs.even_length⟩

/-- A word of two glyphs on each side, one of a single glyph further out, an empty cluster, and one
    in the middle that nothing mirrors. -/
private def banner : List Cluster :=
  [[⟨[], [], ⟨40, 10, 10, 20⟩, "a"⟩, ⟨[], [], ⟨50, 10, 10, 20⟩, "b"⟩],
    [⟨[], [], ⟨10, 10, 20, 20⟩, "c"⟩], [⟨[], [], ⟨95, 10, 10, 20⟩, "d"⟩], [],
    [⟨[], [], ⟨170, 10, 20, 20⟩, "e"⟩],
    [⟨[], [], ⟨150, 10, 10, 20⟩, "f"⟩, ⟨[], [], ⟨140, 10, 10, 20⟩, "g"⟩]]

/-- Two pairs are formed, and the one of single glyphs is taken apart again. -/
theorem selectSymmetric_keepsPairs_banner :
    (do
        let kept ← selectSymmetric banner ⟨200, 100⟩ .mostGlyphs (.finite (mkRat 3 5))
        return kept.map (·.map (·.text))) = Except.ok [["a", "b"], ["f", "g"]] ∧
      ∃ profiles pairing survivors kept,
        Cluster.profiles (banner.filter (· ≠ [])) ⟨200, 100⟩ = .ok profiles ∧
          Pairing.ofProfiles profiles (.finite (mkRat 3 5)) = .ok pairing ∧
          selectSymmetric banner ⟨200, 100⟩ .mostGlyphs (.finite (mkRat 3 5)) = .ok kept ∧
          KeepsPairs (banner.filter (· ≠ [])) ⟨200, 100⟩ (.finite (mkRat 3 5)) pairing survivors
            kept := by
  have hfits : NoOverflow (selectSymmetric banner ⟨200, 100⟩ .mostGlyphs
      (.finite (mkRat 3 5))) := by decide +kernel
  obtain ⟨profiles, pairing, survivors, kept, hprofiles, hpairing, hkept, hpairs, -⟩ :=
    selectSymmetric_keepsPairs hfits
  exact ⟨by decide +kernel, profiles, pairing, survivors, kept, hprofiles, hpairing, hkept, hpairs⟩

end Cluster

end ScoreOverlay
