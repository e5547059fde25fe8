import Mathlib.Data.List.Sort
import ScoreOverlay.Proofs.Cluster.Pairing.FirstFit
import ScoreOverlay.Proofs.Cluster.Pairing.Safety
import ScoreOverlay.Proofs.Cluster.Pairing.Selection

namespace ScoreOverlay

/-- The second list has at `a` the profile that the first one has at `i`. -/
def Profile.StandsAt (profiles : List Profile) (i : Nat) (profiles' : List Profile) (a : Nat) :
    Prop :=
  ∃ p, profiles[i]? = some p ∧ profiles'[a]? = some (p.withIndex a)

/-- Two profiles compare in the same way wherever they stand. -/
theorem Profile.StandsAt.compare {profiles profiles' : List Profile} {threshold : Binary.Scalar}
    {i j a b : Nat} {answer : Bool} (ha : StandsAt profiles i profiles' a)
    (hb : StandsAt profiles j profiles' b)
    (h : ∃ p q, profiles[i]? = some p ∧ profiles[j]? = some q ∧
      p.symmetricTo q threshold = .ok answer) :
    ∃ p q, profiles'[a]? = some p ∧ profiles'[b]? = some q ∧
      p.symmetricTo q threshold = .ok answer := by
  obtain ⟨p, hp, hp'⟩ := ha
  obtain ⟨q, hq, hq'⟩ := hb
  obtain ⟨p₀, q₀, hp₀, hq₀, hanswer⟩ := h
  obtain rfl := Option.some.inj (hp.symm.trans hp₀)
  obtain rfl := Option.some.inj (hq.symm.trans hq₀)
  refine ⟨_, _, hp', hq', ?_⟩
  rw [symmetricTo_withIndex]
  exact hanswer

namespace Pairing

variable {pairing refined : Pairing} {i j a b : Nat}

/-- The table of the positions that have a partner, counted anew. -/
def compacted (pairing : Pairing) : Pairing :=
  pairing.paired.map fun i => pairing[i]?.join.map pairing.paired.idxOf

@[simp] theorem compacted_length (pairing : Pairing) :
    pairing.compacted.length = pairing.paired.length := by
  simp [compacted]

theorem lt_iff_of_paired (hi : pairing.paired[a]? = some i) (hj : pairing.paired[b]? = some j) :
    i < j ↔ a < b := by
  obtain ⟨ha, rfl⟩ := List.getElem?_eq_some_iff.1 hi
  obtain ⟨hb, rfl⟩ := List.getElem?_eq_some_iff.1 hj
  exact (paired_ascending pairing).sortedLT.getElem_lt_getElem_iff

theorem exists_paired (h : pairing.Pairs i j) : ∃ a : Nat, pairing.paired[a]? = some i :=
  List.mem_iff_getElem?.1 (mem_paired.2 ⟨j, h⟩)

theorem compacted_pairs_iff (h : pairing.IsMatching) :
    pairing.compacted.Pairs a b ↔
      ∃ i j, pairing.paired[a]? = some i ∧ pairing.paired[b]? = some j ∧ pairing.Pairs i j := by
  unfold compacted
  rw [Pairs, List.getElem?_map]
  simp only [Option.map_eq_some_iff, join_eq_some_iff]
  constructor
  · rintro ⟨i, hi, j, hpairs, rfl⟩
    exact ⟨i, j, hi, List.getElem?_idxOf (mem_paired.2 ⟨i, h.symm hpairs⟩), hpairs⟩
  · rintro ⟨i, j, hi, hj, hpairs⟩
    obtain ⟨hb, rfl⟩ := List.getElem?_eq_some_iff.1 hj
    have hnodup : pairing.paired.Nodup := (paired_ascending pairing).imp Nat.ne_of_lt
    exact ⟨i, hi, _, hpairs, hnodup.idxOf_getElem b hb⟩

/-- Everything in the compacted table has a partner. -/
theorem exists_compacted_pairs (h : pairing.IsMatching) (ha : a < pairing.paired.length) :
    ∃ b, pairing.compacted.Pairs a b := by
  obtain ⟨j, hpairs⟩ := mem_paired.1 (List.getElem_mem ha)
  obtain ⟨b, hb⟩ := exists_paired (h.symm hpairs)
  exact ⟨b, (compacted_pairs_iff h).2 ⟨_, j, List.getElem?_eq_getElem ha, hb, hpairs⟩⟩

theorem IsMatching.compacted (h : pairing.IsMatching) : pairing.compacted.IsMatching := by
  constructor
  · intro a b hpairs
    obtain ⟨i, j, hi, hj, hij⟩ := (compacted_pairs_iff h).1 hpairs
    rintro rfl
    exact h.ne hij (Option.some.inj (hi.symm.trans hj))
  · intro a b hpairs
    obtain ⟨i, j, hi, hj, hij⟩ := (compacted_pairs_iff h).1 hpairs
    exact (compacted_pairs_iff h).2 ⟨j, i, hj, hi, h.symm hij⟩

section

variable {profiles profiles' : List Profile} {threshold : Binary.Scalar}
  {clusters kept : List Cluster} {frame : Frame} {level : Int}

/-- Of a first fit whole pairs may be taken out: what is left is a first fit of those that are left,
    since whoever had to be passed over before still has to be, by the same earlier position. -/
theorem IsFirstFit.compacted (h : IsFirstFit profiles threshold pairing)
    (hrefines : pairing.Refines refined) (hlength : profiles'.length = refined.paired.length)
    (hat : ∀ a i, refined.paired[a]? = some i → Profile.StandsAt profiles i profiles' a) :
    IsFirstFit profiles' threshold refined.compacted := by
  have hpairs {a b : Nat} := compacted_pairs_iff (a := a) (b := b) hrefines.matching
  refine ⟨⟨?_, hrefines.matching.compacted, ?_⟩, ?_, ?_⟩
  · rw [compacted_length, hlength]
  · intro a b hab hlt
    obtain ⟨i, j, hi, hj, hij⟩ := hpairs.1 hab
    have hlt' := (lt_iff_of_paired hi hj).2 hlt
    exact (hat a i hi).compare (hat b j hj) (h.symmetric (hrefines.kept hij) hlt')
  · intro a b c hab hac hcb
    obtain ⟨i, j, hi, hj, hij⟩ := hpairs.1 hab
    have hb : b < refined.paired.length := (List.getElem?_eq_some_iff.1 hj).1
    obtain ⟨k, hk⟩ : ∃ k, refined.paired[c]? = some k :=
      ⟨_, List.getElem?_eq_getElem (hcb.trans hb)⟩
    have hik := (lt_iff_of_paired hi hk).2 hac
    have hkj := (lt_iff_of_paired hk hj).2 hcb
    rcases h.between (hrefines.kept hij) hik hkj with ⟨l, hli, hkl⟩ | hasymmetric
    · -- The position that `k` belongs to is left as well, because `k` is.
      obtain ⟨l', hkl'⟩ := mem_paired.1 (List.mem_of_getElem? hk)
      obtain rfl := (hrefines.kept hkl').unique hkl
      obtain ⟨d, hd⟩ := exists_paired (hrefines.matching.symm hkl')
      exact .inl ⟨d, (lt_iff_of_paired hd hi).1 hli, hpairs.2 ⟨k, l', hk, hd, hkl'⟩⟩
    · exact .inr ((hat a i hi).compare (hat c k hk) hasymmetric)
  · intro a c hfree
    have ha : a < refined.paired.length := by simpa using hfree.lt_length
    obtain ⟨b, hab⟩ := exists_compacted_pairs hrefines.matching ha
    exact absurd hab hfree.not_pairs

/-- Nothing in the table lies below the level, and no cluster outnumbers both members of a pair. -/
structure IsSettled (clusters : List Cluster) (profiles : List Profile) (level : Int)
    (pairing : Pairing) : Prop where
  above : ∀ {i j}, pairing.Pairs i j → ¬ ∃ profile ∈ profiles[i]?, level < profile.averageY
  largest : ∀ {i j k l}, pairing.Pairs i j → pairing.Pairs k l →
    ¬ max (sizeAt clusters i) (sizeAt clusters j) < sizeAt clusters k

/-- Preferring the most glyphs settles the table. -/
theorem isSettled_of_refine (h : pairing.IsMatching) (hprofiles : pairing.length = profiles.length)
    (hclusters : pairing.length = clusters.length)
    (hrefined : pairing.refine .mostGlyphs clusters profiles frame = .ok refined) :
    ∃ level, clockLevel frame = .ok level ∧ IsSettled clusters profiles level refined := by
  obtain ⟨level, hlevel, hrefined⟩ := bind_eq_ok_iff.1 hrefined
  obtain ⟨names, hnames, hrefined⟩ := bind_eq_ok_iff.1 hrefined
  have habove := (dropBelow_takesApart h hprofiles level).2 names hnames
  have hlength : names.length = clusters.length := habove.refines.length.trans hclusters
  have hlargest := (keepMostGlyphs_takesApart habove.refines.matching hlength).2 refined hrefined
  refine ⟨level, hlevel, ?_, ?_⟩
  · intro i j hij
    exact ((habove.pairs i j).1 ((hlargest.pairs i j).1 hij).1).2.1
  · intro i j k l hij hkl hlt
    exact ((hlargest.pairs i j).1 hij).2.1 ⟨k, l, ((hlargest.pairs k l).1 hkl).1, hlt⟩

/-- In a settled table there is nothing to take apart. -/
theorem IsSettled.refine_eq (h : IsSettled clusters profiles level pairing)
    (hmatching : pairing.IsMatching) (hprofiles : pairing.length = profiles.length)
    (hclusters : pairing.length = clusters.length) (hlevel : clockLevel frame = .ok level) :
    pairing.refine .mostGlyphs clusters profiles frame = .ok pairing := by
  obtain ⟨names, hnames, habove⟩ := (dropBelow_takesApart hmatching hprofiles level).exists_ok
    (dropBelow_noOverflow profiles level pairing)
  obtain rfl := habove.unique (.refl hmatching fun i j => h.above)
  obtain ⟨refined, hrefined, hlargest⟩ := (keepMostGlyphs_takesApart hmatching hclusters).exists_ok
    (keepMostGlyphs_noOverflow clusters names)
  obtain rfl : refined = names := by
    refine hlargest.unique (.refl hmatching ?_)
    rintro i j hij ⟨k, l, hkl, hlt⟩
    exact h.largest hij hkl hlt
  simp only [refine, hlevel, hnames, ok_bind]
  exact hrefined

/-- The clusters at the positions of a list. -/
theorem exists_cluster_of_positions {positions : List Nat}
    (hpositions : kept.map some = positions.map (clusters[·]?)) (hi : positions[a]? = some i) :
    ∃ cluster, kept[a]? = some cluster ∧ clusters[i]? = some cluster := by
  have hat := congrArg (·[a]?) hpositions
  simp only [List.getElem?_map, hi, Option.map_some] at hat
  obtain ⟨cluster, hcluster, hsame⟩ := Option.map_eq_some_iff.1 hat
  exact ⟨cluster, hcluster, hsame.symm⟩

theorem mem_of_positions {positions : List Nat} {cluster : Cluster}
    (hpositions : kept.map some = positions.map (clusters[·]?)) (h : cluster ∈ kept) :
    cluster ∈ clusters := by
  have hmem := List.mem_map_of_mem (f := some) h
  rw [hpositions] at hmem
  obtain ⟨i, -, hi⟩ := List.mem_map.1 hmem
  exact List.mem_of_getElem? hi

theorem IsSettled.compacted (h : IsSettled clusters profiles level pairing)
    (hmatching : pairing.IsMatching)
    (hpositions : kept.map some = pairing.paired.map (clusters[·]?))
    (hat : ∀ a i, pairing.paired[a]? = some i → Profile.StandsAt profiles i profiles' a) :
    IsSettled kept profiles' level pairing.compacted := by
  have hsize {a i : Nat} (hi : pairing.paired[a]? = some i) :
      sizeAt kept a = sizeAt clusters i := by
    obtain ⟨cluster, hkept, hcluster⟩ := exists_cluster_of_positions hpositions hi
    rw [sizeAt_eq hkept, sizeAt_eq hcluster]
  constructor
  · rintro a b hab ⟨profile, hprofile, hbelow⟩
    obtain ⟨i, j, hi, -, hij⟩ := (compacted_pairs_iff hmatching).1 hab
    obtain ⟨p, hp, hp'⟩ := hat a i hi
    obtain rfl := Option.some.inj (hp'.symm.trans hprofile)
    exact h.above hij ⟨p, hp, hbelow⟩
  · intro a b c d hab hcd
    obtain ⟨i, j, hi, hj, hij⟩ := (compacted_pairs_iff hmatching).1 hab
    obtain ⟨k, l, hk, -, hkl⟩ := (compacted_pairs_iff hmatching).1 hcd
    rw [hsize hi, hsize hj, hsize hk]
    exact h.largest hij hkl

/-- Nothing is taken out of a list in which every cluster has a partner. -/
theorem keepPaired_eq_self (hlength : pairing.length = clusters.length)
    (hall : ∀ i < pairing.length, ∃ j, pairing.Pairs i j) :
    keepPaired clusters pairing = .ok clusters := by
  obtain ⟨kept, hkept, hsublist, hpositions⟩ := keepPaired_eq_ok hlength
  have hpaired : pairing.paired = List.range pairing.length := by
    unfold paired
    rw [List.filter_eq_self]
    intro i hi
    obtain ⟨j, hij⟩ := hall i (List.mem_range.1 hi)
    exact Option.isSome_iff_exists.2 ⟨j, join_eq_some_iff.2 hij⟩
  have hsame : kept.length = clusters.length := by
    simpa [hpaired, hlength] using congrArg List.length hpositions
  rw [hkept, hsublist.eq_of_length hsame]

end

end Pairing

namespace Cluster

variable {clusters kept : List Cluster} {frame : Frame} {threshold : Binary.Scalar}
  {profiles : List Profile}

/-- The profiles of clusters that were picked out of a list are those of the list. -/
theorem profiles_of_positions {positions : List Nat} (h : ∀ cluster ∈ clusters, cluster ≠ [])
    (hprofiles : Cluster.profiles clusters frame = .ok profiles)
    (hpositions : kept.map some = positions.map (clusters[·]?)) :
    ∃ profiles', Cluster.profiles kept frame = .ok profiles' ∧
      profiles'.length = positions.length ∧
      ∀ a i, positions[a]? = some i → Profile.StandsAt profiles i profiles' a := by
  have hlength : kept.length = positions.length := by
    simpa using congrArg List.length hpositions
  have hprofile : ∀ a i, positions[a]? = some i → ∃ cluster profile,
      kept[a]? = some cluster ∧ profiles[i]? = some profile ∧
      Profile.ofCluster? cluster frame a = .ok (some (profile.withIndex a)) := by
    intro a i hi
    obtain ⟨cluster, hkept, hcluster⟩ := Pairing.exists_cluster_of_positions hpositions hi
    obtain ⟨profile, hat, hprofile⟩ := ((profiles_ensures h frame).2 profiles hprofiles).2 i cluster
      hcluster
    exact ⟨cluster, profile, hkept, hat, Profile.ofCluster?_withIndex hprofile a⟩
  have hposition : ∀ (a : Nat) (cluster : Cluster), kept[a]? = some cluster →
      ∃ i, positions[a]? = some i := by
    intro a cluster ha
    have hinside := (List.getElem?_eq_some_iff.1 ha).1
    exact ⟨_, List.getElem?_eq_getElem (hlength ▸ hinside)⟩
  have hnonempty : ∀ cluster ∈ kept, cluster ≠ [] :=
    fun cluster hcluster => h cluster (Pairing.mem_of_positions hpositions hcluster)
  have hfits : NoOverflow (Cluster.profiles kept frame) := by
    refine (NoOverflow.mapM fun entry hentry => ?_).bind fun _ _ => NoOverflow.pure _
    have ha := List.mem_zipIdx_iff_getElem?.1 hentry
    obtain ⟨i, hi⟩ := hposition entry.2 entry.1 ha
    obtain ⟨same, profile, hsame, -, hok⟩ := hprofile entry.2 i hi
    obtain rfl := Option.some.inj (ha.symm.trans hsame)
    exact NoOverflow.of_ok hok
  obtain ⟨profiles', hprofiles', hlength', hat⟩ :=
    (profiles_ensures hnonempty frame).exists_ok hfits
  refine ⟨profiles', hprofiles', hlength'.trans hlength, fun a i hi => ?_⟩
  obtain ⟨cluster, profile, hkept, hprofile, hok⟩ := hprofile a i hi
  obtain ⟨profile', ha, hok'⟩ := hat a cluster hkept
  obtain rfl := Option.some.inj (Except.ok.inj (hok'.symm.trans hok))
  exact ⟨profile, hprofile, ha⟩

/-- Preferring the most glyphs a second time changes nothing, and it does not overflow if the first
    time did not. -/
theorem selectSymmetric_mostGlyphs_again
    (hfits : NoOverflow (selectSymmetric clusters frame .mostGlyphs threshold)) :
    ∃ kept, selectSymmetric clusters frame .mostGlyphs threshold = .ok kept ∧
      selectSymmetric kept frame .mostGlyphs threshold = .ok kept := by
  obtain ⟨kept, hkept, profiles, pairing, refined, hprofiles, hpairing, hrefined, hlength, hmatches,
    hrefines, hpairs⟩ := (selectSymmetric_refines clusters frame .mostGlyphs threshold).exists_ok
      hfits
  refine ⟨kept, hkept, ?_⟩
  have hnonempty : ∀ cluster ∈ clusters.filter (· ≠ []), cluster ≠ [] := by simp
  have hfilter : kept.filter (· ≠ []) = kept := by
    rw [List.filter_eq_self]
    intro cluster hcluster
    simpa using hnonempty cluster (hpairs.sublist.subset hcluster)
  obtain ⟨profiles', hprofiles', hlength', hat⟩ :=
    profiles_of_positions hnonempty hprofiles hpairs.positions
  have hpairing' : Pairing.ofProfiles profiles' threshold = .ok refined.compacted :=
    Pairing.ofProfiles_eq_ok_iff.2
      ((Pairing.ofProfiles_eq_ok_iff.1 hpairing).compacted hrefines hlength' hat)
  obtain ⟨level, hlevel, hsettled⟩ := Pairing.isSettled_of_refine hmatches.matching
    hmatches.length (hmatches.length.trans hlength) hrefined
  have hsame : refined.compacted.length = kept.length := by
    rw [Pairing.compacted_length, hpairs.length_eq]
  have hrefined' : refined.compacted.refine .mostGlyphs kept profiles' frame =
      .ok refined.compacted := by
    apply (hsettled.compacted hrefines.matching hpairs.positions hat).refine_eq
      hrefines.matching.compacted _ hsame hlevel
    rw [Pairing.compacted_length, hlength']
  have hkept' : Pairing.keepPaired kept refined.compacted = .ok kept := by
    apply Pairing.keepPaired_eq_self hsame
    intro a ha
    rw [Pairing.compacted_length] at ha
    exact Pairing.exists_compacted_pairs hrefines.matching ha
  simp only [selectSymmetric, hfilter, hprofiles', hpairing', hrefined', ok_bind]
  exact hkept'

/-- A name on the left, whose first match on the right is not tall enough, a pair that belongs to
    the clock and has more glyphs, and a pair with fewer. -/
private def crowded : List Cluster :=
  [[⟨[], [], ⟨10, 10, 15, 100⟩, "a"⟩, ⟨[], [], ⟨25, 10, 15, 100⟩, "b"⟩],
    [⟨[], [], ⟨160, 10, 30, 92⟩, "c"⟩], [], [⟨[], [], ⟨160, 10, 30, 96⟩, "d"⟩],
    [⟨[], [], ⟨10, 900, 10, 50⟩, "e"⟩, ⟨[], [], ⟨20, 900, 10, 50⟩, "f"⟩,
      ⟨[], [], ⟨30, 900, 10, 50⟩, "g"⟩],
    [⟨[], [], ⟨160, 900, 30, 50⟩, "h"⟩], [⟨[], [], ⟨10, 300, 30, 50⟩, "i"⟩],
    [⟨[], [], ⟨160, 300, 30, 50⟩, "j"⟩]]

/-- Only the name is left, and it finds the same partner again. -/
theorem selectSymmetric_mostGlyphs_again_crowded :
    NoOverflow (selectSymmetric crowded ⟨200, 1000⟩ .mostGlyphs (.finite (mkRat 3 5))) ∧
      ∃ kept : List Cluster,
        selectSymmetric crowded ⟨200, 1000⟩ .mostGlyphs (.finite (mkRat 3 5)) = .ok kept ∧
          kept.map (·.map (·.text)) = [["a", "b"], ["d"]] ∧
          selectSymmetric kept ⟨200, 1000⟩ .mostGlyphs (.finite (mkRat 3 5)) = .ok kept := by
  have hrun : selectSymmetric crowded ⟨200, 1000⟩ .mostGlyphs (.finite (mkRat 3 5)) =
      .ok [crowded[0], crowded[3]] := by decide +kernel
  have hfits := NoOverflow.of_ok hrun
  obtain ⟨kept, hkept, hagain⟩ := selectSymmetric_mostGlyphs_again hfits
  obtain rfl := Except.ok.inj (hrun.symm.trans hkept)
  exact ⟨hfits, _, hrun, rfl, hagain⟩

end Cluster

end ScoreOverlay
