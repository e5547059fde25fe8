import Mathlib.Order.Bounds.Basic
import ScoreOverlay.Proofs.Checked.Overflow
import ScoreOverlay.Proofs.Cluster.Pairing.Selection

namespace ScoreOverlay

namespace Pairing

/-- The cluster at a position does not lie in the bottom fifth of the frame, where the clock is. -/
def AboveClock (frame : Frame) (profiles : List Profile) (i : Nat) : Prop :=
  ∃ profile ∈ profiles[i]?, 5 * profile.averageY ≤ 4 * frame.height

instance (frame : Frame) (profiles : List Profile) (i : Nat) :
    Decidable (AboveClock frame profiles i) :=
  inferInstanceAs (Decidable (∃ profile ∈ profiles[i]?, _))

/-- A pair with both members above the clock. -/
structure IsNamePair (frame : Frame) (profiles : List Profile) (pairing : Pairing)
    (i j : Nat) : Prop where
  pairs : pairing.Pairs i j
  first : AboveClock frame profiles i
  second : AboveClock frame profiles j

instance (frame : Frame) (profiles : List Profile) (pairing : Pairing) (i j : Nat) :
    Decidable (IsNamePair frame profiles pairing i j) :=
  decidable_of_iff
    (pairing[i]? = some (some j) ∧ AboveClock frame profiles i ∧ AboveClock frame profiles j)
    ⟨fun ⟨hpairs, hfirst, hsecond⟩ => ⟨hpairs, hfirst, hsecond⟩,
      fun ⟨hpairs, hfirst, hsecond⟩ => ⟨hpairs, hfirst, hsecond⟩⟩

/-- The sizes of the clusters that belong to a pair above the clock. -/
def nameSizes (clusters : List Cluster) (frame : Frame) (profiles : List Profile)
    (pairing : Pairing) : Set Nat :=
  {size | ∃ i j, IsNamePair frame profiles pairing i j ∧
    (sizeAt clusters i = size ∨ sizeAt clusters j = size)}

section

variable {clusters : List Cluster} {frame : Frame} {profiles : List Profile}
  {pairing refined : Pairing} {i j : Nat} {level : Int}

theorem IsNamePair.symm (h : pairing.IsMatching) (hname : IsNamePair frame profiles pairing i j) :
    IsNamePair frame profiles pairing j i :=
  ⟨h.symm hname.pairs, hname.second, hname.first⟩

/-- Rounding the level down to a whole pixel changes nothing, since levels of clusters are whole
    pixels as well. -/
theorem aboveClock_iff (hframe : 0 ≤ frame.height) (hlevel : clockLevel frame = .ok level)
    (hi : i < profiles.length) :
    AboveClock frame profiles i ↔ ¬ ∃ profile ∈ profiles[i]?, level < profile.averageY := by
  obtain ⟨product, hproduct, hlevel⟩ := bind_eq_ok_iff.1 hlevel
  obtain rfl := Coordinate.eq_of_check_eq_ok hproduct
  obtain rfl := Except.ok.inj hlevel
  rw [Int.tdiv_eq_ediv_of_nonneg (by omega)]
  simp only [AboveClock, List.getElem?_eq_getElem hi, Option.mem_some_iff, exists_eq_left', not_lt]
  omega

theorem isNamePair_of_dropBelow (h : pairing.IsMatching)
    (hlength : pairing.length = profiles.length) (hframe : 0 ≤ frame.height)
    (hlevel : clockLevel frame = .ok level)
    (hrefined : pairing.dropBelow profiles level = .ok refined) :
    refined.Pairs i j ↔ IsNamePair frame profiles pairing i j := by
  have habove : ∀ {k l}, pairing.Pairs k l → (AboveClock frame profiles k ↔
      ¬ ∃ profile ∈ profiles[k]?, level < profile.averageY) := by
    intro k l hpairs
    apply aboveClock_iff hframe hlevel
    rw [← hlength]
    exact hpairs.lt_length
  rw [((dropBelow_takesApart h hlength level).2 refined hrefined).pairs]
  constructor
  · rintro ⟨hpairs, hfirst, hsecond⟩
    exact ⟨hpairs, (habove hpairs).2 hfirst, (habove (h.symm hpairs)).2 hsecond⟩
  · rintro ⟨hpairs, hfirst, hsecond⟩
    exact ⟨hpairs, (habove hpairs).1 hfirst, (habove (h.symm hpairs)).1 hsecond⟩

/-- Both loops together. The second one measures the pairs that the first one leaves. -/
theorem pairs_of_refine_mostGlyphs (h : pairing.IsMatching)
    (hprofiles : pairing.length = profiles.length) (hclusters : pairing.length = clusters.length)
    (hframe : 0 ≤ frame.height)
    (hrefined : pairing.refine .mostGlyphs clusters profiles frame = .ok refined) :
    refined.Pairs i j ↔ IsNamePair frame profiles pairing i j ∧
      ∀ k l, IsNamePair frame profiles pairing k l →
        sizeAt clusters k ≤ max (sizeAt clusters i) (sizeAt clusters j) := by
  obtain ⟨level, hlevel, hrefined⟩ := bind_eq_ok_iff.1 hrefined
  obtain ⟨names, hnames, hrefined⟩ := bind_eq_ok_iff.1 hrefined
  have hrefines := ((dropBelow_takesApart h hprofiles level).2 names hnames).refines
  have hlength : names.length = clusters.length := hrefines.length.trans hclusters
  have hlarge := (keepMostGlyphs_takesApart hrefines.matching hlength).2 refined hrefined
  have hname : ∀ k l, names.Pairs k l ↔ IsNamePair frame profiles pairing k l :=
    fun k l => isNamePair_of_dropBelow h hprofiles hframe hlevel hnames
  simp only [hlarge.pairs, hname, max_comm (sizeAt clusters j), and_self, not_exists, not_and,
    not_lt]

/-- No member of a pair above the clock outnumbers both members of this one if and only if one of
    these has the greatest size of all. -/
theorem exists_isGreatest_iff (h : pairing.IsMatching)
    (hname : IsNamePair frame profiles pairing i j) :
    (∃ most, IsGreatest (nameSizes clusters frame profiles pairing) most ∧
        (sizeAt clusters i = most ∨ sizeAt clusters j = most)) ↔
      ∀ k l, IsNamePair frame profiles pairing k l →
        sizeAt clusters k ≤ max (sizeAt clusters i) (sizeAt clusters j) := by
  constructor
  · rintro ⟨most, hgreatest, hmost⟩ k l hkl
    have hbound : sizeAt clusters k ≤ most := hgreatest.2 ⟨k, l, hkl, .inl rfl⟩
    omega
  · intro hbound
    have hlarger : sizeAt clusters i = max (sizeAt clusters i) (sizeAt clusters j) ∨
        sizeAt clusters j = max (sizeAt clusters i) (sizeAt clusters j) := by
      omega
    refine ⟨_, ⟨⟨i, j, hname, hlarger⟩, ?_⟩, hlarger⟩
    rintro size ⟨k, l, hkl, rfl | rfl⟩
    · exact hbound k l hkl
    · exact hbound l k (hkl.symm h)

end

end Pairing

namespace Cluster

/-- Preferring the most glyphs keeps, in their order, the members of those pairs above the clock
    that have a member of the greatest size there is among such pairs. A pair with one member in
    the strip of the clock counts for nothing, however many glyphs its other member has. Nothing is
    left only if there is no pair above the clock. -/
theorem selectSymmetric_keepsNames {clusters : List Cluster} {frame : Frame}
    {threshold : Binary.Scalar} (hframe : 0 ≤ frame.height)
    (hfits : NoOverflow (selectSymmetric clusters frame .mostGlyphs threshold)) :
    ∃ profiles pairing survivors kept,
      Cluster.profiles (clusters.filter (· ≠ [])) frame = .ok profiles ∧
        Pairing.ofProfiles profiles threshold = .ok pairing ∧
        selectSymmetric clusters frame .mostGlyphs threshold = .ok kept ∧
        KeepsPairs (clusters.filter (· ≠ [])) frame threshold pairing survivors kept ∧
        (∀ i, i ∈ survivors ↔ ∃ j most, Pairing.IsNamePair frame profiles pairing i j ∧
          IsGreatest (Pairing.nameSizes (clusters.filter (· ≠ [])) frame profiles pairing) most ∧
          (Pairing.sizeAt (clusters.filter (· ≠ [])) i = most ∨
            Pairing.sizeAt (clusters.filter (· ≠ [])) j = most)) ∧
        (kept = [] ↔ ∀ i j, ¬ Pairing.IsNamePair frame profiles pairing i j) := by
  obtain ⟨kept, hkept, profiles, pairing, refined, hprofiles, hpairing, hrefined, hlength, hmatches,
    -, hpairs⟩ := (selectSymmetric_refines clusters frame .mostGlyphs threshold).exists_ok hfits
  have hstays {i j : Nat} := Pairing.pairs_of_refine_mostGlyphs (i := i) (j := j) hmatches.matching
    hmatches.length (hmatches.length.trans hlength) hframe hrefined
  refine ⟨profiles, pairing, refined.paired, kept, hprofiles, hpairing, hkept, hpairs, ?_, ?_⟩
  · intro i
    rw [Pairing.mem_paired]
    apply exists_congr
    intro j
    rw [hstays, exists_and_left]
    apply and_congr_right
    intro hname
    exact (Pairing.exists_isGreatest_iff hmatches.matching hname).symm
  · rw [hpairs.eq_nil_iff]
    constructor
    · intro hnone i j hname
      obtain ⟨k, l, hkl, hlargest⟩ := Pairing.exists_greatest
        (Pairing.sizeAt (clusters.filter (· ≠ []))) (fun _ _ h => h.pairs) hname
      apply hnone k l
      refine hstays.2 ⟨hkl, fun m n hmn => ?_⟩
      exact (hlargest m n hmn).trans (Nat.le_max_left _ _)
    · intro hnone i j hij
      exact hnone i j (hstays.1 hij).1

/-- A pair with the most glyphs, whose right cluster is a pixel too low, around a pair with two
    glyphs on the left, and a third pair across both. -/
private def signs : List Cluster :=
  [[⟨[], [], ⟨10, 80, 10, 40⟩, "a"⟩, ⟨[], [], ⟨20, 80, 10, 40⟩, "b"⟩,
      ⟨[], [], ⟨30, 80, 10, 40⟩, "c"⟩],
    [⟨[], [], ⟨10, 10, 10, 40⟩, "d"⟩, ⟨[], [], ⟨30, 10, 10, 40⟩, "e"⟩],
    [⟨[], [], ⟨10, 50, 30, 40⟩, "f"⟩], [⟨[], [], ⟨160, 10, 30, 40⟩, "g"⟩],
    [⟨[], [], ⟨160, 81, 30, 40⟩, "h"⟩], [⟨[], [], ⟨160, 50, 30, 40⟩, "i"⟩]]

private def signProfiles : List Profile :=
  [⟨10, 40, 80, 80, 40, .left, 60, 90, 0⟩, ⟨10, 40, 10, 10, 40, .left, 60, 90, 1⟩,
    ⟨10, 40, 50, 50, 40, .left, 60, 90, 2⟩, ⟨160, 190, 10, 10, 40, .right, 60, 90, 3⟩,
    ⟨160, 190, 81, 81, 40, .right, 60, 90, 4⟩, ⟨160, 190, 50, 50, 40, .right, 60, 90, 5⟩]

private def signPairing : Pairing := [some 4, some 3, some 5, some 1, some 0, some 2]

/-- Both members of the pair with two glyphs on the left are kept, the single one as well. -/
theorem selectSymmetric_keepsNames_signs :
    Pairing.ofProfiles signProfiles (.finite (mkRat 3 5)) = .ok signPairing ∧
      IsGreatest (Pairing.nameSizes (signs.filter (· ≠ [])) ⟨200, 100⟩ signProfiles signPairing)
        2 ∧
      ∃ (survivors : List Nat) (kept : List Cluster),
        selectSymmetric signs ⟨200, 100⟩ .mostGlyphs (.finite (mkRat 3 5)) = .ok kept ∧
          kept.map (·.map (·.text)) = [["d", "e"], ["g"]] ∧
          kept.map some = survivors.map ((signs.filter (· ≠ []))[·]?) ∧
          1 ∈ survivors ∧ 3 ∈ survivors ∧ 0 ∉ survivors := by
  have hframe : 0 ≤ Frame.height ⟨200, 100⟩ := by decide
  have hrun : selectSymmetric signs ⟨200, 100⟩ .mostGlyphs (.finite (mkRat 3 5)) =
      .ok [signs[1], signs[3]] := by decide +kernel
  have hprofiled : Cluster.profiles (signs.filter (· ≠ [])) ⟨200, 100⟩ = .ok signProfiles := by
    decide +kernel
  have hpaired : Pairing.ofProfiles signProfiles (.finite (mkRat 3 5)) = .ok signPairing := by
    decide +kernel
  have hname : Pairing.IsNamePair ⟨200, 100⟩ signProfiles signPairing 1 3 := by decide
  have hgreatest : IsGreatest
      (Pairing.nameSizes (signs.filter (· ≠ [])) ⟨200, 100⟩ signProfiles signPairing) 2 := by
    have hall : ∀ i < 6, ∀ j < 6, Pairing.IsNamePair ⟨200, 100⟩ signProfiles signPairing i j →
        Pairing.sizeAt (signs.filter (· ≠ [])) i ≤ 2 ∧
          Pairing.sizeAt (signs.filter (· ≠ [])) j ≤ 2 := by decide
    refine ⟨⟨1, 3, hname, .inl rfl⟩, ?_⟩
    rintro size ⟨i, j, hij, hsize⟩
    obtain ⟨profile, hprofile, -⟩ := hij.second
    have hj := (List.getElem?_eq_some_iff.1 hprofile).1
    have hbound := hall i hij.pairs.lt_length j hj hij
    omega
  obtain ⟨profiles, pairing, survivors, kept, hprofiles, hpairing, hkept, hpairs, hmembers, -⟩ :=
    selectSymmetric_keepsNames hframe (NoOverflow.of_ok hrun)
  obtain rfl := Except.ok.inj (hprofiled.symm.trans hprofiles)
  obtain rfl := Except.ok.inj (hpaired.symm.trans hpairing)
  obtain rfl := Except.ok.inj (hrun.symm.trans hkept)
  have hfirst : 1 ∈ survivors := (hmembers 1).2 ⟨3, 2, hname, hgreatest, .inl rfl⟩
  have hlow : 0 ∉ survivors := by
    intro hzero
    obtain ⟨j, most, hzero, -⟩ := (hmembers 0).1 hzero
    obtain rfl : j = 4 := hzero.pairs.unique rfl
    exact absurd hzero (by decide)
  exact ⟨hpaired, hgreatest, survivors, _, hrun, rfl, hpairs.positions, hfirst,
    (hpairs.whole hname.pairs).1 hfirst, hlow⟩

end Cluster

end ScoreOverlay
