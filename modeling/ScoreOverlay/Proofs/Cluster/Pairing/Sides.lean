import ScoreOverlay.Proofs.Cluster.Measures
import ScoreOverlay.Proofs.Cluster.Pairing.Selection
import ScoreOverlay.Proofs.Cluster.Symmetry

namespace ScoreOverlay

namespace Profile

/-- Two clusters beside the center line share distances from it. Whether they face each other across
    the line shows in their columns: they are on different sides if and only if all columns of one
    lie to the left of those of the other. -/
structure SharesDistances (p q : Profile) : Prop where
  beside : p.side ≠ .middle ∧ q.side ≠ .middle
  shared : max p.near q.near < min p.far q.far
  opposite_iff : p.side ≠ q.side ↔ p.maxX ≤ q.minX ∨ q.maxX ≤ p.minX

theorem SharesDistances.symm {p q : Profile} (h : p.SharesDistances q) : q.SharesDistances p where
  beside := ⟨h.beside.2, h.beside.1⟩
  shared := by rw [Int.max_comm, Int.min_comm]; exact h.shared
  opposite_iff := by rw [ne_comm, h.opposite_iff, or_comm]

theorem sharesDistances_of_symmetricTo {p q : Profile} {threshold : Binary.Scalar} {middle : Int}
    (hthreshold : 0 ≤ threshold) (hp : p.IsPlaced middle) (hq : q.IsPlaced middle)
    (h : p.symmetricTo q threshold = .ok true) : p.SharesDistances q := by
  obtain ⟨hpSpan, hqSpan, hshared⟩ := distances_of_symmetricTo hthreshold h
  -- On one side distances in common are columns in common, and on two sides the line lies between
  -- the columns.
  rcases hp.beside hpSpan with ⟨hpSide, hpColumns⟩ | ⟨hpSide, hpColumns⟩
  · rcases hq.beside hqSpan with ⟨hqSide, hqColumns⟩ | ⟨hqSide, hqColumns⟩
    · refine ⟨by simp [hpSide, hqSide], hshared, ?_⟩
      simp only [hpSide, hqSide, ne_eq, not_true_eq_false, false_iff]
      omega
    · refine ⟨by simp [hpSide, hqSide], hshared, ?_⟩
      simp only [hpSide, hqSide, ne_eq, reduceCtorEq, not_false_eq_true, true_iff]
      omega
  · rcases hq.beside hqSpan with ⟨hqSide, hqColumns⟩ | ⟨hqSide, hqColumns⟩
    · refine ⟨by simp [hpSide, hqSide], hshared, ?_⟩
      simp only [hpSide, hqSide, ne_eq, reduceCtorEq, not_false_eq_true, true_iff]
      omega
    · refine ⟨by simp [hpSide, hqSide], hshared, ?_⟩
      simp only [hpSide, hqSide, ne_eq, not_true_eq_false, false_iff]
      omega

end Profile

namespace Cluster

/-- The clusters at two positions of a list share distances from the center line. -/
def SharesDistancesAt (clusters : List Cluster) (frame : Frame) (i j : Nat) : Prop :=
  ∃ first second p q, clusters[i]? = some first ∧ clusters[j]? = some second ∧
    Profile.ofCluster? first frame i = .ok (some p) ∧
    Profile.ofCluster? second frame j = .ok (some q) ∧ p.SharesDistances q

variable {clusters : List Cluster} {frame : Frame} {threshold : Binary.Scalar}

theorem SharesDistancesAt.symm {i j : Nat} (h : SharesDistancesAt clusters frame i j) :
    SharesDistancesAt clusters frame j i := by
  obtain ⟨first, second, p, q, hfirst, hsecond, hp, hq, hshares⟩ := h
  exact ⟨second, first, q, p, hsecond, hfirst, hq, hp, hshares.symm⟩

theorem SymmetricAt.sharesDistancesAt {i j : Nat} (hthreshold : 0 ≤ threshold)
    (h : SymmetricAt clusters frame threshold i j) : SharesDistancesAt clusters frame i j := by
  obtain ⟨first, second, p, q, hfirst, hsecond, hp, hq, hsymmetric⟩ := h
  exact ⟨first, second, p, q, hfirst, hsecond, hp, hq,
    Profile.sharesDistances_of_symmetricTo hthreshold (Profile.isPlaced_of_ofCluster? hp)
      (Profile.isPlaced_of_ofCluster? hq) hsymmetric⟩

theorem KeepsPairs.exists_sharesDistancesAt {pairing : Pairing} {survivors : List Nat}
    {kept : List Cluster} (hthreshold : 0 ≤ threshold)
    (h : KeepsPairs clusters frame threshold pairing survivors kept) {i : Nat}
    (hi : i ∈ survivors) : ∃ j ∈ survivors, i ≠ j ∧ SharesDistancesAt clusters frame i j := by
  obtain ⟨pairs, hperm, hpairs⟩ := h.pairs
  obtain ⟨pair, hpair, hmember⟩ := List.mem_flatMap.1 (hperm.mem_iff.2 hi)
  obtain ⟨hlt, -, -, hsymmetric⟩ := hpairs pair hpair
  have hshares := hsymmetric.sharesDistancesAt hthreshold
  have hboth : ∀ j ∈ [pair.1, pair.2], j ∈ survivors :=
    fun j hj => hperm.mem_iff.1 (List.mem_flatMap.2 ⟨pair, hpair, hj⟩)
  rcases List.mem_pair.1 hmember with rfl | rfl
  · exact ⟨pair.2, hboth _ (by simp), Nat.ne_of_lt hlt, hshares⟩
  · exact ⟨pair.1, hboth _ (by simp), Nat.ne_of_gt hlt, hshares.symm⟩

/-- What symmetry says about the sides. Two symmetric clusters lie beside the center line and share
    distances from it, and they face each other across the line if and only if they have no columns
    in common. Each cluster that is kept shares distances with another one that is kept. -/
theorem selectSymmetric_sharesDistances (hthreshold : 0 ≤ threshold) :
    (∀ {first second : Cluster} {i j : Nat} {p q : Profile},
      Profile.ofCluster? first frame i = .ok (some p) →
      Profile.ofCluster? second frame j = .ok (some q) →
      p.symmetricTo q threshold = .ok true → p.SharesDistances q) ∧
    ∀ {clusters : List Cluster} {preference : Preference},
      NoOverflow (selectSymmetric clusters frame preference threshold) →
      ∃ (survivors : List Nat) (kept : List Cluster),
        selectSymmetric clusters frame preference threshold = .ok kept ∧
        survivors.Pairwise (· < ·) ∧
        kept.map some = survivors.map ((clusters.filter (· ≠ []))[·]?) ∧
        ∀ i ∈ survivors, ∃ j ∈ survivors, i ≠ j ∧
          SharesDistancesAt (clusters.filter (· ≠ [])) frame i j := by
  constructor
  · intro first second i j p q hp hq hsymmetric
    exact Profile.sharesDistances_of_symmetricTo hthreshold (Profile.isPlaced_of_ofCluster? hp)
      (Profile.isPlaced_of_ofCluster? hq) hsymmetric
  · intro clusters preference hfits
    obtain ⟨kept, hkept, profiles, pairing, survivors, hprofiles, hpairing, hpairs⟩ :=
      (selectSymmetric_ensures clusters frame preference threshold).exists_ok hfits
    exact ⟨survivors, kept, hkept, hpairs.ascending, hpairs.positions,
      fun i hi => hpairs.exists_sharesDistancesAt hthreshold hi⟩

/-- A box in the left half of a frame that is 200 columns wide. -/
private def outerBox : Cluster := [⟨[], [], ⟨10, 10, 80, 20⟩, "a"⟩]

/-- A box inside the outer one, as high as that one and also in the left half. -/
private def innerBox : Cluster := [⟨[], [], ⟨20, 10, 60, 20⟩, "b"⟩]

private def outerProfile : Profile := ⟨10, 90, 10, 10, 20, .left, 10, 90, 0⟩

private def innerProfile : Profile := ⟨20, 80, 10, 10, 20, .left, 20, 80, 1⟩

/-- The boxes are symmetric and both are kept, each for its distances in common with the other. -/
theorem selectSymmetric_sharesDistances_nested :
    outerProfile.SharesDistances innerProfile ∧
      selectSymmetric [outerBox, innerBox] ⟨200, 100⟩ .tallest (.finite (mkRat 3 5)) =
        .ok [outerBox, innerBox] ∧
      ∃ survivors : List Nat,
        [outerBox, innerBox].map some =
          survivors.map (([outerBox, innerBox].filter (· ≠ []))[·]?) ∧
        ∀ i ∈ survivors, ∃ j ∈ survivors, i ≠ j ∧
          SharesDistancesAt ([outerBox, innerBox].filter (· ≠ [])) ⟨200, 100⟩ i j := by
  have hrun : selectSymmetric [outerBox, innerBox] ⟨200, 100⟩ .tallest (.finite (mkRat 3 5)) =
      .ok [outerBox, innerBox] := by decide +kernel
  have hthreshold : 0 ≤ Binary.Scalar.finite (mkRat 3 5) := by decide +kernel
  have houter : Profile.ofCluster? outerBox ⟨200, 100⟩ 0 = .ok (some outerProfile) := by
    decide +kernel
  have hinner : Profile.ofCluster? innerBox ⟨200, 100⟩ 1 = .ok (some innerProfile) := by
    decide +kernel
  have hsymmetric : outerProfile.symmetricTo innerProfile (.finite (mkRat 3 5)) = .ok true := by
    decide +kernel
  obtain ⟨hprofiles, hclusters⟩ := selectSymmetric_sharesDistances hthreshold
  obtain ⟨survivors, kept, hkept, -, hpositions, hshares⟩ :=
    hclusters (NoOverflow.of_ok hrun)
  rw [hrun] at hkept
  cases hkept
  exact ⟨hprofiles houter hinner hsymmetric, hrun, survivors, hpositions, hshares⟩

/-- Symmetric clusters do not have to lie on different sides: the test compares distances only. -/
theorem symmetric_on_one_side :
    ¬ ∀ (first second : Cluster) (frame : Frame) (threshold : Binary.Scalar) (i j : Nat)
        (p q : Profile),
      (∀ g ∈ first ++ second, 0 < g.rect.width ∧ 0 < g.rect.height) →
      0 ≤ threshold → threshold ≤ 1 →
      Profile.ofCluster? first frame i = .ok (some p) →
      Profile.ofCluster? second frame j = .ok (some q) →
      p.symmetricTo q threshold = .ok true →
      (p.side = .left ∧ q.side = .right) ∨ (p.side = .right ∧ q.side = .left) := by
  intro hclaim
  have hsides := hclaim outerBox innerBox ⟨200, 100⟩ (.finite (mkRat 3 5)) 0 1 outerProfile
    innerProfile (by decide) (by decide +kernel) (by decide +kernel) (by decide +kernel)
    (by decide +kernel) (by decide +kernel)
  simp [outerProfile, innerProfile] at hsides

end Cluster

end ScoreOverlay
