import ScoreOverlay.Proofs.Cluster.Division
import ScoreOverlay.Proofs.Cluster.Measures
import ScoreOverlay.Proofs.Cluster.Profile
import ScoreOverlay.Proofs.Cluster.Symmetry

namespace ScoreOverlay

theorem min?_eq_of_perm {l l' : List Int} (h : l.Perm l') : l.min? = l'.min? := by
  ext n
  simp only [List.min?_eq_some_iff, h.mem_iff]

theorem max?_eq_of_perm {l l' : List Int} (h : l.Perm l') : l.max? = l'.max? := by
  ext n
  simp only [List.max?_eq_some_iff, h.mem_iff]

namespace Profile

variable {cluster cluster' : Cluster} {frame : Frame} {index : Nat} {p : Profile}

/-- What a profile says about boxes with pixels, wherever the center line is. -/
structure IsSoundFor (p : Profile) (cluster : Cluster) : Prop where
  columns : p.minX < p.maxX
  distances : 0 ≤ p.near ∧ p.near ≤ p.far
  beside : p.side ≠ .middle → 0 < p.near ∧ p.far - p.near = p.maxX - p.minX
  middle : p.side = .middle → p.near = 0 ∧ p.far = 0
  level : p.minY ≤ p.averageY ∧ ∃ g ∈ cluster, p.averageY ≤ g.rect.y
  height : 1 ≤ p.averageHeight ∧ ∃ g ∈ cluster, p.averageHeight ≤ g.height

/-- The average level lies between the highest and the lowest top line, also above the frame. -/
theorem Measures.level (h : p.Measures cluster frame index) (hne : cluster ≠ []) :
    p.minY ≤ p.averageY ∧ ∃ g ∈ cluster, p.averageY ≤ g.rect.y := by
  have hne' : (cluster.map fun g : Glyph => g.rect.y) ≠ [] := mt List.map_eq_nil_iff.1 hne
  have haverage := h.averageY
  rw [← List.length_map fun g : Glyph => g.rect.y] at haverage
  rw [haverage]
  refine ⟨le_mean hne' (List.min?_eq_some_iff.1 h.minY).2, ?_⟩
  obtain ⟨y, hy, hle⟩ := exists_mean_le hne'
  obtain ⟨g, hg, rfl⟩ := List.mem_map.1 hy
  exact ⟨g, hg, hle⟩

theorem Measures.exists_averageHeight_le (h : p.Measures cluster frame index)
    (hne : cluster ≠ []) : ∃ g ∈ cluster, p.averageHeight ≤ g.height := by
  rw [h.averageHeight, ← List.length_map Glyph.height]
  obtain ⟨n, hn, hle⟩ := exists_mean_le (mt List.map_eq_nil_iff.1 hne)
  obtain ⟨g, hg, rfl⟩ := List.mem_map.1 hn
  exact ⟨g, hg, hle⟩

/-- Beside the line the distances are as far apart as the columns, and elsewhere there are none. -/
theorem IsPlaced.span {middle : Int} (h : p.IsPlaced middle) :
    (p.side ≠ .middle ∧ 0 < p.near ∧ p.far - p.near = p.maxX - p.minX) ∨
      (p.side = .middle ∧ p.near = 0 ∧ p.far = 0) := by
  have hdistances := h.distances
  cases hside : p.side with
  | left =>
    rw [hside] at hdistances
    obtain ⟨⟨-, hright⟩, hnear, hfar⟩ := hdistances
    exact .inl ⟨by decide, by omega, by omega⟩
  | middle =>
    rw [hside] at hdistances
    exact .inr ⟨rfl, hdistances.2.2⟩
  | right =>
    rw [hside] at hdistances
    obtain ⟨⟨hleft, -⟩, hnear, hfar⟩ := hdistances
    exact .inl ⟨by decide, by omega, by omega⟩

theorem Measures.isSoundFor (h : p.Measures cluster frame index) (hne : cluster ≠ [])
    (hboxes : ∀ g ∈ cluster, ¬ g.rect.IsEmpty) : p.IsSoundFor cluster := by
  have hcolumns := h.minX_lt_maxX hboxes
  have hheight := h.averageHeight_pos hne hboxes
  rcases h.placed.span with ⟨hside, hnear, hspan⟩ | ⟨hside, hnear, hfar⟩
  · exact ⟨hcolumns, by omega, fun _ => ⟨hnear, hspan⟩, fun hmiddle => absurd hmiddle hside,
      h.level hne, hheight, h.exists_averageHeight_le hne⟩
  · exact ⟨hcolumns, by omega, fun hbeside => absurd hside hbeside, fun _ => ⟨hnear, hfar⟩,
      h.level hne, hheight, h.exists_averageHeight_le hne⟩

/-- No measure depends on which glyph comes first. -/
theorem Measures.of_perm (h : p.Measures cluster frame index) (hperm : cluster'.Perm cluster) :
    p.Measures cluster' frame index where
  minX := (min?_eq_of_perm (hperm.map _)).trans h.minX
  maxX := (max?_eq_of_perm (hperm.map _)).trans h.maxX
  minY := (min?_eq_of_perm (hperm.map _)).trans h.minY
  averageY := by
    rw [(hperm.map _).sum_eq, hperm.length_eq]
    exact h.averageY
  averageHeight := by
    rw [(hperm.map _).sum_eq, hperm.length_eq]
    exact h.averageHeight
  placed := h.placed
  index := h.index

theorem ofCluster?_eq_ok_of_perm (h : ofCluster? cluster frame index = .ok (some p))
    (hperm : cluster'.Perm cluster) (hfits : NoOverflow (ofCluster? cluster' frame index)) :
    ofCluster? cluster' frame index = .ok (some p) := by
  have hne : cluster' ≠ [] := by
    rintro rfl
    obtain rfl := hperm.nil_eq
    cases h
  obtain ⟨p', hp'⟩ := exists_ofCluster?_eq_ok hne hfits
  rw [hp', (measures_of_ofCluster? hp').unique ((measures_of_ofCluster? h).of_perm hperm)]

/-- The profile of boxes with pixels is sound, and the order of the boxes does not show in it. No
    test for symmetry depends on what a division by zero gives, or one without a finite result, and
    a test that succeeds has found two intervals of distances from the center line that share some
    length. -/
theorem ofCluster?_isSound (hne : cluster ≠ []) (hboxes : ∀ g ∈ cluster, ¬ g.rect.IsEmpty)
    (hfits : NoOverflow (ofCluster? cluster frame index)) :
    ∃ p, ofCluster? cluster frame index = .ok (some p) ∧ p.IsSoundFor cluster ∧
      (∀ cluster' : Cluster, cluster'.Perm cluster →
        NoOverflow (ofCluster? cluster' frame index) →
        ofCluster? cluster' frame index = .ok (some p)) ∧
      ∀ (q : Profile) (threshold : Binary.Scalar),
        (∀ divide, DividesFinitely divide →
          p.symmetricToBy divide q threshold = p.symmetricTo q threshold ∧
            q.symmetricToBy divide p threshold = q.symmetricTo p threshold) ∧
        (0 ≤ threshold → p.symmetricTo q threshold = .ok true →
          p.near < p.far ∧ q.near < q.far ∧ max p.near q.near < min p.far q.far) := by
  obtain ⟨p, hp⟩ := exists_ofCluster?_eq_ok hne hfits
  refine ⟨p, hp, (measures_of_ofCluster? hp).isSoundFor hne hboxes, ?_, fun q threshold => ?_⟩
  · exact fun cluster' hperm hfits' => ofCluster?_eq_ok_of_perm hp hperm hfits'
  · refine ⟨fun divide hdivide => ?_, distances_of_symmetricTo⟩
    exact ⟨symmetricToBy_eq hdivide p q threshold, symmetricToBy_eq hdivide q p threshold⟩

/-- Two boxes to the left of the center line of a frame that is 200 columns wide. The top line of
    one of them lies above the frame. -/
private def raisedBoxes : Cluster :=
  [⟨[], [], ⟨10, -7, 30, 20⟩, "a"⟩, ⟨[], [], ⟨60, 4, 25, 21⟩, "b"⟩]

private def raisedProfile : Profile := ⟨10, 85, -7, -1, 20, .left, 15, 90, 0⟩

private def facingProfile : Profile := ⟨110, 180, -1, -1, 20, .right, 10, 80, 1⟩

/-- A division that faults where the divisor is zero or the quotient is `nan` or infinite. -/
private def strictQuotient (a b : Rat) : Checked Rat :=
  match (Binary.Scalar.quotient Binary.binary32 a b).value? with
  | some quotient => pure quotient
  | none => throw .outOfRange

/-- The profile holds in both orders of the boxes, and the test for symmetry with the profile that
    it faces makes no division that faults. -/
theorem ofCluster?_isSound_raised :
    raisedProfile.IsSoundFor raisedBoxes ∧
      ofCluster? raisedBoxes.reverse ⟨200, 100⟩ 0 = .ok (some raisedProfile) ∧
      raisedProfile.symmetricToBy strictQuotient facingProfile (.finite (mkRat 3 5)) = .ok true ∧
      max raisedProfile.near facingProfile.near < min raisedProfile.far facingProfile.far := by
  have hprofile : ofCluster? raisedBoxes ⟨200, 100⟩ 0 = .ok (some raisedProfile) := by
    decide +kernel
  have hsymmetric : raisedProfile.symmetricTo facingProfile (.finite (mkRat 3 5)) = .ok true := by
    decide +kernel
  have hthreshold : 0 ≤ Binary.Scalar.finite (mkRat 3 5) := by decide +kernel
  have hstrict : DividesFinitely strictQuotient := by
    intro a b c hquotient
    simp only [strictQuotient, hquotient, pure_eq_ok]
  have hne : raisedBoxes ≠ [] := by decide
  obtain ⟨p, hp, hsound, hperm, htests⟩ :=
    ofCluster?_isSound hne (by decide) (NoOverflow.of_ok hprofile)
  obtain rfl : raisedProfile = p := by
    rw [hprofile] at hp
    exact Option.some.inj (Except.ok.inj hp)
  obtain ⟨hdivisions, hshared⟩ := htests facingProfile (.finite (mkRat 3 5))
  refine ⟨hsound, ?_, ?_, (hshared hthreshold hsymmetric).2.2⟩
  · exact hperm _ (List.reverse_perm raisedBoxes) (by decide +kernel)
  · rw [(hdivisions _ hstrict).1, hsymmetric]

end Profile

end ScoreOverlay
