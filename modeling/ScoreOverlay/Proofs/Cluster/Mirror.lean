import ScoreOverlay.Proofs.Binary.Quotient
import ScoreOverlay.Proofs.Cluster.Measures
import ScoreOverlay.Proofs.Cluster.Profile

namespace ScoreOverlay

/-- The rectangle on the other side of the vertical line at `middle`. -/
def Rect.mirrored (middle : Int) (r : Rect) : Rect :=
  { r with x := 2 * middle - (r.x + r.width) }

/-- The glyph with its rectangle mirrored. -/
def Glyph.mirrored (middle : Int) (g : Glyph) : Glyph :=
  { g with rect := g.rect.mirrored middle }

def Cluster.mirrored (middle : Int) (cluster : Cluster) : Cluster :=
  cluster.map (Glyph.mirrored middle)

def Side.opposite : Side → Side
  | left => right
  | middle => middle
  | right => left

theorem min?_map_sub {l : List Int} {high : Int} (n : Int) (h : l.max? = some high) :
    (l.map (n - ·)).min? = some (n - high) := by
  obtain ⟨hmem, hle⟩ := List.max?_eq_some_iff.1 h
  refine List.min?_eq_some_iff.2 ⟨List.mem_map_of_mem hmem, List.forall_mem_map.2 fun a ha => ?_⟩
  have := hle a ha
  omega

theorem max?_map_sub {l : List Int} {low : Int} (n : Int) (h : l.min? = some low) :
    (l.map (n - ·)).max? = some (n - low) := by
  obtain ⟨hmem, hle⟩ := List.min?_eq_some_iff.1 h
  refine List.max?_eq_some_iff.2 ⟨List.mem_map_of_mem hmem, List.forall_mem_map.2 fun a ha => ?_⟩
  have := hle a ha
  omega

namespace Profile

/-- The profile of the mirrored cluster: the columns are mirrored and the side is the opposite one.
    The distances from the line are the same, and so are levels and heights. -/
def mirrored (middle : Int) (p : Profile) : Profile :=
  { p with minX := 2 * middle - p.maxX, maxX := 2 * middle - p.minX, side := p.side.opposite }

variable {cluster : Cluster} {frame : Frame} {i j : Nat} {p q : Profile} {middle : Int}

/-- Mirrored columns lie on the opposite side. The tests for the two sides differ in whether an edge
    may lie on the line itself, but of two edges that differ only the outer one could. -/
theorem IsPlaced.mirrored (hp : p.IsPlaced middle) (hq : q.IsPlaced middle)
    (hminX : q.minX = 2 * middle - p.maxX) (hmaxX : q.maxX = 2 * middle - p.minX)
    (hcolumns : p.minX < p.maxX) :
    q.side = p.side.opposite ∧ q.near = p.near ∧ q.far = p.far := by
  have hpDistances := hp.distances
  have hqDistances := hq.distances
  cases hpSide : p.side <;> cases hqSide : q.side <;>
    simp only [hpSide, hqSide, Side.opposite, reduceCtorEq, false_and, true_and]
      at hpDistances hqDistances ⊢ <;>
    omega

theorem Measures.mirrored (hp : p.Measures cluster frame i)
    (hq : q.Measures (cluster.mirrored frame.middle) frame j)
    (hboxes : ∀ g ∈ cluster, ¬ g.rect.IsEmpty) :
    q = (p.mirrored frame.middle).withIndex j := by
  have hlefts : (cluster.mirrored frame.middle).map (fun g => g.rect.x) =
      (cluster.map fun g => g.rect.x + g.rect.width).map (2 * frame.middle - ·) := by
    rw [Cluster.mirrored, List.map_map, List.map_map]
    rfl
  have hrights : (cluster.mirrored frame.middle).map (fun g => g.rect.x + g.rect.width) =
      (cluster.map fun g => g.rect.x).map (2 * frame.middle - ·) := by
    rw [Cluster.mirrored, List.map_map, List.map_map]
    refine List.map_congr_left fun g _ => ?_
    simp only [Function.comp_apply, Glyph.mirrored, Rect.mirrored]
    omega
  have htops : (cluster.mirrored frame.middle).map (fun g => g.rect.y) =
      cluster.map fun g => g.rect.y := by
    rw [Cluster.mirrored, List.map_map]
    rfl
  have hheights : (cluster.mirrored frame.middle).map Glyph.height = cluster.map Glyph.height := by
    rw [Cluster.mirrored, List.map_map]
    rfl
  have hcount : (cluster.mirrored frame.middle).length = cluster.length := List.length_map _
  have hminX := hq.minX
  have hmaxX := hq.maxX
  have hminY := hq.minY
  have haverageY := hq.averageY
  have haverageHeight := hq.averageHeight
  rw [hlefts, min?_map_sub _ hp.maxX, Option.some.injEq] at hminX
  rw [hrights, max?_map_sub _ hp.minX, Option.some.injEq] at hmaxX
  rw [htops, hp.minY, Option.some.injEq] at hminY
  rw [htops, hcount, ← hp.averageY] at haverageY
  rw [hheights, hcount, ← hp.averageHeight] at haverageHeight
  obtain ⟨hside, hnear, hfar⟩ := hp.placed.mirrored hq.placed hminX.symm hmaxX.symm
    (hp.minX_lt_maxX hboxes)
  have hindex := hq.index
  cases q
  simp_all [Profile.mirrored, withIndex]

/-- A part that is the whole is one, in `binary32`. -/
private theorem part_self {span : Int} (h : 0 < span) :
    Binary.binary32.round (Binary.binary32.round span / Binary.binary32.round span) = 1 := by
  have hround := Binary.one_le_round_of_pos h
  rw [div_self (by linarith)]
  decide +kernel

theorem relativeDifference_self (a : Int) (unit : Rat) : relativeDifference a a unit = .ok 0 := by
  have hsub : Coordinate.sub a a = .ok 0 := by
    unfold Coordinate.sub
    rw [Int.sub_self]
    exact Coordinate.check_eq_ok (by decide) (by decide)
  have hzero : Binary.binary32.round ((0 : Int) : Rat) = 0 := if_pos rfl
  rw [relativeDifference, hsub, ok_bind, show Coordinate.abs 0 = .ok 0 from rfl, ok_bind, hzero,
    zero_div]
  rfl

/-- A cluster with a height and with distances of its own would be symmetric to itself. -/
theorem symmetricTo_self {threshold : Binary.Scalar} (hheight : 0 < p.averageHeight)
    (hspan : p.near < p.far) (hthreshold : threshold < 1)
    (hfits : NoOverflow (p.symmetricTo p threshold)) : p.symmetricTo p threshold = .ok true := by
  obtain ⟨answer, hanswer⟩ := (symmetricTo_inBounds p p threshold).exists_ok hfits
  obtain ⟨sum, hsum, h⟩ := bind_eq_ok_iff.1 hanswer
  have hsumPos : 0 < sum := by
    have := Coordinate.eq_of_add_eq_ok hsum
    omega
  have hmaxHeight : 0 < Binary.binary32.round p.averageHeight := by
    have := Binary.one_le_round_of_pos hheight
    linarith
  have hmeanHeight : 0 < Binary.binary32.round (Binary.binary32.round sum / 2) := by
    have := Binary.half_le_round_half hsumPos
    linarith
  have hdifference : ¬ maxDifference ≤ 0 := by decide +kernel
  rw [max_self, if_neg (not_or.2 ⟨not_le.2 hmeanHeight, not_le.2 hmaxHeight⟩),
    relativeDifference_self, ok_bind, relativeDifference_self, ok_bind,
    if_neg (not_or.2 ⟨hdifference, hdifference⟩)] at h
  obtain ⟨span, hlength, h⟩ := bind_eq_ok_iff.1 h
  have hpos : 0 < span := by
    have := Coordinate.eq_of_sub_eq_ok hlength
    omega
  have hshared : Coordinate.sub (min p.far p.far) (max p.near p.near) = .ok span := by
    rw [min_self, max_self]
    exact hlength
  rw [if_neg (not_le.2 hpos), hlength, ok_bind, if_neg (not_le.2 hpos), hshared, ok_bind] at h
  have hone : threshold < Binary.Scalar.finite 1 := hthreshold
  rw [hanswer, ← h]
  simp [part_self hpos, hone]

/-- The test compares levels, heights and distances from the line only. -/
theorem symmetricTo_mirrored (p : Profile) (middle : Int) (j : Nat) (threshold : Binary.Scalar) :
    p.symmetricTo ((p.mirrored middle).withIndex j) threshold = p.symmetricTo p threshold ∧
      ((p.mirrored middle).withIndex j).symmetricTo p threshold = p.symmetricTo p threshold :=
  ⟨rfl, rfl⟩

/-- Mirroring a cluster of boxes with pixels at the center line exchanges left and right and changes
    nothing else about its profile but the columns, which are mirrored as well. A cluster beside
    the line and its mirror image are symmetric, whichever comes first, for every threshold below
    one. -/
theorem ofCluster?_mirrored {cluster : Cluster} {frame : Frame}
    (hboxes : ∀ g ∈ cluster, ¬ g.rect.IsEmpty) {i j : Nat}
    (hfits : NoOverflow (ofCluster? cluster frame i))
    (hfits' : NoOverflow (ofCluster? (cluster.mirrored frame.middle) frame j)) :
    ∃ p?, ofCluster? cluster frame i = .ok p? ∧
      ofCluster? (cluster.mirrored frame.middle) frame j =
        .ok (p?.map fun p => (p.mirrored frame.middle).withIndex j) ∧
      (p? = none ↔ cluster = []) ∧
      ∀ p ∈ p?, p.side ≠ .middle → ∀ threshold : Binary.Scalar, threshold < 1 →
        NoOverflow (p.symmetricTo ((p.mirrored frame.middle).withIndex j) threshold) →
        p.symmetricTo ((p.mirrored frame.middle).withIndex j) threshold = .ok true ∧
          ((p.mirrored frame.middle).withIndex j).symmetricTo p threshold = .ok true := by
  by_cases hne : cluster = []
  · subst hne
    exact ⟨none, rfl, rfl, by simp, by simp⟩
  obtain ⟨p?, hp, hsome⟩ := (ofCluster?_ensures hne frame i).exists_ok hfits
  have hne' : cluster.mirrored frame.middle ≠ [] := mt List.map_eq_nil_iff.1 hne
  obtain ⟨q?, hq, hsome'⟩ := (ofCluster?_ensures hne' frame j).exists_ok hfits'
  obtain ⟨p, rfl⟩ := Option.isSome_iff_exists.1 hsome
  obtain ⟨q, rfl⟩ := Option.isSome_iff_exists.1 hsome'
  have hmeasures := measures_of_ofCluster? hp
  have hmirrored := hmeasures.mirrored (measures_of_ofCluster? hq) hboxes
  refine ⟨some p, hp, ?_, by simp [hne], ?_⟩
  · rw [hq, hmirrored]
    rfl
  · intro p' hp' hside threshold hthreshold hsymmetric
    cases hp'
    obtain ⟨hfirst, hsecond⟩ := symmetricTo_mirrored p frame.middle j threshold
    rw [hfirst] at hsymmetric ⊢
    rw [hsecond, and_self]
    have hcolumns := hmeasures.minX_lt_maxX hboxes
    have hspan : p.near < p.far := by
      have hdistances := hmeasures.placed.distances
      cases hp : p.side <;> rw [hp] at hdistances <;> dsimp only at hdistances
      · omega
      · exact absurd hp hside
      · omega
    exact symmetricTo_self (hmeasures.averageHeight_pos hne hboxes) hspan hthreshold hsymmetric

/-- Two boxes to the left of the center line of a frame that is 200 columns wide. -/
private def leftBoxes : Cluster :=
  [⟨[], [], ⟨10, 10, 30, 20⟩, "a"⟩, ⟨[], [], ⟨60, 12, 25, 22⟩, "b"⟩]

private def leftProfile : Profile := ⟨10, 85, 10, 11, 21, .left, 15, 90, 0⟩

private def rightProfile : Profile := ⟨115, 190, 10, 11, 21, .right, 15, 90, 1⟩

theorem ofCluster?_mirrored_leftBoxes :
    ofCluster? leftBoxes ⟨200, 100⟩ 0 = .ok (some leftProfile) ∧
      ofCluster? (leftBoxes.mirrored 100) ⟨200, 100⟩ 1 = .ok (some rightProfile) ∧
      leftProfile.symmetricTo rightProfile (.finite (mkRat 9 10)) = .ok true ∧
      rightProfile.symmetricTo leftProfile (.finite (mkRat 9 10)) = .ok true := by
  have hboxes : ∀ g ∈ leftBoxes, ¬ g.rect.IsEmpty := by decide
  have hleft : ofCluster? leftBoxes ⟨200, 100⟩ 0 = .ok (some leftProfile) := by decide +kernel
  have hright : ofCluster? (leftBoxes.mirrored 100) ⟨200, 100⟩ 1 = .ok (some rightProfile) := by
    decide +kernel
  have hfits : leftProfile.symmetricTo rightProfile (.finite (mkRat 9 10)) = .ok true := by
    decide +kernel
  obtain ⟨p?, hp, hq, -, hsymmetric⟩ :=
    ofCluster?_mirrored hboxes (NoOverflow.of_ok hleft) (NoOverflow.of_ok hright)
  rw [hleft] at hp
  cases hp
  exact ⟨hleft, hq, hsymmetric leftProfile rfl (by decide) (.finite (mkRat 9 10))
    (by decide +kernel) (NoOverflow.of_ok hfits)⟩

end Profile

end ScoreOverlay
