import Mathlib.Algebra.Order.BigOperators.Group.List
import ScoreOverlay.Cluster.Profile
import ScoreOverlay.Proofs.Checked.Overflow
import ScoreOverlay.Proofs.Geometry.Containment

namespace ScoreOverlay

section Mean

variable {l : List Int} {low high : Int}

/-- A mean that is cut off towards zero does not leave the bounds of the numbers, since the bounds
    themselves are integers. -/
theorem le_mean (hne : l ≠ []) (h : ∀ n ∈ l, low ≤ n) : low ≤ l.sum.tdiv l.length := by
  have hcount : (0 : Int) < l.length := by
    have := List.length_pos_of_ne_nil hne
    omega
  have hsum := List.card_nsmul_le_sum l low h
  rw [nsmul_eq_mul, mul_comm] at hsum
  calc low = (low * l.length).tdiv l.length := (Int.mul_tdiv_cancel _ hcount.ne').symm
    _ ≤ l.sum.tdiv l.length := Int.tdiv_le_tdiv hcount hsum

theorem mean_le (hne : l ≠ []) (h : ∀ n ∈ l, n ≤ high) : l.sum.tdiv l.length ≤ high := by
  have hcount : (0 : Int) < l.length := by
    have := List.length_pos_of_ne_nil hne
    omega
  have hsum := List.sum_le_card_nsmul l high h
  rw [nsmul_eq_mul, mul_comm] at hsum
  calc l.sum.tdiv l.length ≤ (high * l.length).tdiv l.length := Int.tdiv_le_tdiv hcount hsum
    _ = high := Int.mul_tdiv_cancel _ hcount.ne'

/-- One of the numbers is no less than their mean. -/
theorem exists_mean_le (hne : l ≠ []) : ∃ n ∈ l, l.sum.tdiv l.length ≤ n := by
  by_contra hnone
  push Not at hnone
  have := mean_le hne fun n hn => Int.le_sub_one_of_lt (hnone n hn)
  omega

end Mean

namespace Profile

/-- The profile has its side and its distances from the line at `middle`. -/
def IsPlaced (p : Profile) (middle : Int) : Prop :=
  placement (middle - p.minX) (middle - p.maxX) = .ok (p.side, p.near, p.far)

/-- On the left the near edge is the right one, and on the right it is the left one. A cluster that
    touches or crosses the line has no distances. -/
theorem IsPlaced.distances {p : Profile} {middle : Int} (h : p.IsPlaced middle) :
    match p.side with
    | .left => (p.minX ≤ middle ∧ p.maxX < middle) ∧ p.near = middle - p.maxX ∧
        p.far = middle - p.minX
    | .middle => ¬ (p.minX ≤ middle ∧ p.maxX < middle) ∧ ¬ (middle < p.minX ∧ middle < p.maxX) ∧
        p.near = 0 ∧ p.far = 0
    | .right => (middle < p.minX ∧ middle < p.maxX) ∧ p.near = p.minX - middle ∧
        p.far = p.maxX - middle := by
  unfold IsPlaced placement at h
  split at h
  · simp only [pure_eq_ok, Except.ok.injEq, Prod.mk.injEq] at h
    rw [← h.1]
    dsimp only
    omega
  · split at h
    · obtain ⟨near, hnear, h⟩ := bind_eq_ok_iff.1 h
      obtain ⟨far, hfar, h⟩ := bind_eq_ok_iff.1 h
      have := Coordinate.eq_of_check_eq_ok hnear
      have := Coordinate.eq_of_check_eq_ok hfar
      simp only [pure_eq_ok, Except.ok.injEq, Prod.mk.injEq] at h
      rw [← h.1]
      dsimp only
      omega
    · simp only [pure_eq_ok, Except.ok.injEq, Prod.mk.injEq] at h
      rw [← h.1]
      dsimp only
      omega

/-- A cluster with distances of its own lies to the left or to the right of the line. -/
theorem IsPlaced.beside {p : Profile} {middle : Int} (h : p.IsPlaced middle)
    (hspan : p.near < p.far) :
    (p.side = .left ∧ p.maxX < middle ∧ p.near = middle - p.maxX ∧ p.far = middle - p.minX) ∨
      (p.side = .right ∧ middle < p.minX ∧ p.near = p.minX - middle ∧
        p.far = p.maxX - middle) := by
  have hdistances := h.distances
  cases hside : p.side with
  | left =>
    rw [hside] at hdistances
    exact .inl ⟨rfl, hdistances.1.2, hdistances.2⟩
  | middle =>
    rw [hside] at hdistances
    omega
  | right =>
    rw [hside] at hdistances
    exact .inr ⟨rfl, hdistances.1.1, hdistances.2⟩

/-- What a profile says about its cluster, whichever glyph comes first. -/
structure Measures (p : Profile) (cluster : Cluster) (frame : Frame) (index : Nat) : Prop where
  minX : (cluster.map fun g => g.rect.x).min? = some p.minX
  maxX : (cluster.map fun g => g.rect.x + g.rect.width).max? = some p.maxX
  minY : (cluster.map fun g => g.rect.y).min? = some p.minY
  averageY : p.averageY = (cluster.map fun g : Glyph => g.rect.y).sum.tdiv cluster.length
  averageHeight : p.averageHeight = (cluster.map Glyph.height).sum.tdiv cluster.length
  placed : p.IsPlaced frame.middle
  index : p.index = index

variable {cluster : Cluster} {frame : Frame} {index : Nat} {p q : Profile}

private theorem eq_map_of_right {glyphs : List Glyph} {rights : List Int}
    (h : glyphs.mapM (·.rect.right) = .ok rights) :
    glyphs.map (fun g => g.rect.x + g.rect.width) = rights := by
  induction glyphs generalizing rights with
  | nil =>
    cases h
    rfl
  | cons first rest ih =>
    rw [List.mapM_cons] at h
    obtain ⟨right, hright, h⟩ := bind_eq_ok_iff.1 h
    obtain ⟨rights, hrights, h⟩ := bind_eq_ok_iff.1 h
    cases h
    rw [List.map_cons, ih hrights, Coordinate.eq_of_add_eq_ok hright]

theorem measures_of_ofCluster? (h : ofCluster? cluster frame index = .ok (some p)) :
    p.Measures cluster frame index := by
  cases cluster with
  | nil => cases h
  | cons first rest =>
    obtain ⟨firstRight, hfirst, h⟩ := bind_eq_ok_iff.1 h
    obtain ⟨rights, hrest, h⟩ := bind_eq_ok_iff.1 h
    obtain ⟨sumY, hsumY, h⟩ := bind_eq_ok_iff.1 h
    obtain ⟨sumHeight, hsumHeight, h⟩ := bind_eq_ok_iff.1 h
    obtain ⟨toLeft, hleft, h⟩ := bind_eq_ok_iff.1 h
    obtain ⟨toRight, hright, h⟩ := bind_eq_ok_iff.1 h
    obtain ⟨⟨side, near, far⟩, hplacement, h⟩ := bind_eq_ok_iff.1 h
    cases h
    rw [Coordinate.eq_of_sub_eq_ok hleft, Coordinate.eq_of_sub_eq_ok hright] at hplacement
    refine ⟨min?_map_cons _ first rest, ?_, min?_map_cons _ first rest, ?_, ?_, hplacement, rfl⟩
    · rw [List.map_cons, eq_map_of_right hrest, ← Coordinate.eq_of_add_eq_ok hfirst]
      exact List.max?_cons'
    · rw [Coordinate.eq_of_sum_eq_ok hsumY]
    · rw [Coordinate.eq_of_sum_eq_ok hsumHeight]

theorem isPlaced_of_ofCluster? (h : ofCluster? cluster frame index = .ok (some p)) :
    p.IsPlaced frame.middle :=
  (measures_of_ofCluster? h).placed

/-- The measures of a cluster determine its profile. -/
theorem Measures.unique (hp : p.Measures cluster frame index)
    (hq : q.Measures cluster frame index) : p = q := by
  have hminX := Option.some.inj (hp.minX.symm.trans hq.minX)
  have hmaxX := Option.some.inj (hp.maxX.symm.trans hq.maxX)
  have hminY := Option.some.inj (hp.minY.symm.trans hq.minY)
  have haverageY := hp.averageY.trans hq.averageY.symm
  have haverageHeight := hp.averageHeight.trans hq.averageHeight.symm
  have hindex := hp.index.trans hq.index.symm
  have hplaced := hp.placed
  have hplaced' := hq.placed
  unfold IsPlaced at hplaced hplaced'
  rw [hminX, hmaxX, hplaced'] at hplaced
  cases p
  cases q
  simp_all

/-- Boxes with pixels have a left edge and a right edge that differ. -/
theorem Measures.minX_lt_maxX (h : p.Measures cluster frame index)
    (hboxes : ∀ g ∈ cluster, ¬ g.rect.IsEmpty) : p.minX < p.maxX := by
  obtain ⟨g, hg, hleft⟩ := List.mem_map.1 (List.min?_eq_some_iff.1 h.minX).1
  have hright := (List.max?_eq_some_iff.1 h.maxX).2 (g.rect.x + g.rect.width)
    (List.mem_map_of_mem hg)
  have hwidth := (Rect.not_isEmpty_iff.1 (hboxes g hg)).1
  omega

/-- The average height of boxes with pixels is positive. -/
theorem Measures.averageHeight_pos (h : p.Measures cluster frame index) (hne : cluster ≠ [])
    (hboxes : ∀ g ∈ cluster, ¬ g.rect.IsEmpty) : 0 < p.averageHeight := by
  rw [h.averageHeight, ← List.length_map Glyph.height]
  refine le_mean (mt List.map_eq_nil_iff.1 hne) ?_
  exact List.forall_mem_map.2 fun g hg => (Rect.not_isEmpty_iff.1 (hboxes g hg)).2

end Profile

end ScoreOverlay
