import ScoreOverlay.Cluster.Pairing
import ScoreOverlay.Proofs.Cluster.Shift

namespace ScoreOverlay

variable (dy : Int)

namespace Profile

/-- The profile of the cluster moved down by `dy`. -/
def shifted (p : Profile) : Profile :=
  { p with minY := p.minY + dy, averageY := p.averageY + dy }

theorem foldl_min_add {α : Type} (key : α → Int) (l : List α) (n : Int) :
    l.foldl (fun n a => min n (key a + dy)) (n + dy) =
      l.foldl (fun n a => min n (key a)) n + dy := by
  induction l generalizing n with
  | nil => rfl
  | cons a rest ih =>
    rw [List.foldl_cons, List.foldl_cons, ← ih, Int.min_add_right]

/-- Moving a cluster down changes nothing about its profile but the levels. -/
theorem ofCluster?_lockstep {cluster : Cluster} (h : Cluster.StaysBelowTop dy cluster)
    (frame : Frame) (index : Nat) :
    Lockstep (Option.map (shifted dy)) (ofCluster? cluster frame index)
      (ofCluster? (cluster.shifted 0 dy) frame index) := by
  cases cluster with
  | nil => exact Lockstep.pure rfl
  | cons first rest =>
    have hx (g : Glyph) : (g.shifted 0 dy).rect.x = g.rect.x := Int.add_zero _
    have hy (g : Glyph) : (g.shifted 0 dy).rect.y = g.rect.y + dy := rfl
    have hright (g : Glyph) : (g.shifted 0 dy).rect.right = g.rect.right :=
      congrArg (Coordinate.add · g.rect.width) (hx g)
    have htops : (rest.map (Glyph.shifted 0 dy)).map (·.rect.y) =
        (rest.map (·.rect.y)).map (· + dy) := by
      rw [List.map_map, List.map_map]
      rfl
    have hnonneg : ∀ n ∈ (first :: rest).map (·.rect.y), 0 ≤ n ∧ 0 ≤ n + dy :=
      List.forall_mem_map.2 fun g hg => (h g hg).2
    -- Read this way, the two runs only differ in the levels that they add up or compare.
    unfold ofCluster?
    simp only [Cluster.shifted, List.map_cons, List.mapM_map, Function.comp_def, List.foldl_map,
      List.length_cons, List.length_map, hx, hy, hright, htops, Glyph.height_shifted,
      Cluster.map_height_shifted]
    refine Lockstep.rfl.bind fun firstRight _ => Lockstep.rfl.bind fun rights _ => ?_
    refine (Coordinate.sum_lockstep (first.rect.y :: rest.map (·.rect.y)) dy).bind
      fun sum hsum => ?_
    have hmean := Coordinate.mean_add (List.cons_ne_nil _ _) hnonneg
    rw [← Coordinate.eq_of_sum_eq_ok hsum, List.length_cons, List.length_map] at hmean
    refine Lockstep.rfl.bind fun _ _ => Lockstep.rfl.bind fun _ _ => ?_
    refine Lockstep.rfl.bind fun _ _ => Lockstep.rfl.bind fun _ _ => Lockstep.pure ?_
    simp only [List.length_cons, List.length_map, hmean, foldl_min_add]
    rfl

/-- Symmetry compares two levels only with each other. -/
theorem symmetricTo_shifted (p q : Profile) (threshold : Binary.Scalar) :
    (p.shifted dy).symmetricTo (q.shifted dy) threshold = p.symmetricTo q threshold := by
  have hlevels (unit : Rat) : relativeDifference (p.averageY + dy) (q.averageY + dy) unit =
      relativeDifference p.averageY q.averageY unit := by
    unfold relativeDifference
    rw [Coordinate.sub_add_add]
  unfold symmetricTo
  simp only [shifted, hlevels]
  rfl

end Profile

namespace Pairing

theorem ofProfiles_shifted (profiles : List Profile) (threshold : Binary.Scalar) :
    ofProfiles (profiles.map (Profile.shifted dy)) threshold = ofProfiles profiles threshold := by
  unfold ofProfiles matchAt findPartner?
  simp only [List.length_map, elementAt_map_bind, Profile.symmetricTo_shifted]

theorem keepTall_shifted (profiles : List Profile) (pairing : Pairing) :
    pairing.keepTall (profiles.map (Profile.shifted dy)) = pairing.keepTall profiles := by
  unfold keepTall keepTallAt
  simp only [elementAt_map_bind]
  rfl

/-- What is removed depends on the positions only. -/
theorem keepPaired_lockstep {move : Cluster → Cluster} (clusters : List Cluster)
    (pairing : Pairing) :
    Lockstep (List.map move) (keepPaired clusters pairing)
      (keepPaired (clusters.map move) pairing) := by
  unfold keepPaired
  rw [List.length_map]
  refine Lockstep.foldrM (fun i _ clusters => ?_) clusters
  refine Lockstep.rfl.bind fun _ _ => Lockstep.ite Iff.rfl (fun _ => Lockstep.pure rfl) fun _ => ?_
  exact (Lockstep.removeAt move clusters i).bind fun _ _ => Lockstep.pure rfl

end Pairing

namespace Cluster

variable {clusters : List Cluster} {frame : Frame}

theorem profiles_lockstep (h : ∀ cluster ∈ clusters, StaysBelowTop dy cluster) (frame : Frame) :
    Lockstep (List.map (Profile.shifted dy)) (profiles clusters frame)
      (profiles (clusters.map (shifted 0 dy)) frame) := by
  unfold profiles
  rw [List.zipIdx_map]
  refine Lockstep.bind (Lockstep.mapM fun entry hentry => Profile.ofCluster?_lockstep dy
    (h _ (List.fst_mem_of_mem_zipIdx hentry)) frame entry.2) fun found _ => Lockstep.pure ?_
  rw [List.filterMap_map, List.map_filterMap]
  rfl

/-- Pairs of clusters that are moved down together stay symmetric, and the same ones are tall. -/
theorem selectSymmetric_lockstep (h : ∀ cluster ∈ clusters, StaysBelowTop dy cluster)
    (frame : Frame) (threshold : Binary.Scalar) :
    Lockstep (List.map (shifted 0 dy)) (selectSymmetric clusters frame .tallest threshold)
      (selectSymmetric (clusters.map (shifted 0 dy)) frame .tallest threshold) := by
  have hfilter : (clusters.map (shifted 0 dy)).filter (· ≠ []) =
      (clusters.filter (· ≠ [])).map (shifted 0 dy) := by
    rw [List.filter_map]
    simp [Function.comp_def]
  have hsome : ∀ cluster ∈ clusters.filter (· ≠ []), StaysBelowTop dy cluster :=
    fun cluster hcluster => h cluster (List.mem_filter.1 hcluster).1
  unfold selectSymmetric
  simp only [hfilter]
  refine (profiles_lockstep dy hsome frame).bind fun profiles _ => ?_
  simp only [Pairing.ofProfiles_shifted, Pairing.refine, Pairing.keepTall_shifted]
  refine Lockstep.rfl.bind fun pairing _ => Lockstep.rfl.bind fun refined _ => ?_
  exact Pairing.keepPaired_lockstep _ refined

end Cluster

end ScoreOverlay
