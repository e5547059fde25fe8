import ScoreOverlay.Cluster.Pairing
import ScoreOverlay.Proofs.Checked.Ensures
import ScoreOverlay.Proofs.Geometry.Hull

namespace ScoreOverlay

namespace Profile

theorem relativeDifference_inBounds (a b : Int) (unit : Rat) :
    InBounds (relativeDifference a b unit) := by
  refine (Coordinate.sub_inBounds _ _).bind fun _ _ => ?_
  exact (Coordinate.abs_inBounds _).bind fun _ _ => InBounds.pure _

theorem symmetricTo_inBounds (p q : Profile) (threshold : Binary.Scalar) :
    InBounds (p.symmetricTo q threshold) := by
  refine (Coordinate.add_inBounds _ _).bind fun _ _ => ?_
  refine InBounds.ite (fun _ => InBounds.pure _) fun _ => ?_
  refine (relativeDifference_inBounds _ _ _).bind fun _ _ => ?_
  refine (relativeDifference_inBounds _ _ _).bind fun _ _ => ?_
  refine InBounds.ite (fun _ => InBounds.pure _) fun _ => ?_
  refine (Coordinate.sub_inBounds _ _).bind fun _ _ => ?_
  refine InBounds.ite (fun _ => InBounds.pure _) fun _ => ?_
  refine (Coordinate.sub_inBounds _ _).bind fun _ _ => ?_
  refine InBounds.ite (fun _ => InBounds.pure _) fun _ => ?_
  exact (Coordinate.sub_inBounds _ _).bind fun _ _ => InBounds.pure _

theorem placement_inBounds (toLeft toRight : Int) : InBounds (placement toLeft toRight) := by
  refine InBounds.ite (fun _ => InBounds.pure _) fun _ => ?_
  refine InBounds.ite (fun _ => ?_) fun _ => InBounds.pure _
  refine (Coordinate.neg_inBounds _).bind fun _ _ => ?_
  exact (Coordinate.neg_inBounds _).bind fun _ _ => InBounds.pure _

/-- Only the empty cluster has no profile. -/
theorem ofCluster?_ensures {cluster : Cluster} (h : cluster ≠ []) (frame : Frame) (index : Nat) :
    Ensures (ofCluster? cluster frame index) fun profile? => profile?.isSome := by
  cases cluster with
  | nil => exact absurd rfl h
  | cons first rest =>
    refine (Rect.right_inBounds _).ensures.bind fun _ _ => ?_
    refine (InBounds.mapM fun _ _ => Rect.right_inBounds _).ensures.bind fun _ _ => ?_
    refine (Coordinate.sum_inBounds _).ensures.bind fun _ _ => ?_
    refine (Coordinate.sum_inBounds _).ensures.bind fun _ _ => ?_
    refine (Coordinate.sub_inBounds _ _).ensures.bind fun _ _ => ?_
    refine (Coordinate.sub_inBounds _ _).ensures.bind fun _ _ => ?_
    exact (placement_inBounds _ _).ensures.bind fun _ _ => Ensures.pure rfl

/-- A cluster that is not empty has a profile, if no coordinate overflows. -/
theorem exists_ofCluster?_eq_ok {cluster : Cluster} {frame : Frame} {index : Nat}
    (hne : cluster ≠ []) (hfits : NoOverflow (ofCluster? cluster frame index)) :
    ∃ p, ofCluster? cluster frame index = .ok (some p) := by
  obtain ⟨p?, hp, hsome⟩ := (ofCluster?_ensures hne frame index).exists_ok hfits
  obtain ⟨p, rfl⟩ := Option.isSome_iff_exists.1 hsome
  exact ⟨p, hp⟩

/-- The profile of the same cluster at another position. -/
def withIndex (p : Profile) (index : Nat) : Profile := { p with index }

/-- Where a cluster stands in its list decides nothing else about its profile. -/
theorem ofCluster?_withIndex {cluster : Cluster} {frame : Frame} {index : Nat} {p : Profile}
    (h : ofCluster? cluster frame index = .ok (some p)) (index' : Nat) :
    ofCluster? cluster frame index' = .ok (some (p.withIndex index')) := by
  have hmap : ofCluster? cluster frame index' =
      Option.map (withIndex · index') <$> ofCluster? cluster frame index := by
    cases cluster with
    | nil => rfl
    | cons first rest =>
      simp only [ofCluster?, map_bind]
      rfl
  rw [hmap, h]
  rfl

/-- Symmetry does not depend on where the clusters stand in their list. -/
theorem symmetricTo_withIndex (p q : Profile) (i j : Nat) (threshold : Binary.Scalar) :
    (p.withIndex i).symmetricTo (q.withIndex j) threshold = p.symmetricTo q threshold :=
  rfl

end Profile

namespace Cluster

/-- The profiles of non-empty clusters stand at the positions of their clusters. -/
theorem profiles_ensures {clusters : List Cluster} (h : ∀ cluster ∈ clusters, cluster ≠ [])
    (frame : Frame) :
    Ensures (profiles clusters frame) fun profiles =>
      profiles.length = clusters.length ∧
        ∀ i cluster, clusters[i]? = some cluster → ∃ profile, profiles[i]? = some profile ∧
          Profile.ofCluster? cluster frame i = .ok (some profile) := by
  have hsome : Ensures
      (clusters.zipIdx.mapM fun entry => Profile.ofCluster? entry.1 frame entry.2)
      fun profiles? => ∀ profile? ∈ profiles?, profile?.isSome := by
    refine (Ensures.mapM fun entry hentry => ?_).imp fun _ hall => hall.2
    exact Profile.ofCluster?_ensures (h _ (List.fst_mem_of_mem_zipIdx hentry)) frame _
  refine ⟨hsome.1.bind fun _ _ => InBounds.pure _, fun found hfound => ?_⟩
  obtain ⟨profiles?, hprofiles, hfound⟩ := bind_eq_ok_iff.1 hfound
  cases hfound
  have hall := hsome.2 profiles? hprofiles
  have hmap := mapM_eq_ok_iff.1 hprofiles
  have hback : (profiles?.filterMap id).map some = profiles? := by
    rw [List.map_filterMap_some_eq_filter_map_isSome, List.map_id, List.filter_eq_self.2 hall]
  have hlength := congrArg List.length hback
  have hlength' := congrArg List.length hmap
  simp only [List.length_map, List.length_zipIdx] at hlength hlength'
  refine ⟨by omega, fun i cluster hcluster => ?_⟩
  have hentry := congrArg (·[i]?) hmap
  rw [← hback] at hentry
  simp only [List.getElem?_map, List.getElem?_zipIdx, hcluster, Nat.zero_add, Option.map_some,
    Option.map_map] at hentry
  obtain ⟨profile, hprofile, heq⟩ := Option.map_eq_some_iff.1 hentry.symm
  exact ⟨profile, hprofile, heq.symm⟩

end Cluster

end ScoreOverlay
