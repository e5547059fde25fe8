import ScoreOverlay.Cluster.Pairing
import ScoreOverlay.Proofs.Cluster.Safety

namespace ScoreOverlay

namespace Profile

/-- The measures of a profile are not large. -/
structure IsSafe (p : Profile) : Prop where
  averageY : p.averageY.natAbs ≤ 131073
  averageHeight : p.averageHeight.natAbs ≤ 131073
  near : p.near.natAbs ≤ 131073
  far : p.far.natAbs ≤ 131073

theorem placement_noOverflow {toLeft toRight : Int} (hleft : toLeft.natAbs ≤ 131073)
    (hright : toRight.natAbs ≤ 131073) : NoOverflow (placement toLeft toRight) := by
  refine NoOverflow.ite (fun _ => NoOverflow.pure _) fun _ => ?_
  refine NoOverflow.ite (fun _ => ?_) fun _ => NoOverflow.pure _
  refine (Coordinate.neg_noOverflow (by omega) (by omega)).bind fun _ _ => ?_
  exact (Coordinate.neg_noOverflow (by omega) (by omega)).bind fun _ _ => NoOverflow.pure _

theorem natAbs_le_of_placement {toLeft toRight near far : Int} {side : Side}
    (hleft : toLeft.natAbs ≤ 131073) (hright : toRight.natAbs ≤ 131073)
    (h : placement toLeft toRight = .ok (side, near, far)) :
    near.natAbs ≤ 131073 ∧ far.natAbs ≤ 131073 := by
  unfold placement at h
  split at h
  · cases h
    exact ⟨hright, hleft⟩
  · split at h
    · obtain ⟨left, hnegLeft, h⟩ := bind_eq_ok_iff.1 h
      obtain ⟨right, hnegRight, h⟩ := bind_eq_ok_iff.1 h
      cases h
      have := Coordinate.eq_of_check_eq_ok hnegLeft
      have := Coordinate.eq_of_check_eq_ok hnegRight
      omega
    · cases h
      decide

/-- Everything that the profile of a cluster in the safe area is computed from is small. -/
private theorem sides_bounds {first : Glyph} {rest : Cluster} {rights : List Int}
    {firstRight : Int} (h : Glyph.AreSafe (first :: rest))
    (hfirst : first.rect.right = .ok firstRight) (hrest : rest.mapM (·.rect.right) = .ok rights) :
    (rest.foldl (fun n g => min n g.rect.x) first.rect.x).natAbs ≤ 65537 ∧
      (rights.foldl max firstRight).natAbs ≤ 65537 := by
  obtain ⟨g, hg, hmin⟩ := List.mem_map.1
    (List.min?_eq_some_iff.1 (min?_map_cons (fun g : Glyph => g.rect.x) first rest)).1
  obtain ⟨n, hn, hmax⟩ := List.mem_map.1
    (List.max?_eq_some_iff.1 (max?_map_cons id firstRight rights)).1
  have hright : n.natAbs ≤ 65537 := by
    obtain ⟨g, hg, hn⟩ : ∃ g ∈ first :: rest, g.rect.right = .ok n := by
      rcases List.mem_cons.1 hn with rfl | hn
      · exact ⟨first, List.mem_cons_self, hfirst⟩
      · obtain ⟨g, hg, hn⟩ := (mem_of_mapM_eq_ok hrest).1 hn
        exact ⟨g, List.mem_cons_of_mem _ hg, hn⟩
    have := Rect.isWithin_safeArea_iff.1 (h.within g hg)
    have := Coordinate.eq_of_add_eq_ok hn
    omega
  have := Rect.isWithin_safeArea_iff.1 (h.within g hg)
  rw [← hmin]
  refine ⟨by omega, ?_⟩
  change n = rights.foldl max firstRight at hmax
  rwa [← hmax]

private theorem natAbs_y_le {cluster : Cluster} (h : Glyph.AreSafe cluster) :
    ∀ n ∈ cluster.map (·.rect.y), n.natAbs ≤ 65537 := by
  intro n hn
  obtain ⟨g, hg, rfl⟩ := List.mem_map.1 hn
  have := Rect.isWithin_safeArea_iff.1 (h.within g hg)
  omega

theorem ofCluster?_noOverflow {cluster : Cluster} {frame : Frame} (index : Nat)
    (h : Glyph.AreSafe cluster) (hframe : frame.IsSafe) :
    NoOverflow (ofCluster? cluster frame index) := by
  have hcount := h.count
  have hmiddle := hframe.middle
  cases cluster with
  | nil => exact NoOverflow.pure _
  | cons first rest =>
    refine (NoOverflow.of_ok (Rect.right_eq_ok (h.within first List.mem_cons_self))).bind
      fun firstRight hfirst => ?_
    refine (NoOverflow.mapM fun g hg => NoOverflow.of_ok
      (Rect.right_eq_ok (h.within g (List.mem_cons_of_mem _ hg)))).bind fun rights hrest => ?_
    obtain ⟨hminX, hmaxX⟩ := sides_bounds h hfirst hrest
    refine (Coordinate.sum_noOverflow (natAbs_y_le h) (by rw [List.length_map]; omega)).bind
      fun _ _ => ?_
    refine (Coordinate.sum_noOverflow (Cluster.natAbs_height_le h)
      (by rw [List.length_map]; omega)).bind fun _ _ => ?_
    refine (Coordinate.sub_noOverflow (by omega) (by omega)).bind fun toLeft hleft => ?_
    refine (Coordinate.sub_noOverflow (by omega) (by omega)).bind fun toRight hright => ?_
    have := Coordinate.eq_of_sub_eq_ok hleft
    have := Coordinate.eq_of_sub_eq_ok hright
    exact (placement_noOverflow (by omega) (by omega)).bind fun _ _ => NoOverflow.pure _

theorem isSafe_of_ofCluster? {cluster : Cluster} {frame : Frame} {index : Nat} {p : Profile}
    (h : Glyph.AreSafe cluster) (hframe : frame.IsSafe)
    (hp : ofCluster? cluster frame index = .ok (some p)) : p.IsSafe := by
  have hmiddle := hframe.middle
  cases cluster with
  | nil => cases hp
  | cons first rest =>
    obtain ⟨firstRight, hfirst, hp⟩ := bind_eq_ok_iff.1 hp
    obtain ⟨rights, hrest, hp⟩ := bind_eq_ok_iff.1 hp
    obtain ⟨sumY, hsumY, hp⟩ := bind_eq_ok_iff.1 hp
    obtain ⟨sumHeight, hsumHeight, hp⟩ := bind_eq_ok_iff.1 hp
    obtain ⟨toLeft, hleft, hp⟩ := bind_eq_ok_iff.1 hp
    obtain ⟨toRight, hright, hp⟩ := bind_eq_ok_iff.1 hp
    obtain ⟨⟨side, near, far⟩, hplacement, hp⟩ := bind_eq_ok_iff.1 hp
    cases hp
    obtain ⟨hminX, hmaxX⟩ := sides_bounds h hfirst hrest
    have := Coordinate.eq_of_sub_eq_ok hleft
    have := Coordinate.eq_of_sub_eq_ok hright
    obtain ⟨hnear, hfar⟩ := natAbs_le_of_placement (by omega) (by omega) hplacement
    have hy := Coordinate.natAbs_mean_le (natAbs_y_le h) hsumY
    have hheight := Coordinate.natAbs_mean_le (Cluster.natAbs_height_le h) hsumHeight
    rw [List.length_map] at hy hheight
    exact ⟨hy.trans (by decide), hheight, hnear, hfar⟩

theorem relativeDifference_noOverflow {a b : Int} (unit : Rat) (ha : a.natAbs ≤ 131073)
    (hb : b.natAbs ≤ 131073) : NoOverflow (relativeDifference a b unit) := by
  refine (Coordinate.sub_noOverflow (by omega) (by omega)).bind fun difference hdifference => ?_
  have := Coordinate.eq_of_sub_eq_ok hdifference
  exact (Coordinate.abs_noOverflow (by omega) (by omega)).bind fun _ _ => NoOverflow.pure _

theorem symmetricTo_noOverflow {p q : Profile} (threshold : Binary.Scalar) (hp : p.IsSafe)
    (hq : q.IsSafe) : NoOverflow (p.symmetricTo q threshold) := by
  obtain ⟨hpY, hpHeight, hpNear, hpFar⟩ := hp
  obtain ⟨hqY, hqHeight, hqNear, hqFar⟩ := hq
  refine (Coordinate.add_noOverflow (by omega) (by omega)).bind fun _ _ => ?_
  refine NoOverflow.ite (fun _ => NoOverflow.pure _) fun _ => ?_
  refine (relativeDifference_noOverflow _ hpY hqY).bind fun _ _ => ?_
  refine (relativeDifference_noOverflow _ hpHeight hqHeight).bind fun _ _ => ?_
  refine NoOverflow.ite (fun _ => NoOverflow.pure _) fun _ => ?_
  refine (Coordinate.sub_noOverflow (by omega) (by omega)).bind fun _ _ => ?_
  refine NoOverflow.ite (fun _ => NoOverflow.pure _) fun _ => ?_
  refine (Coordinate.sub_noOverflow (by omega) (by omega)).bind fun _ _ => ?_
  refine NoOverflow.ite (fun _ => NoOverflow.pure _) fun _ => ?_
  exact (Coordinate.sub_noOverflow (by omega) (by omega)).bind fun _ _ => NoOverflow.pure _

end Profile

namespace Pairing

variable {profiles : List Profile} {pairing : Pairing}

/-- Matching compares profiles and forms no other coordinate. -/
theorem ofProfiles_noOverflow (threshold : Binary.Scalar) (h : ∀ p ∈ profiles, p.IsSafe) :
    NoOverflow (ofProfiles profiles threshold) := by
  refine NoOverflow.foldlM (P := fun _ => True) trivial (fun _ _ _ _ _ _ => trivial) ?_
  intro pairing _ i _
  refine (NoOverflow.elementAt _ _).bind fun _ _ => NoOverflow.ite (fun _ => NoOverflow.pure _) ?_
  intro _
  refine (NoOverflow.elementAt _ _).bind fun profile hprofile => ?_
  have hsearch : NoOverflow (pairing.findPartner? profiles threshold profile
      (List.range' (i + 1) (profiles.length - (i + 1)))) := by
    refine NoOverflow.findM? fun j _ => (NoOverflow.elementAt _ _).bind fun _ _ => ?_
    refine NoOverflow.ite (fun _ => NoOverflow.pure _) fun _ => ?_
    refine (NoOverflow.elementAt _ _).bind fun other hother => ?_
    exact Profile.symmetricTo_noOverflow threshold (h _ (mem_of_elementAt_eq_ok hprofile))
      (h _ (mem_of_elementAt_eq_ok hother))
  refine hsearch.bind fun partner? _ => ?_
  cases partner? <;> exact NoOverflow.pure _

theorem separate_noOverflow (pairing : Pairing) (i : Nat) : NoOverflow (pairing.separate i) := by
  refine (NoOverflow.elementAt _ _).bind fun partner? _ => ?_
  cases partner? with
  | none => exact NoOverflow.pure _
  | some j => exact (NoOverflow.elementAt _ _).bind fun _ _ => NoOverflow.pure _

/-- A loop that keeps nothing in particular. -/
private theorem foldlM_noOverflow {α β : Type} {f : β → α → Checked β} {l : List α} {b : β}
    (hf : ∀ b a, NoOverflow (f b a)) : NoOverflow (l.foldlM f b) :=
  NoOverflow.foldlM (P := fun _ => True) trivial (fun _ _ _ _ _ _ => trivial)
    fun b _ a _ => hf b a

theorem dropBelow_noOverflow (profiles : List Profile) (level : Int) (pairing : Pairing) :
    NoOverflow (pairing.dropBelow profiles level) := by
  refine foldlM_noOverflow fun pairing i => (NoOverflow.elementAt _ _).bind fun _ _ => ?_
  refine NoOverflow.ite (fun _ => NoOverflow.pure _) fun _ => ?_
  refine (NoOverflow.elementAt _ _).bind fun _ _ => ?_
  exact NoOverflow.ite (fun _ => separate_noOverflow _ _) fun _ => NoOverflow.pure _

theorem keepMostGlyphs_noOverflow (clusters : List Cluster) (pairing : Pairing) :
    NoOverflow (pairing.keepMostGlyphs clusters) := by
  have hsizes : NoOverflow (pairedSizes clusters pairing) :=
    NoOverflow.mapM fun _ _ => (NoOverflow.elementAt _ _).bind fun _ _ => NoOverflow.pure _
  refine hsizes.bind fun sizes _ => ?_
  cases sizes.max? with
  | none => exact NoOverflow.pure _
  | some most =>
    refine foldlM_noOverflow fun pairing i => (NoOverflow.elementAt _ _).bind fun partner? _ => ?_
    cases partner? with
    | none => exact NoOverflow.pure _
    | some j =>
      refine (NoOverflow.elementAt _ _).bind fun _ _ => ?_
      refine (NoOverflow.elementAt _ _).bind fun _ _ => ?_
      exact NoOverflow.ite (fun _ => separate_noOverflow _ _) fun _ => NoOverflow.pure _

theorem keepTall_noOverflow (profiles : List Profile) (pairing : Pairing) :
    NoOverflow (pairing.keepTall profiles) := by
  refine NoOverflow.bind (foldlM_noOverflow ?_) fun _ _ => NoOverflow.pure _
  rintro ⟨kept?, pairing⟩ i
  refine (NoOverflow.elementAt _ _).bind fun partner? _ => ?_
  cases partner? with
  | none => exact NoOverflow.pure _
  | some j =>
    refine (NoOverflow.elementAt _ _).bind fun _ _ => ?_
    refine (NoOverflow.elementAt _ _).bind fun _ _ => ?_
    refine NoOverflow.ite (fun _ => ?_) fun _ => NoOverflow.pure _
    exact (separate_noOverflow _ _).bind fun _ _ => NoOverflow.pure _

theorem refine_noOverflow {frame : Frame} (hframe : frame.IsSafe) (preference : Preference)
    (clusters : List Cluster) (profiles : List Profile) (pairing : Pairing) :
    NoOverflow (pairing.refine preference clusters profiles frame) := by
  cases preference with
  | mostGlyphs =>
    have := hframe.height
    have hlevel : NoOverflow (clockLevel frame) :=
      (Coordinate.mul_noOverflow (by omega) (by omega)).bind fun _ _ => NoOverflow.pure _
    refine hlevel.bind fun level _ => ?_
    exact (dropBelow_noOverflow profiles level pairing).bind fun _ _ =>
      keepMostGlyphs_noOverflow clusters _
  | tallest => exact keepTall_noOverflow profiles pairing

theorem keepPaired_noOverflow (clusters : List Cluster) (pairing : Pairing) :
    NoOverflow (keepPaired clusters pairing) := by
  unfold keepPaired
  rw [← List.foldlM_reverse]
  refine foldlM_noOverflow fun clusters i => (NoOverflow.elementAt _ _).bind fun _ _ => ?_
  refine NoOverflow.ite (fun _ => NoOverflow.pure _) fun _ => ?_
  refine NoOverflow.bind ?_ fun _ _ => NoOverflow.pure _
  exact (NoOverflow.elementAt _ _).bind fun _ _ => NoOverflow.pure _

end Pairing

namespace Cluster

variable {clusters : List Cluster} {frame : Frame}

theorem profiles_noOverflow (h : ∀ cluster ∈ clusters, Glyph.AreSafe cluster)
    (hframe : frame.IsSafe) : NoOverflow (profiles clusters frame) := by
  refine (NoOverflow.mapM fun entry hentry => ?_).bind fun _ _ => NoOverflow.pure _
  exact Profile.ofCluster?_noOverflow _ (h _ (List.fst_mem_of_mem_zipIdx hentry)) hframe

theorem isSafe_of_profiles {profiles : List Profile}
    (h : ∀ cluster ∈ clusters, Glyph.AreSafe cluster) (hframe : frame.IsSafe)
    (hprofiles : Cluster.profiles clusters frame = .ok profiles) : ∀ p ∈ profiles, p.IsSafe := by
  obtain ⟨profiles?, hall, hprofiles⟩ := bind_eq_ok_iff.1 hprofiles
  cases hprofiles
  intro p hp
  obtain ⟨p?, hp?, hsome⟩ := List.mem_filterMap.1 hp
  obtain rfl : p? = some p := hsome
  obtain ⟨entry, hentry, hp⟩ := (mem_of_mapM_eq_ok hall).1 hp?
  exact Profile.isSafe_of_ofCluster? (h _ (List.fst_mem_of_mem_zipIdx hentry)) hframe hp

theorem selectSymmetric_noOverflow (h : ∀ cluster ∈ clusters, Glyph.AreSafe cluster)
    (hframe : frame.IsSafe) (preference : Preference) (threshold : Binary.Scalar) :
    NoOverflow (selectSymmetric clusters frame preference threshold) := by
  have hsome : ∀ cluster ∈ clusters.filter (· ≠ []), Glyph.AreSafe cluster :=
    fun cluster hcluster => h cluster (List.mem_filter.1 hcluster).1
  refine (profiles_noOverflow hsome hframe).bind fun profiles hprofiles => ?_
  refine (Pairing.ofProfiles_noOverflow threshold
    (isSafe_of_profiles hsome hframe hprofiles)).bind fun pairing _ => ?_
  refine (Pairing.refine_noOverflow hframe preference _ profiles pairing).bind fun _ _ => ?_
  exact Pairing.keepPaired_noOverflow _ _

end Cluster

end ScoreOverlay
