import ScoreOverlay.Cluster.Uniformity
import ScoreOverlay.Proofs.Cluster.Reachability
import ScoreOverlay.Proofs.Glyph.Safety

namespace ScoreOverlay

theorem Glyph.neighbours_noOverflow {member candidate : Glyph}
    (hmember : member.rect.IsWithin Rect.safeArea)
    (hcandidate : candidate.rect.IsWithin Rect.safeArea) :
    NoOverflow (member.neighbours candidate) := by
  have := Rect.isWithin_safeArea_iff.1 hmember
  have := Rect.isWithin_safeArea_iff.1 hcandidate
  unfold neighbours
  simp only [Rect.right_eq_ok hmember, Rect.right_eq_ok hcandidate, Rect.bottom_eq_ok hmember,
    Rect.bottom_eq_ok hcandidate, ok_bind]
  refine NoOverflow.ite (fun _ => ?_) fun _ => NoOverflow.pure _
  refine (Coordinate.sub_noOverflow (by omega) (by omega)).bind fun difference hdifference => ?_
  have := Coordinate.eq_of_sub_eq_ok hdifference
  exact (Coordinate.abs_noOverflow (by omega) (by omega)).bind fun _ _ => NoOverflow.pure _

namespace Cluster

theorem grow_noOverflow {searched frontier remaining : List Glyph}
    (hfrontier : ∀ g ∈ frontier, g.rect.IsWithin Rect.safeArea)
    (hremaining : ∀ g ∈ remaining, g.rect.IsWithin Rect.safeArea) :
    NoOverflow (grow searched frontier remaining) := by
  induction hcount : remaining.length using Nat.strong_induction_on
    generalizing searched frontier remaining with
  | _ count ih =>
    have hsplit : NoOverflow (split (fun g => frontier.anyM (·.neighbours g)) remaining) :=
      NoOverflow.split fun g hg => NoOverflow.anyM fun member hmember =>
        Glyph.neighbours_noOverflow (hfrontier member hmember) (hremaining g hg)
    rw [grow_eq]
    refine hsplit.bind fun parts hparts => ?_
    refine NoOverflow.ite (fun _ => NoOverflow.pure _) fun hadmitted => ?_
    have hdivision := split_isDivision hparts
    have hlength := split_length hparts
    have hpos := List.length_pos_iff.2 hadmitted
    refine ih parts.2.length (by omega) (fun g hg => ?_) (fun g hg => ?_) rfl
    · exact hremaining g (hdivision.passed_sublist.subset (List.mem_reverse.1 hg))
    · exact hremaining g (hdivision.failed_sublist.subset hg)

/-- What growing leaves over was there before. -/
theorem sublist_of_grow {searched frontier remaining rest : List Glyph} {cluster : Cluster}
    (h : grow searched frontier remaining = .ok (cluster, rest)) : rest.Sublist remaining := by
  induction hcount : remaining.length using Nat.strong_induction_on
    generalizing searched frontier remaining with
  | _ count ih =>
    rw [grow_eq] at h
    obtain ⟨⟨admitted, left⟩, hparts, h⟩ := bind_eq_ok_iff.1 h
    dsimp only at h
    split at h
    · cases h
      exact List.Sublist.refl _
    · rename_i hadmitted
      have hlength := split_length hparts
      have hpos := List.length_pos_iff.2 hadmitted
      exact (ih left.length (by omega) h rfl).trans (split_isDivision hparts).failed_sublist

theorem collect_noOverflow {remaining : List Glyph}
    (h : ∀ g ∈ remaining, g.rect.IsWithin Rect.safeArea) : NoOverflow (collect remaining) := by
  induction hcount : remaining.length using Nat.strong_induction_on generalizing remaining with
  | _ count ih =>
    rcases List.eq_nil_or_concat' remaining with rfl | ⟨rest, seed, rfl⟩
    · rw [collect]
      exact NoOverflow.pure _
    · have hrest : ∀ g ∈ rest, g.rect.IsWithin Rect.safeArea :=
        fun g hg => h g (List.mem_append_left _ hg)
      have hseed : ∀ g ∈ [seed], g.rect.IsWithin Rect.safeArea :=
        fun g hg => h g (List.mem_append_right _ hg)
      rw [collect_concat]
      refine (grow_noOverflow hseed hrest).bind fun parts hparts => ?_
      have hlength := grow_length hparts
      simp only [List.length_append, List.length_singleton] at hcount
      refine NoOverflow.bind ?_ fun _ _ => NoOverflow.pure _
      exact ih parts.2.length (by omega)
        (fun g hg => hrest g ((sublist_of_grow hparts).subset hg)) rfl

theorem group_noOverflow {glyphs : List Glyph} (h : Glyph.AreSafe glyphs) :
    NoOverflow (Glyph.group glyphs) :=
  collect_noOverflow fun g hg => h.within g (List.mem_filter.1 hg).1

/-- Each cluster has some of the glyphs. -/
theorem areSafe_of_group {glyphs : List Glyph} {clusters : List Cluster}
    (h : Glyph.AreSafe glyphs) (hgroup : Glyph.group glyphs = .ok clusters) :
    ∀ cluster ∈ clusters, Glyph.AreSafe cluster := by
  intro cluster hcluster
  have hall := (subperm_of_group hgroup cluster hcluster).trans List.filter_sublist.subperm
  exact ⟨hall.length_le.trans h.count, fun g hg => h.within g (hall.subset hg)⟩

section Uniformity

variable {l : List Int} {bound : Nat}

theorem mean?_noOverflow (h : ∀ n ∈ l, n.natAbs ≤ bound)
    (hlength : l.length * bound ≤ 2147483647) : NoOverflow (mean? l) :=
  NoOverflow.ite (fun _ => NoOverflow.pure _) fun _ =>
    (Coordinate.sum_noOverflow h hlength).bind fun _ _ => NoOverflow.pure _

theorem natAbs_le_of_mean? {mean : Int} (h : ∀ n ∈ l, n.natAbs ≤ bound)
    (hmean : mean? l = .ok (some mean)) : mean.natAbs ≤ bound := by
  unfold mean? at hmean
  split at hmean
  · cases hmean
  · obtain ⟨sum, hsum, hmean⟩ := bind_eq_ok_iff.1 hmean
    cases hmean
    exact Coordinate.natAbs_mean_le h hsum

theorem allNear_noOverflow {middle slack : Int} (hmiddle : middle.natAbs ≤ 131073)
    (hslack : slack.natAbs ≤ 131073) (values : List Int) :
    NoOverflow (allNear middle slack values) := by
  refine (Coordinate.sub_noOverflow (by omega) (by omega)).bind fun _ _ => ?_
  exact (Coordinate.add_noOverflow (by omega) (by omega)).bind fun _ _ => NoOverflow.pure _

end Uniformity

theorem natAbs_height_le {cluster : Cluster} (h : Glyph.AreSafe cluster) :
    ∀ n ∈ cluster.map Glyph.height, n.natAbs ≤ 131073 := by
  intro n hn
  obtain ⟨g, hg, rfl⟩ := List.mem_map.1 hn
  have := Rect.isWithin_safeArea_iff.1 (h.within g hg)
  unfold Glyph.height
  omega

theorem mean?_height_noOverflow {cluster : Cluster} (h : Glyph.AreSafe cluster) :
    NoOverflow (mean? (cluster.map Glyph.height)) := by
  have hcount := h.count
  exact mean?_noOverflow (natAbs_height_le h) (by rw [List.length_map]; omega)

theorem hasOneHeight_noOverflow {cluster : Cluster} (h : Glyph.AreSafe cluster) :
    NoOverflow cluster.hasOneHeight := by
  refine (mean?_height_noOverflow h).bind fun height? hheight => ?_
  cases height? with
  | none => exact NoOverflow.pure _
  | some height =>
    have hbound := natAbs_le_of_mean? (natAbs_height_le h) hheight
    refine allNear_noOverflow hbound ?_ _
    rw [Int.natAbs_tdiv]
    exact (Nat.div_le_self _ _).trans hbound

theorem hasOneBaseline_noOverflow {cluster : Cluster} (h : Glyph.AreSafe cluster) :
    NoOverflow cluster.hasOneBaseline := by
  have hcount := h.count
  refine (mean?_height_noOverflow h).bind fun height? hheight => ?_
  cases height? with
  | none => exact NoOverflow.pure _
  | some height =>
    refine (NoOverflow.mapM fun g hg =>
      NoOverflow.of_ok (Rect.bottom_eq_ok (h.within g hg))).bind fun bottoms hbottoms => ?_
    have hlevels : ∀ n ∈ bottoms, n.natAbs ≤ 65537 := by
      intro n hn
      obtain ⟨g, hg, hn⟩ := (mem_of_mapM_eq_ok hbottoms).1 hn
      have := Coordinate.eq_of_add_eq_ok hn
      have := Rect.isWithin_safeArea_iff.1 (h.within g hg)
      omega
    have hlength := length_of_mapM_eq_ok hbottoms
    refine (mean?_noOverflow hlevels (by omega)).bind fun level? hlevel => ?_
    cases level? with
    | none => exact NoOverflow.pure _
    | some level =>
      have hlevel := natAbs_le_of_mean? hlevels hlevel
      refine allNear_noOverflow (by omega) ?_ _
      rw [Int.natAbs_tdiv]
      exact (Nat.div_le_self _ _).trans (natAbs_le_of_mean? (natAbs_height_le h) hheight)

theorem isUniform_noOverflow {cluster : Cluster} (h : Glyph.AreSafe cluster) :
    NoOverflow cluster.isUniform := by
  refine (hasOneHeight_noOverflow h).bind fun holds _ => ?_
  cases holds with
  | true => exact NoOverflow.pure _
  | false => exact hasOneBaseline_noOverflow h

end Cluster

end ScoreOverlay
