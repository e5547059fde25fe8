import ScoreOverlay.Cluster.Uniformity
import ScoreOverlay.Proofs.Cluster.Ladder
import ScoreOverlay.Proofs.Cluster.Reachability
import ScoreOverlay.Proofs.Glyph.Shift

namespace ScoreOverlay.Cluster

variable (dx dy : Int)

/-- The cluster at the moved place. -/
abbrev shifted (cluster : Cluster) : Cluster := cluster.map (Glyph.shifted dx dy)

/-- Passes over glyphs that are moved together admit the same ones in the same order. -/
theorem grow_lockstep (searched frontier remaining : List Glyph) :
    Lockstep (Prod.map (shifted dx dy) (shifted dx dy)) (grow searched frontier remaining)
      (grow (shifted dx dy searched) (shifted dx dy frontier) (shifted dx dy remaining)) := by
  induction hcount : remaining.length using Nat.strong_induction_on
    generalizing searched frontier remaining with
  | _ count ih =>
    have hsplit : Lockstep (Prod.map (shifted dx dy) (shifted dx dy))
        (split (fun g => frontier.anyM (·.neighbours g)) remaining)
        (split (fun g => (shifted dx dy frontier).anyM (·.neighbours g))
          (shifted dx dy remaining)) :=
      Lockstep.split fun g _ => Lockstep.anyM fun member _ =>
        Glyph.neighbours_lockstep dx dy member g
    rw [grow_eq, grow_eq, ← List.map_append]
    refine hsplit.bind fun parts hparts => ?_
    refine Lockstep.ite List.map_eq_nil_iff (fun _ => Lockstep.pure rfl) fun hadmitted => ?_
    have hlength := split_length hparts
    have hpos := List.length_pos_iff.2 hadmitted
    rw [← List.map_reverse]
    exact ih parts.2.length (by omega) _ _ _ rfl

theorem collect_lockstep (remaining : List Glyph) :
    Lockstep (List.map (shifted dx dy)) (collect remaining)
      (collect (shifted dx dy remaining)) := by
  induction hcount : remaining.length using Nat.strong_induction_on generalizing remaining with
  | _ count ih =>
    rcases List.eq_nil_or_concat' remaining with rfl | ⟨rest, seed, rfl⟩
    · rw [shifted, List.map_nil, collect]
      exact Lockstep.pure rfl
    · rw [shifted, List.map_append, List.map_singleton, collect_concat, collect_concat]
      refine (grow_lockstep dx dy [] [seed] rest).bind fun parts hparts => ?_
      have hlength := grow_length hparts
      simp only [List.length_append, List.length_singleton] at hcount
      exact (ih parts.2.length (by omega) parts.2 rfl).bind fun _ _ => Lockstep.pure rfl

/-- Moving glyphs moves their clusters. -/
theorem group_lockstep (glyphs : List Glyph) :
    Lockstep (List.map (shifted dx dy)) (Glyph.group glyphs)
      (Glyph.group (glyphs.map (Glyph.shifted dx dy))) := by
  unfold Glyph.group
  rw [List.filter_map]
  exact collect_lockstep dx dy _

/-- Every glyph has rows, and none of these is negative before or after moving down by `dy`. -/
def StaysBelowTop (glyphs : List Glyph) : Prop :=
  ∀ g ∈ glyphs, 0 < g.height ∧ 0 ≤ g.rect.y ∧ 0 ≤ g.rect.y + dy

theorem bottoms_lockstep (cluster : Cluster) :
    Lockstep (List.map (· + dy)) cluster.bottoms (shifted dx dy cluster).bottoms :=
  Lockstep.mapM fun g _ => Rect.bottom_lockstep dx dy g.rect

theorem mean?_lockstep {l : List Int} {offset : Int} (h : ∀ n ∈ l, 0 ≤ n ∧ 0 ≤ n + offset) :
    Lockstep (Option.map (· + offset)) (mean? l) (mean? (l.map (· + offset))) := by
  refine Lockstep.ite List.map_eq_nil_iff (fun _ => Lockstep.pure rfl) fun hne => ?_
  intro mean mean' hmean hmean'
  obtain ⟨sum, hsum, hmean⟩ := bind_eq_ok_iff.1 hmean
  obtain ⟨sum', hsum', hmean'⟩ := bind_eq_ok_iff.1 hmean'
  cases hmean
  cases hmean'
  rw [Coordinate.eq_of_sum_eq_ok hsum, Coordinate.eq_of_sum_eq_ok hsum', Coordinate.sum_map_add,
    List.length_map, Coordinate.mean_add hne h]
  rfl

theorem allNear_lockstep (middle slack offset : Int) (values : List Int) :
    Lockstep id (allNear middle slack values)
      (allNear (middle + offset) slack (values.map (· + offset))) := by
  refine (Coordinate.sub_lockstep middle slack offset).bind fun low _ => ?_
  refine (Coordinate.add_lockstep middle slack offset).bind fun high _ => Lockstep.pure ?_
  simp only [List.all_map, id_eq]
  congr 1
  funext n
  simp

theorem map_height_shifted (cluster : Cluster) :
    (shifted dx dy cluster).map Glyph.height = cluster.map Glyph.height :=
  List.map_map

theorem isUniform_lockstep {cluster : Cluster} (h : StaysBelowTop dy cluster) :
    Lockstep id cluster.isUniform (shifted dx dy cluster).isUniform := by
  have hheight : (shifted dx dy cluster).hasOneHeight = cluster.hasOneHeight := by
    unfold hasOneHeight
    rw [map_height_shifted]
  have hbaseline : Lockstep id cluster.hasOneBaseline (shifted dx dy cluster).hasOneBaseline := by
    unfold hasOneBaseline
    rw [map_height_shifted]
    refine Lockstep.rfl.bind fun height? _ => ?_
    cases height? with
    | none => exact Lockstep.rfl
    | some height =>
      refine (bottoms_lockstep dx dy cluster).bind fun bottoms hbottoms => ?_
      have hnonneg : ∀ n ∈ bottoms, 0 ≤ n ∧ 0 ≤ n + dy := by
        intro n hn
        obtain ⟨g, hg, hn⟩ := (mem_of_mapM_eq_ok hbottoms).1 hn
        have hn := Coordinate.eq_of_add_eq_ok hn
        have hg := h g hg
        unfold Glyph.height at hg
        omega
      refine (mean?_lockstep hnonneg).bind fun level? _ => ?_
      cases level? with
      | none => exact Lockstep.rfl
      | some level => exact allNear_lockstep level _ dy bottoms
  unfold isUniform
  rw [hheight]
  refine Lockstep.rfl.bind fun holds _ => ?_
  cases holds with
  | true => exact Lockstep.rfl
  | false => exact hbaseline

theorem noneAbove_shifted (level : Int) (clusters : List Cluster) :
    NoneAbove (level + dy) (clusters.map (shifted dx dy)) ↔ NoneAbove level clusters := by
  unfold NoneAbove
  simp [shifted, Glyph.shifted, Rect.shifted]

theorem rungs_shifted (clusters : List Cluster) :
    rungs (clusters.map (shifted dx dy)) = (rungs clusters).map (shifted dx dy) := by
  induction clusters with
  | nil => rfl
  | cons cluster rest ih =>
    cases cluster with
    | nil => exact ih
    | cons first others =>
      rw [List.map_cons, shifted, List.map_cons, rungs_cons, rungs_cons,
        apply_ite (List.map (shifted dx dy))]
      exact if_congr (noneAbove_shifted dx dy _ rest) (congrArg _ ih) ih

/-- Moving clusters together does not change which of them a ladder keeps. -/
theorem selectLadder_lockstep (clusters : List Cluster) :
    Lockstep (List.map (shifted dx dy)) (selectLadder clusters)
      (selectLadder (clusters.map (shifted dx dy))) := by
  rw [selectLadder_eq_ok, selectLadder_eq_ok]
  exact Lockstep.pure (rungs_shifted dx dy clusters)

end ScoreOverlay.Cluster
