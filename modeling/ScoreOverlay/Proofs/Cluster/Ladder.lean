import Mathlib.Data.List.Induction
import ScoreOverlay.Cluster.Ladder
import ScoreOverlay.Proofs.Checked.Bounds

namespace ScoreOverlay.Cluster

/-- No cluster of the list starts above the given level. -/
def NoneAbove (level : Int) (clusters : List Cluster) : Prop :=
  ∀ cluster ∈ clusters, ∀ first ∈ cluster.head?, level ≤ first.rect.y

instance (level : Int) (clusters : List Cluster) : Decidable (NoneAbove level clusters) :=
  inferInstanceAs (Decidable (∀ cluster ∈ clusters, ∀ first ∈ cluster.head?, level ≤ first.rect.y))

theorem noneAbove_cons {level : Int} {cluster : Cluster} {clusters : List Cluster} :
    NoneAbove level (cluster :: clusters) ↔
      (∀ first ∈ cluster.head?, level ≤ first.rect.y) ∧ NoneAbove level clusters :=
  List.forall_mem_cons

/-- The number is the top of the highest of the clusters. -/
def IsTop (top : Int) (clusters : List Cluster) : Prop :=
  ∀ level, NoneAbove level clusters ↔ level ≤ top

theorem isTop_singleton (first : Glyph) (others : Cluster) :
    IsTop first.rect.y [first :: others] := by
  simp [IsTop, NoneAbove]

theorem IsTop.cons {top : Int} {clusters : List Cluster} (h : IsTop top clusters) (first : Glyph)
    (others : Cluster) : IsTop (min first.rect.y top) ((first :: others) :: clusters) := by
  intro level
  rw [noneAbove_cons, h]
  simp only [List.head?_cons, Option.mem_def, Option.some.injEq, forall_eq']
  omega

/-- The clusters with glyphs that no cluster behind them starts above. -/
def rungs : List Cluster → List Cluster
  | [] => []
  | [] :: rest => rungs rest
  | (first :: others) :: rest =>
    if NoneAbove first.rect.y rest then (first :: others) :: rungs rest else rungs rest

theorem rungs_cons (first : Glyph) (others : Cluster) (rest : List Cluster) :
    rungs ((first :: others) :: rest) =
      if NoneAbove first.rect.y rest then (first :: others) :: rungs rest else rungs rest := by
  rw [rungs]

theorem noneAbove_filter (level : Int) (clusters : List Cluster) :
    NoneAbove level (clusters.filter (· ≠ [])) ↔ NoneAbove level clusters := by
  unfold NoneAbove
  simp only [List.mem_filter, decide_eq_true_eq, and_imp]
  refine forall₂_congr fun cluster _ => ⟨fun h first hfirst => ?_, fun h _ => h⟩
  exact h (by rintro rfl; cases hfirst) first hfirst

/-- Empty clusters make no difference. -/
theorem rungs_filter (clusters : List Cluster) :
    rungs (clusters.filter (· ≠ [])) = rungs clusters := by
  induction clusters with
  | nil => rfl
  | cons cluster rest ih =>
    cases cluster with
    | nil => exact ih
    | cons first others =>
      rw [List.filter_cons_of_pos (by simp), rungs_cons, rungs_cons, ih]
      exact if_congr (noneAbove_filter _ _) rfl rfl

section Walk

variable {before : List Cluster}

/-- A turn looks at the cluster at its position only, and leaves the others as they are. -/
theorem ladderAt_append (reference : Int) (before : List Cluster) (first : Glyph)
    (others : Cluster) (behind : List Cluster) :
    ladderAt before.length (reference, before ++ (first :: others) :: behind) =
      .ok (if reference < first.rect.y then (reference, before ++ behind)
        else (first.rect.y, before ++ (first :: others) :: behind)) := by
  have hinside : before.length < (before ++ (first :: others) :: behind).length := by simp
  have hcluster : elementAt (before ++ (first :: others) :: behind) before.length =
      .ok (first :: others) := by
    simp [elementAt]
  have hfirst : elementAt (first :: others) 0 = .ok first := rfl
  have hrest : (before ++ (first :: others) :: behind).eraseIdx before.length =
      before ++ behind := by
    simp [List.eraseIdx_append_of_length_le]
  unfold ladderAt
  simp only [hcluster, hfirst, removeAt_of_lt hinside, hrest, ok_bind]
  split <;> rfl

/-- The walk works from the back. What it has visited is a list of rungs and the carried number
    their top, so comparing with the cluster kept before is as good as comparing with all those
    visited. -/
theorem foldrM_ladderAt (hne : ∀ cluster ∈ before, cluster ≠ []) {top : Int}
    {visited : List Cluster} (htop : IsTop top visited) :
    ∃ highest, (List.range before.length).foldrM ladderAt (top, before ++ rungs visited) =
      .ok (highest, rungs (before ++ visited)) := by
  induction before using List.reverseRecOn generalizing top visited with
  | nil => exact ⟨top, rfl⟩
  | append_singleton before cluster ih =>
    obtain ⟨hbefore, hcluster⟩ := List.forall_mem_append.1 hne
    obtain ⟨first, others, rfl⟩ :=
      List.exists_cons_of_ne_nil (hcluster cluster List.mem_cons_self)
    have hturn : ladderAt before.length (top, before ++ (first :: others) :: rungs visited) =
        .ok (min first.rect.y top, before ++ rungs ((first :: others) :: visited)) := by
      rw [ladderAt_append, rungs_cons]
      by_cases hbelow : top < first.rect.y
      · rw [if_pos hbelow, if_neg (by rw [htop]; omega), min_eq_right (by omega)]
      · rw [if_neg hbelow, if_pos (by rw [htop]; omega), min_eq_left (by omega)]
    obtain ⟨highest, hwalk⟩ := ih hbefore (htop.cons first others)
    refine ⟨highest, ?_⟩
    rw [List.length_append, List.length_singleton, List.range_succ, List.foldrM_append,
      List.append_assoc, List.append_assoc, List.singleton_append, List.singleton_append]
    simp only [List.foldrM_cons, List.foldrM_nil, pure_eq_ok, ok_bind]
    rw [hturn, ok_bind, hwalk]

end Walk

/-- The walk up a ladder never points outside the list, and what it keeps are the rungs. -/
theorem selectLadder_eq_ok (clusters : List Cluster) :
    selectLadder clusters = .ok (rungs clusters) := by
  rw [← rungs_filter]
  have hne : ∀ cluster ∈ clusters.filter (· ≠ []), cluster ≠ [] :=
    fun cluster hcluster => by simpa using List.of_mem_filter hcluster
  unfold selectLadder
  generalize clusters.filter (· ≠ []) = filled at hne ⊢
  rcases List.eq_nil_or_concat' filled with rfl | ⟨before, last, rfl⟩
  · rfl
  · obtain ⟨hbefore, hlast⟩ := List.forall_mem_append.1 hne
    obtain ⟨first, others, rfl⟩ := List.exists_cons_of_ne_nil (hlast last List.mem_cons_self)
    have hsingle : rungs [first :: others] = [first :: others] := rfl
    obtain ⟨highest, hwalk⟩ := foldrM_ladderAt hbefore (isTop_singleton first others)
    rw [hsingle] at hwalk
    simp [stepBack, elementAt, hwalk]

theorem rungs_sublist (clusters : List Cluster) :
    (rungs clusters).Sublist clusters := by
  induction clusters with
  | nil => exact List.Sublist.refl _
  | cons cluster rest ih =>
    cases cluster with
    | nil => exact ih.cons []
    | cons first others =>
      rw [rungs_cons]
      split
      · exact ih.cons_cons _
      · exact ih.cons _

/-- Nothing is left out if each cluster starts at least as high as those behind it. -/
theorem rungs_eq_self {clusters : List Cluster} (hne : ∀ cluster ∈ clusters, cluster ≠ [])
    (h : clusters.Pairwise fun cluster next =>
      ∀ g ∈ cluster.head?, ∀ g' ∈ next.head?, g.rect.y ≤ g'.rect.y) :
    rungs clusters = clusters := by
  induction clusters with
  | nil => rfl
  | cons cluster rest ih =>
    obtain ⟨hfirst, hrest⟩ := List.pairwise_cons.1 h
    obtain ⟨hcluster, hnonempty⟩ := List.forall_mem_cons.1 hne
    obtain ⟨first, others, rfl⟩ := List.exists_cons_of_ne_nil hcluster
    have hnone : NoneAbove first.rect.y rest := fun next hnext => hfirst next hnext first rfl
    rw [rungs_cons, if_pos hnone, ih hnonempty hrest]

/-- Only the last cluster is left if it starts above all the others. -/
theorem rungs_eq_last {clusters : List Cluster} {first : Glyph} {others : Cluster}
    (h : ∀ cluster ∈ clusters, ∀ g ∈ cluster.head?, first.rect.y < g.rect.y) :
    rungs (clusters ++ [first :: others]) = [first :: others] := by
  induction clusters with
  | nil => rfl
  | cons cluster rest ih =>
    obtain ⟨hcluster, hrest⟩ := List.forall_mem_cons.1 h
    rw [List.cons_append]
    cases cluster with
    | nil => exact ih hrest
    | cons g members =>
      have habove : ¬ NoneAbove g.rect.y (rest ++ [first :: others]) := by
        intro hnone
        have hle := hnone (first :: others) (by simp) first rfl
        have hlt := hcluster g rfl
        omega
      rw [rungs_cons, if_neg habove, ih hrest]

/-- The cluster at the position has glyphs, and no cluster behind it starts above it. -/
def IsRung (clusters : List Cluster) (i : Nat) : Prop :=
  ∃ first others, clusters[i]? = some (first :: others) ∧
    NoneAbove first.rect.y (clusters.drop (i + 1))

@[simp] theorem isRung_cons_succ (cluster : Cluster) (rest : List Cluster) (i : Nat) :
    IsRung (cluster :: rest) (i + 1) ↔ IsRung rest i := by
  simp [IsRung]

theorem isRung_cons_zero (cluster : Cluster) (rest : List Cluster) :
    IsRung (cluster :: rest) 0 ↔
      ∃ first others, cluster = first :: others ∧ NoneAbove first.rect.y rest := by
  simp [IsRung]

theorem rungs_cons_of_isRung {cluster : Cluster} {rest : List Cluster}
    (h : IsRung (cluster :: rest) 0) :
    rungs (cluster :: rest) = cluster :: rungs rest := by
  obtain ⟨first, others, rfl, hnone⟩ := (isRung_cons_zero _ _).1 h
  rw [rungs_cons, if_pos hnone]

theorem rungs_cons_of_not_isRung {cluster : Cluster} {rest : List Cluster}
    (h : ¬ IsRung (cluster :: rest) 0) : rungs (cluster :: rest) = rungs rest := by
  cases cluster with
  | nil => rw [rungs]
  | cons first others =>
    rw [rungs_cons, if_neg]
    intro hnone
    exact h ((isRung_cons_zero _ _).2 ⟨first, others, rfl, hnone⟩)

/-- What is kept stands at the rungs, in the order of the list. -/
theorem exists_rungs (clusters : List Cluster) :
    ∃ survivors : List Nat, (rungs clusters).map some = survivors.map (clusters[·]?) ∧
      survivors.Pairwise (· < ·) ∧ ∀ i, i ∈ survivors ↔ IsRung clusters i := by
  induction clusters with
  | nil => exact ⟨[], rfl, List.Pairwise.nil, by simp [IsRung]⟩
  | cons cluster rest ih =>
    obtain ⟨survivors, hpositions, hascending, hrungs⟩ := ih
    have hmoved : (survivors.map (· + 1)).Pairwise (· < ·) :=
      List.pairwise_map.2 (hascending.imp fun h => by omega)
    by_cases hrung : IsRung (cluster :: rest) 0
    · refine ⟨0 :: survivors.map (· + 1), ?_, ?_, ?_⟩
      · simp [rungs_cons_of_isRung hrung, hpositions]
      · exact List.pairwise_cons.2 ⟨by simp, hmoved⟩
      · intro i
        cases i with
        | zero => simp [hrung]
        | succ i => simp [hrungs]
    · refine ⟨survivors.map (· + 1), ?_, hmoved, ?_⟩
      · simp [rungs_cons_of_not_isRung hrung, hpositions]
      · intro i
        cases i with
        | zero => simp [hrung]
        | succ i => simp [hrungs]

theorem ne_nil_of_mem_rungs {clusters : List Cluster} {cluster : Cluster}
    (h : cluster ∈ rungs clusters) : cluster ≠ [] := by
  obtain ⟨survivors, hpositions, -, hrungs⟩ := exists_rungs clusters
  have hsome : some cluster ∈ survivors.map (clusters[·]?) := by
    rw [← hpositions]
    exact List.mem_map_of_mem h
  obtain ⟨i, hi, hcluster⟩ := List.mem_map.1 hsome
  obtain ⟨first, others, hrung, -⟩ := (hrungs i).1 hi
  obtain rfl := Option.some.inj (hrung.symm.trans hcluster)
  exact List.cons_ne_nil first others

/-- The last cluster with glyphs has nothing behind it, so it is always kept. -/
theorem rungs_getLast? (clusters : List Cluster) :
    (rungs clusters).getLast? = (clusters.filter (· ≠ [])).getLast? := by
  induction clusters with
  | nil => rfl
  | cons cluster rest ih =>
    by_cases hrung : IsRung (cluster :: rest) 0
    · obtain ⟨first, others, rfl, -⟩ := (isRung_cons_zero _ _).1 hrung
      rw [rungs_cons_of_isRung hrung, List.filter_cons_of_pos (by simp), List.getLast?_cons,
        List.getLast?_cons, ih]
    · rw [rungs_cons_of_not_isRung hrung, ih]
      cases cluster with
      | nil => rfl
      | cons first others =>
        -- A cluster with glyphs is only left out if there is another one behind it.
        have hne : rest.filter (· ≠ []) ≠ [] := by
          intro hempty
          apply hrung
          refine (isRung_cons_zero _ _).2 ⟨first, others, rfl, fun next hnext g hg => ?_⟩
          have hnil : next = [] := by simpa using List.filter_eq_nil_iff.1 hempty next hnext
          simp [hnil] at hg
        obtain ⟨last, hlast⟩ := Option.isSome_iff_exists.1 (List.getLast?_isSome.2 hne)
        rw [List.filter_cons_of_pos (by simp), List.getLast?_cons, hlast, Option.getD_some]

/-- Each cluster that is kept starts at least as high as those kept behind it. -/
theorem rungs_descend (clusters : List Cluster) :
    (rungs clusters).Pairwise fun cluster next =>
      ∀ g ∈ cluster.head?, ∀ g' ∈ next.head?, g.rect.y ≤ g'.rect.y := by
  induction clusters with
  | nil => exact List.Pairwise.nil
  | cons cluster rest ih =>
    by_cases hrung : IsRung (cluster :: rest) 0
    · obtain ⟨first, others, rfl, hnone⟩ := (isRung_cons_zero _ _).1 hrung
      rw [rungs_cons_of_isRung hrung]
      refine List.pairwise_cons.2 ⟨fun next hnext g hg => ?_, ih⟩
      obtain rfl := Option.some.inj hg
      exact hnone next ((rungs_sublist rest).subset hnext)
    · rwa [rungs_cons_of_not_isRung hrung]

/-- Looking only at the cluster kept before is exact: what is kept are the clusters with glyphs that
    no cluster with glyphs behind them starts above, whether that one is kept or not. So the last
    one is kept, tops descend from the first to the last, and there is nothing left to take out. -/
theorem selectLadder_keepsRungs (clusters : List Cluster) :
    ∃ kept, selectLadder clusters = .ok kept ∧
      (∃ survivors : List Nat, kept.map some = survivors.map (clusters[·]?) ∧
        survivors.Pairwise (· < ·) ∧ ∀ i, i ∈ survivors ↔ IsRung clusters i) ∧
      kept.getLast? = (clusters.filter (· ≠ [])).getLast? ∧
      (kept.Pairwise fun cluster next =>
        ∀ g ∈ cluster.head?, ∀ g' ∈ next.head?, g.rect.y ≤ g'.rect.y) ∧
      selectLadder kept = .ok kept := by
  have hagain : rungs (rungs clusters) = rungs clusters :=
    rungs_eq_self (fun _ => ne_nil_of_mem_rungs) (rungs_descend clusters)
  refine ⟨rungs clusters, selectLadder_eq_ok clusters, exists_rungs clusters,
    rungs_getLast? clusters, rungs_descend clusters, ?_⟩
  rw [selectLadder_eq_ok, hagain]

end ScoreOverlay.Cluster
