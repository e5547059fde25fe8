import Mathlib.Data.List.Permutation
import Mathlib.Data.List.Forall2
import ScoreOverlay.Proofs.Cluster.Classes
import ScoreOverlay.Proofs.Glyph.Neighbours

namespace ScoreOverlay.Cluster

/-- Grouping both lists succeeds and gives the same clusters, up to the order of the clusters and
    that of the glyphs in each of them. -/
def SameGroups (glyphs order : List Glyph) : Prop :=
  ∃ clusters clusters', Glyph.group glyphs = .ok clusters ∧ Glyph.group order = .ok clusters' ∧
    memberSets clusters = memberSets clusters'

variable {glyphs : List Glyph}

theorem memberSets_map {α β : Type} (f : α → β) (groups : List (List α)) :
    memberSets (groups.map (·.map f)) = (memberSets groups).map (Multiset.map f) := by
  unfold memberSets
  simp [List.map_map, Function.comp_def]

/-- A reordered list shows the same positions in another order. -/
theorem exists_positions_of_perm {order : List Glyph} (h : order.Perm glyphs) :
    ∃ positions : List (Fin glyphs.length),
      positions.Perm (List.finRange glyphs.length) ∧ order = positions.map glyphs.get := by
  have hget : List.Forall₂ (fun g i => g = glyphs.get i) glyphs (List.finRange glyphs.length) := by
    conv => arg 2; rw [← List.map_get_finRange glyphs]
    exact List.forall₂_map_left_iff.2 (List.forall₂_same.2 fun _ _ => rfl)
  obtain ⟨positions, horder, hpositions⟩ := List.perm_comp_forall₂ h hget
  refine ⟨positions, hpositions, ?_⟩
  rw [← List.forall₂_eq_eq_eq, List.forall₂_map_right_iff]
  exact horder

theorem group_map_get (positions : List (Fin glyphs.length)) :
    Glyph.group (positions.map glyphs.get) =
      collect ((positions.filter fun i => ¬ (glyphs.get i).rect.IsEmpty).map glyphs.get) := by
  unfold Glyph.group
  rw [List.filter_map]
  rfl

theorem candidates_nodup (glyphs : List Glyph) : (candidates glyphs).Nodup :=
  (List.nodup_finRange _).filter _

theorem candidates_perm {positions : List (Fin glyphs.length)}
    (h : positions.Perm (List.finRange glyphs.length)) :
    (positions.filter fun i => ¬ (glyphs.get i).rect.IsEmpty).Perm (candidates glyphs) :=
  h.filter _

/-- If chains can be walked back, the order of the glyphs has no influence on which are together. -/
theorem sameGroups_of_mutual {order : List Glyph} (hmutual : Mutual glyphs (candidates glyphs))
    (hperm : order.Perm glyphs) (hfits : NoOverflow (Glyph.group glyphs))
    (hfits' : NoOverflow (Glyph.group order)) : SameGroups glyphs order := by
  obtain ⟨positions, hpositions, rfl⟩ := exists_positions_of_perm hperm
  obtain ⟨clusters, hclusters⟩ := (group_inBounds glyphs).exists_ok hfits
  obtain ⟨clusters', hclusters'⟩ := (group_inBounds _).exists_ok hfits'
  have hpool := candidates_perm hpositions
  have hnodup := candidates_nodup glyphs
  rw [group_eq_collect] at hclusters
  rw [group_map_get] at hclusters'
  obtain ⟨groups, rfl, hclasses⟩ := collect_isClasses hnodup hmutual hclusters
  obtain ⟨groups', rfl, hclasses'⟩ :=
    collect_isClasses (hpool.nodup_iff.2 hnodup) (hmutual.perm hpool) hclusters'
  refine ⟨_, _, (group_eq_collect glyphs).trans hclusters,
    (group_map_get positions).trans hclusters', ?_⟩
  rw [memberSets_map, memberSets_map, hclasses.unique hclasses' hpool hnodup]

/-- Any glyph with pixels can be made the seed of the first cluster, by moving it to the end. -/
theorem exists_order_from {seed : Fin glyphs.length} (hseed : seed ∈ candidates glyphs)
    (hfits : ∀ order, order.Perm glyphs → NoOverflow (Glyph.group order)) :
    ∃ (order : List Glyph) (groups : List (List (Fin glyphs.length))), order.Perm glyphs ∧
      Glyph.group order = .ok (groups.map (·.map glyphs.get)) ∧
      groups.flatten.Perm (candidates glyphs) ∧
      ∃ members ∈ groups, ∀ j, j ∈ members ↔ Reaches glyphs (candidates glyphs) seed j := by
  let positions := (List.finRange glyphs.length).erase seed ++ [seed]
  have hpositions : positions.Perm (List.finRange glyphs.length) :=
    (List.perm_append_singleton seed _).trans (List.perm_cons_erase (List.mem_finRange seed)).symm
  have horder : (positions.map glyphs.get).Perm glyphs := by
    have hmap := hpositions.map glyphs.get
    rwa [List.map_get_finRange] at hmap
  have hpool := candidates_perm hpositions
  have hlast : (positions.filter fun i => ¬ (glyphs.get i).rect.IsEmpty).getLast? = some seed := by
    have hsolid := (List.mem_filter.1 hseed).2
    rw [List.filter_append, List.filter_singleton, hsolid, cond_true, List.getLast?_concat]
  obtain ⟨clusters, hclusters⟩ := (group_inBounds _).exists_ok (hfits _ horder)
  rw [group_map_get] at hclusters
  obtain ⟨groups, rfl, hpartition, hclosure, -⟩ :=
    collect_spec (hpool.nodup_iff.2 (candidates_nodup glyphs)) hclusters
  refine ⟨_, groups, horder, (group_map_get positions).trans hclusters, hpartition.trans hpool, ?_⟩
  cases groups with
  | nil =>
    have hnone : candidates glyphs = [] := (hpartition.trans hpool).symm.eq_nil
    rw [hnone] at hseed
    cases hseed
  | cons members later =>
    obtain ⟨first, hfirst, -, hreach⟩ := (hclosure [] members later rfl).reaches
    simp only [List.flatten_nil, List.not_mem_nil, not_false_eq_true, decide_true,
      List.filter_true] at hfirst hreach
    obtain rfl := Option.some.inj (hlast.symm.trans hfirst)
    refine ⟨members, List.mem_cons_self, fun j => ?_⟩
    rw [hreach, reaches_congr hpool]
    exact ⟨And.right, fun h => ⟨hpool.mem_iff.2 (h.mem hseed), h⟩⟩

theorem Reaches.of_get_eq {pool : List (Fin glyphs.length)} {i j j' : Fin glyphs.length}
    (h : Reaches glyphs pool i j) (hne : i ≠ j) (hj : j' ∈ pool)
    (hget : glyphs.get j' = glyphs.get j) : Reaches glyphs pool i j' := by
  cases h with
  | refl => exact absurd rfl hne
  | tail hchain hstep =>
    refine hchain.tail ⟨hj, ?_⟩
    unfold Near
    rw [hget]
    exact hstep.2

theorem SameGroups.memberSets_eq {order order' : List Glyph} {clusters clusters' : List Cluster}
    (h : SameGroups glyphs order) (h' : SameGroups glyphs order')
    (hclusters : Glyph.group order = .ok clusters)
    (hclusters' : Glyph.group order' = .ok clusters') :
    memberSets clusters = memberSets clusters' := by
  obtain ⟨first, _, hfirst, horder, heq⟩ := h
  obtain ⟨second, _, hsecond, horder', heq'⟩ := h'
  obtain rfl := Except.ok.inj (hfirst.symm.trans hsecond)
  obtain rfl := Except.ok.inj (hclusters.symm.trans horder)
  obtain rfl := Except.ok.inj (hclusters'.symm.trans horder')
  exact heq.symm.trans heq'

/-- If a chain cannot be walked back, then it matters which of its ends comes last. With one end
    as the seed the two are together, with the other they are not. -/
theorem mutual_of_sameGroups
    (hfits : ∀ order, order.Perm glyphs → NoOverflow (Glyph.group order))
    (hsame : ∀ order, order.Perm glyphs → SameGroups glyphs order) :
    Mutual glyphs (candidates glyphs) := by
  intro i hi j hj hnear
  by_contra hback
  obtain ⟨order, groups, horder, hgroups, -, apart, hapart, hreach⟩ := exists_order_from hj hfits
  obtain ⟨order', groups', horder', hgroups', hpartition, together, htogether, hreach'⟩ :=
    exists_order_from hi hfits
  have hsets := (hsame order horder).memberSets_eq (hsame order' horder') hgroups hgroups'
  have hset :
      Multiset.ofList (apart.map glyphs.get) ∈ memberSets (groups'.map (·.map glyphs.get)) :=
    hsets ▸ mem_memberSets.2 ⟨_, List.mem_map_of_mem hapart, rfl⟩
  obtain ⟨_, hmap, hperm⟩ := mem_memberSets.1 hset
  obtain ⟨members, hmembers, rfl⟩ := List.mem_map.1 hmap
  rw [Multiset.coe_eq_coe] at hperm
  -- The same glyphs may stand at other positions than `i` and `j`.
  have hjoint : glyphs.get j ∈ members.map glyphs.get :=
    hperm.mem_iff.2 (List.mem_map_of_mem ((hreach j).2 Relation.ReflTransGen.refl))
  obtain ⟨j', hj', hget⟩ := List.mem_map.1 hjoint
  have hpool : j' ∈ candidates glyphs :=
    hpartition.mem_iff.1 (List.mem_flatten_of_mem hmembers hj')
  have hnear' : j' ∈ together := by
    refine (hreach' j').2 (Relation.ReflTransGen.single ⟨hpool, ?_⟩)
    unfold Near
    rw [hget]
    exact hnear
  have hone : members = together := eq_of_flatten_nodup
    (hpartition.nodup_iff.2 (candidates_nodup glyphs)) hmembers htogether hj' hnear'
  have hi' : glyphs.get i ∈ apart.map glyphs.get := by
    rw [hone] at hperm
    exact hperm.mem_iff.1 (List.mem_map_of_mem ((hreach' i).2 Relation.ReflTransGen.refl))
  obtain ⟨i', hi', hget'⟩ := List.mem_map.1 hi'
  by_cases hself : j = i'
  · refine hback (Relation.ReflTransGen.single ⟨hi, ?_⟩)
    have hequal : glyphs.get j = glyphs.get i := hself ▸ hget'
    unfold Near at hnear ⊢
    rwa [hequal] at hnear ⊢
  · exact hback (((hreach i').1 hi').of_get_eq hself hi hget'.symm)

theorem mutual_of_height_eq
    (h : ∀ i ∈ candidates glyphs, ∀ j ∈ candidates glyphs,
      (glyphs.get i).height = (glyphs.get j).height) : Mutual glyphs (candidates glyphs) :=
  fun i hi j hj hnear =>
    Relation.ReflTransGen.single ⟨hi, Glyph.neighbours_symm (h i hi j hj) hnear⟩

/-- When the order of the glyphs has no influence on which of them are together: if chains between
    glyphs with pixels can be walked back, which is so if these glyphs have one height, and only
    then. -/
theorem sameGroups_iff_mutual (glyphs : List Glyph) :
    (Mutual glyphs (candidates glyphs) → ∀ order, order.Perm glyphs →
        NoOverflow (Glyph.group glyphs) → NoOverflow (Glyph.group order) →
        SameGroups glyphs order) ∧
      ((∀ order, order.Perm glyphs → NoOverflow (Glyph.group order)) →
        (∀ order, order.Perm glyphs → SameGroups glyphs order) →
        Mutual glyphs (candidates glyphs)) ∧
      ((∀ i ∈ candidates glyphs, ∀ j ∈ candidates glyphs,
          (glyphs.get i).height = (glyphs.get j).height) →
        Mutual glyphs (candidates glyphs)) :=
  ⟨fun hmutual _ hperm hfits hfits' => sameGroups_of_mutual hmutual hperm hfits hfits',
    mutual_of_sameGroups, mutual_of_height_eq⟩

/-- Three glyphs on one line, each smaller than the one before it. The first reaches the third, and
    the third reaches back only by way of the second. -/
private def descent : List Glyph :=
  [⟨[], [], ⟨0, 0, 8, 20⟩, "a"⟩, ⟨[], [], ⟨10, 4, 6, 16⟩, "b"⟩, ⟨[], [], ⟨20, 10, 5, 10⟩, "c"⟩]

private def pair : List Glyph := [⟨[], [], ⟨0, 0, 8, 12⟩, "a"⟩, ⟨[], [], ⟨10, 0, 8, 12⟩, "b"⟩]

theorem sameGroups_iff_mutual_descent :
    (descent.get ⟨2, by decide⟩).neighbours (descent.get ⟨0, by decide⟩) = .ok false ∧
      (∀ order, order.Perm descent → SameGroups descent order) ∧
      Mutual descent (candidates descent) ∧ Mutual pair (candidates pair) := by
  have hfits : ∀ order, order.Perm descent → NoOverflow (Glyph.group order) := by
    have hall : ∀ order ∈ descent.permutations', NoOverflow (Glyph.group order) := by
      decide +kernel
    exact fun order horder => hall order (List.mem_permutations'.2 horder)
  have hback : ∀ i ∈ candidates descent, ∀ j ∈ candidates descent, Near descent i j →
      ∃ k ∈ candidates descent, Near descent j k ∧ Near descent k i := by
    unfold Near
    decide +kernel
  have hmutual : Mutual descent (candidates descent) := by
    intro i hi j hj hnear
    obtain ⟨k, hk, hfirst, hsecond⟩ := hback i hi j hj hnear
    exact (Relation.ReflTransGen.single ⟨hk, hfirst⟩).tail ⟨hi, hsecond⟩
  obtain ⟨hsame, hmutual', -⟩ := sameGroups_iff_mutual descent
  have horders : ∀ order, order.Perm descent → SameGroups descent order := fun order horder =>
    hsame hmutual order horder (hfits descent (List.Perm.refl _)) (hfits order horder)
  exact ⟨by decide +kernel, horders, hmutual' hfits horders,
    (sameGroups_iff_mutual pair).2.2 (by decide +kernel)⟩

/-- A stroke and a dot behind it. -/
private def strokeAndDot : List Glyph :=
  [⟨[], [], ⟨0, 0, 8, 20⟩, "l"⟩, ⟨[], [], ⟨12, 16, 4, 4⟩, "."⟩]

/-- The stroke brings in the dot, but not the dot the stroke, so they are together only if the
    stroke comes last. -/
theorem group_depends_on_order :
    ¬ ∀ glyphs order : List Glyph, order.Perm glyphs → NoOverflow (Glyph.group glyphs) →
      NoOverflow (Glyph.group order) → SameGroups glyphs order := by
  intro h
  obtain ⟨clusters, clusters', hclusters, hclusters', hsame⟩ :=
    h strokeAndDot strokeAndDot.reverse (List.reverse_perm _) (by decide +kernel)
      (by decide +kernel)
  have hapart : Glyph.group strokeAndDot = .ok (strokeAndDot.reverse.map ([·])) := by
    decide +kernel
  have htogether : Glyph.group strokeAndDot.reverse = .ok [strokeAndDot] := by decide +kernel
  obtain rfl := Except.ok.inj (hapart.symm.trans hclusters)
  obtain rfl := Except.ok.inj (htogether.symm.trans hclusters')
  have hcount := congrArg Multiset.card hsame
  cases hcount

end ScoreOverlay.Cluster
