import Mathlib.Data.List.Pairwise
import Mathlib.Data.Multiset.MapFold
import ScoreOverlay.Proofs.Cluster.Reachability

namespace ScoreOverlay.Cluster

variable {glyphs : List Glyph}

/-- Whenever a glyph of the pool is near enough to another for that one to join, a chain through the
    pool leads back. -/
def Mutual (glyphs : List Glyph) (pool : List (Fin glyphs.length)) : Prop :=
  ∀ i ∈ pool, ∀ j ∈ pool, Near glyphs i j → Reaches glyphs pool j i

/-- The groups divide the pool, and each has what chains lead to from any of its members. -/
structure IsClasses (glyphs : List Glyph) (pool : List (Fin glyphs.length))
    (groups : List (List (Fin glyphs.length))) : Prop where
  partition : groups.flatten.Perm pool
  nonempty : ∀ members ∈ groups, members ≠ []
  reach : ∀ members ∈ groups, ∀ i ∈ members, ∀ j, j ∈ members ↔ Reaches glyphs pool i j

section

variable {pool pool' : List (Fin glyphs.length)} {i j : Fin glyphs.length}

theorem Reaches.mono (h : Reaches glyphs pool i j) (hsubset : pool ⊆ pool') :
    Reaches glyphs pool' i j :=
  Relation.ReflTransGen.mono (fun _ _ hstep => ⟨hsubset hstep.1, hstep.2⟩) _ _ h

theorem Reaches.mem (h : Reaches glyphs pool i j) (hi : i ∈ pool) : j ∈ pool := by
  cases h with
  | refl => exact hi
  | tail _ hstep => exact hstep.1

theorem reaches_congr (hperm : pool'.Perm pool) :
    Reaches glyphs pool' i j ↔ Reaches glyphs pool i j :=
  ⟨fun h => h.mono hperm.subset, fun h => h.mono hperm.symm.subset⟩

/-- A chain cannot leave what is not near to anything outside. -/
theorem Reaches.stays {inside outside : List (Fin glyphs.length)}
    (hpartition : (inside ++ outside).Perm pool)
    (hfar : ∀ i ∈ inside, ∀ j ∈ outside, Far glyphs i j) (hi : i ∈ inside)
    (h : Reaches glyphs pool i j) : j ∈ inside := by
  induction h with
  | refl => exact hi
  | tail _ hstep ih =>
    rcases List.mem_append.1 (hpartition.mem_iff.2 hstep.1) with hinside | houtside
    · exact hinside
    · exact absurd hstep.2 (hfar _ ih _ houtside).not_near

theorem Mutual.symm (hmutual : Mutual glyphs pool) (hi : i ∈ pool)
    (h : Reaches glyphs pool i j) : Reaches glyphs pool j i := by
  induction h with
  | refl => exact Relation.ReflTransGen.refl
  | tail hchain hstep ih =>
    exact (hmutual _ (Reaches.mem hchain hi) _ hstep.1 hstep.2).trans ih

theorem Mutual.perm (hmutual : Mutual glyphs pool) (hperm : pool'.Perm pool) :
    Mutual glyphs pool' := by
  intro i hi j hj hnear
  exact (reaches_congr hperm).2 (hmutual i (hperm.mem_iff.1 hi) j (hperm.mem_iff.1 hj) hnear)

end

section

variable {pool : List (Fin glyphs.length)} {groups : List (List (Fin glyphs.length))}

theorem disjoint_of_flatten_nodup {α : Type} {before after : List (List α)} {l : List α} {a : α}
    (h : (before ++ l :: after).flatten.Nodup) (ha : a ∈ l) : a ∉ before.flatten := by
  rw [List.flatten_append, List.flatten_cons] at h
  intro hbefore
  exact List.disjoint_of_nodup_append h hbefore (List.mem_append_left _ ha)

theorem eq_of_flatten_nodup {α : Type} {groups : List (List α)} {l m : List α} {a : α}
    (h : groups.flatten.Nodup) (hl : l ∈ groups) (hm : m ∈ groups) (hal : a ∈ l) (ham : a ∈ m) :
    l = m := by
  by_contra hne
  have hsymm : Std.Symm (List.Disjoint (α := α)) :=
    ⟨fun _ _ hdisjoint _ hb hb' => hdisjoint hb' hb⟩
  exact (List.nodup_flatten.1 h).2.forall hl hm hne hal ham

theorem existsUnique_of_flatten_nodup {α : Type} {groups : List (List α)} {a : α}
    (h : groups.flatten.Nodup) (ha : a ∈ groups.flatten) :
    ∃! group, group ∈ groups ∧ a ∈ group := by
  obtain ⟨group, hgroup, hmem⟩ := List.mem_flatten.1 ha
  exact ⟨group, ⟨hgroup, hmem⟩, fun other hother =>
    eq_of_flatten_nodup h hother.1 hgroup hother.2 hmem⟩

/-- If chains can be walked back, the clusters of a pool are the classes of glyphs that chains
    connect. A chain never leads from an earlier cluster into a later one, and so it never leads
    back from a later into an earlier one. -/
theorem collect_isClasses {clusters : List Cluster} (hnodup : pool.Nodup)
    (hmutual : Mutual glyphs pool) (h : collect (pool.map glyphs.get) = .ok clusters) :
    ∃ groups, clusters = groups.map (·.map glyphs.get) ∧ IsClasses glyphs pool groups := by
  obtain ⟨groups, hclusters, hpartition, hclosure, hfar⟩ := collect_spec hnodup h
  have hflatten : groups.flatten.Nodup := hpartition.nodup_iff.2 hnodup
  have hstays : ∀ before after, groups = before ++ after → ∀ i ∈ before.flatten, ∀ j,
      Reaches glyphs pool i j → j ∈ before.flatten := by
    rintro before after rfl i hi j hreach
    rw [List.flatten_append] at hpartition
    refine hreach.stays hpartition (fun k hk l hl => ?_) hi
    obtain ⟨members, hmembers, hk⟩ := List.mem_flatten.1 hk
    obtain ⟨members', hmembers', hl⟩ := List.mem_flatten.1 hl
    exact (List.pairwise_append.1 hfar).2.2 members hmembers members' hmembers' k hk l hl
  refine ⟨groups, hclusters, hpartition, ?_, ?_⟩
  · intro members hmembers
    obtain ⟨earlier, later, heq⟩ := List.append_of_mem hmembers
    exact (hclosure earlier members later heq).ne_nil
  · intro members hmembers i hi j
    obtain ⟨earlier, later, rfl⟩ := List.append_of_mem hmembers
    obtain ⟨seed, -, hhead, hseed⟩ := (hclosure earlier members later rfl).reaches
    have hpool : ∀ k, k ∈ members → k ∈ pool ∧ Reaches glyphs pool seed k := by
      intro k hk
      obtain ⟨hfilter, hreach⟩ := (hseed k).1 hk
      exact ⟨(List.mem_filter.1 hfilter).1, hreach.mono (List.filter_subset_self _)⟩
    constructor
    · intro hj
      have hstart := (hpool seed (List.mem_of_head? hhead)).1
      exact (hmutual.symm hstart (hpool i hi).2).trans (hpool j hj).2
    · intro hreach
      have hinside : j ∈ (earlier ++ [members]).flatten :=
        hstays (earlier ++ [members]) later (by simp) i (by simp [hi]) j hreach
      rw [List.flatten_append, List.flatten_singleton] at hinside
      rcases List.mem_append.1 hinside with hearlier | hmember
      · have hback := hstays earlier (members :: later) rfl j hearlier i
          (hmutual.symm (hpool i hi).1 hreach)
        exact absurd hback (disjoint_of_flatten_nodup hflatten hi)
      · exact hmember

theorem IsClasses.together_iff (h : IsClasses glyphs pool groups) {i j : Fin glyphs.length}
    (hi : i ∈ pool) :
    (∃ members ∈ groups, i ∈ members ∧ j ∈ members) ↔ Reaches glyphs pool i j := by
  constructor
  · rintro ⟨members, hmembers, hi, hj⟩
    exact (h.reach members hmembers i hi j).1 hj
  · intro hreach
    obtain ⟨members, hmembers, hi⟩ := List.mem_flatten.1 (h.partition.mem_iff.2 hi)
    exact ⟨members, hmembers, hi, (h.reach members hmembers i hi j).2 hreach⟩

/-- The members of each group, without their order. -/
def memberSets {α : Type} (groups : List (List α)) : Multiset (Multiset α) :=
  Multiset.ofList (groups.map Multiset.ofList)

theorem mem_memberSets {α : Type} {groups : List (List α)} {set : Multiset α} :
    set ∈ memberSets groups ↔ ∃ members ∈ groups, Multiset.ofList members = set := by
  unfold memberSets
  rw [Multiset.mem_coe, List.mem_map]

/-- Groups that are not empty and have no member in common are different. -/
theorem memberSets_nodup {α : Type} {groups : List (List α)} (hnodup : groups.flatten.Nodup)
    (hnonempty : ∀ members ∈ groups, members ≠ []) : (memberSets groups).Nodup := by
  unfold memberSets
  rw [Multiset.coe_nodup]
  refine List.pairwise_map.2 ((List.nodup_flatten.1 hnodup).2.imp_of_mem ?_)
  intro members members' hmembers _ hdisjoint heq
  obtain ⟨i, hi⟩ := List.exists_mem_of_ne_nil members (hnonempty members hmembers)
  exact hdisjoint hi ((Multiset.coe_eq_coe.1 heq).mem_iff.1 hi)

variable {pool' : List (Fin glyphs.length)} {groups' : List (List (Fin glyphs.length))}

theorem IsClasses.memberSets_subset (h : IsClasses glyphs pool groups)
    (h' : IsClasses glyphs pool' groups') (hperm : pool'.Perm pool) (hnodup : pool.Nodup) :
    memberSets groups ⊆ memberSets groups' := by
  intro set hset
  obtain ⟨members, hmembers, rfl⟩ := mem_memberSets.1 hset
  obtain ⟨i, hi⟩ := List.exists_mem_of_ne_nil members (h.nonempty members hmembers)
  have hpool : i ∈ pool := h.partition.mem_iff.1 (List.mem_flatten_of_mem hmembers hi)
  have hflatten : i ∈ groups'.flatten := h'.partition.mem_iff.2 (hperm.mem_iff.2 hpool)
  obtain ⟨members', hmembers', hi'⟩ := List.mem_flatten.1 hflatten
  have hunique := (List.nodup_flatten.1 (h.partition.nodup_iff.2 hnodup)).1 members hmembers
  have hunique' := (List.nodup_flatten.1
    ((h'.partition.trans hperm).nodup_iff.2 hnodup)).1 members' hmembers'
  refine mem_memberSets.2 ⟨members', hmembers', Multiset.coe_eq_coe.2 ?_⟩
  refine (List.perm_ext_iff_of_nodup hunique' hunique).2 fun j => ?_
  rw [h'.reach members' hmembers' i hi', h.reach members hmembers i hi, reaches_congr hperm]

/-- Being classes leaves no choice but that of the order. -/
theorem IsClasses.unique (h : IsClasses glyphs pool groups) (h' : IsClasses glyphs pool' groups')
    (hperm : pool'.Perm pool) (hnodup : pool.Nodup) : memberSets groups = memberSets groups' := by
  have hnodup' : pool'.Nodup := hperm.nodup_iff.2 hnodup
  refine (Multiset.Nodup.ext (memberSets_nodup (h.partition.nodup_iff.2 hnodup) h.nonempty)
    (memberSets_nodup (h'.partition.nodup_iff.2 hnodup') h'.nonempty)).2 fun set => ?_
  exact ⟨fun hset => h.memberSets_subset h' hperm hnodup hset,
    fun hset => h'.memberSets_subset h hperm.symm hnodup' hset⟩

end

end ScoreOverlay.Cluster
