import ScoreOverlay.Proofs.Cluster.Growth

namespace ScoreOverlay.Cluster

variable {glyphs : List Glyph}

/-- A chain of glyphs of the pool leads from the first position to the second, each one near enough
    to the one before it to join. -/
def Reaches (glyphs : List Glyph) (pool : List (Fin glyphs.length)) :
    Fin glyphs.length → Fin glyphs.length → Prop :=
  Relation.ReflTransGen fun i j => j ∈ pool ∧ Near glyphs i j

/-- The members are those that a cluster started on the pool must have. It starts with the last
    glyph of the pool, and has exactly the glyphs of the pool that a chain through the pool leads to
    from there. -/
structure IsClosure (glyphs : List Glyph) (pool members : List (Fin glyphs.length)) : Prop where
  reaches : ∃ seed, pool.getLast? = some seed ∧ members.head? = some seed ∧
    ∀ j, j ∈ members ↔ j ∈ pool ∧ Reaches glyphs pool seed j
  supported : Supported glyphs members

theorem IsClosure.ne_nil {pool members : List (Fin glyphs.length)}
    (h : IsClosure glyphs pool members) : members ≠ [] := by
  obtain ⟨seed, -, hseed, -⟩ := h.reaches
  exact List.ne_nil_of_mem (List.mem_of_head? hseed)

theorem Supported.reaches {pool members : List (Fin glyphs.length)} {seed : Fin glyphs.length}
    (h : Supported glyphs members) (hseed : members.head? = some seed) (hpool : members ⊆ pool)
    {before after : List (Fin glyphs.length)} {j : Fin glyphs.length}
    (hj : members = before ++ j :: after) : Reaches glyphs pool seed j := by
  induction hcount : before.length using Nat.strong_induction_on generalizing before j after with
  | _ count ih =>
    by_cases hfirst : before = []
    · have hself : seed = j := by simpa [hj, hfirst] using hseed.symm
      exact hself ▸ Relation.ReflTransGen.refl
    · obtain ⟨i, hi, hnear⟩ := h before j after hj hfirst
      obtain ⟨earlier, later, rfl⟩ := List.append_of_mem hi
      have hi' : members = earlier ++ i :: (later ++ j :: after) := by simpa using hj
      have hreach := ih earlier.length (by simp at hcount; omega) hi' rfl
      exact hreach.tail ⟨hpool (by simp [hj]), hnear⟩

/-- A grown cluster is the closure of its seed: every member has a chain of reasons, and no chain
    leaves the cluster. -/
theorem Growth.isClosure {pool members left : List (Fin glyphs.length)} {seed : Fin glyphs.length}
    (h : Growth glyphs pool members [] left) (hlast : pool.getLast? = some seed)
    (hseed : members.head? = some seed) : IsClosure glyphs pool members := by
  have hpartition : (members ++ left).Perm pool := by simpa using h.partition
  have hsupported : Supported glyphs members := by simpa using h.supported
  have hpool : members ⊆ pool := fun j hj => hpartition.mem_iff.1 (List.mem_append_left left hj)
  refine ⟨⟨seed, hlast, hseed, fun j => ⟨fun hj => ⟨hpool hj, ?_⟩, ?_⟩⟩, hsupported⟩
  · obtain ⟨before, after, hbefore⟩ := List.append_of_mem hj
    exact hsupported.reaches hseed hpool hbefore
  · rintro ⟨-, hreach⟩
    induction hreach with
    | refl => exact List.mem_of_head? hseed
    | tail _ hstep ih =>
      rcases List.mem_append.1 (hpartition.mem_iff.2 hstep.1) with hmember | hleft
      · exact hmember
      · exact absurd hstep.2 (h.closed _ ih _ hleft).not_near

theorem collect_concat (rest : List Glyph) (seed : Glyph) :
    collect (rest ++ [seed]) = (do
      let (cluster, left) ← grow [] [seed] rest
      return cluster :: (← collect left)) := by
  rw [collect, dif_neg (by simp)]
  split
  · rename_i fault hgrow
    simp only [List.getLast_append_singleton, List.dropLast_concat] at hgrow
    rw [hgrow]
    rfl
  · rename_i cluster left hgrow
    simp only [List.getLast_append_singleton, List.dropLast_concat] at hgrow
    rw [hgrow]
    rfl

theorem collect_inBounds (remaining : List Glyph) : InBounds (collect remaining) := by
  induction hcount : remaining.length using Nat.strong_induction_on generalizing remaining with
  | _ count ih =>
    rcases List.eq_nil_or_concat' remaining with rfl | ⟨rest, seed, rfl⟩
    · rw [collect]
      exact InBounds.pure _
    · rw [collect_concat]
      refine (grow_inBounds _ _ _).bind fun parts hparts => ?_
      have hlength := grow_length hparts
      simp only [List.length_append, List.length_singleton] at hcount
      exact (ih parts.2.length (by omega) parts.2 rfl).bind fun _ _ => InBounds.pure _

theorem group_inBounds (glyphs : List Glyph) : InBounds (Glyph.group glyphs) := collect_inBounds _

/-- What is left of a pool is what the cluster does not have. -/
private theorem left_eq_filter {α : Type} [DecidableEq α] {pool members left : List α}
    (hnodup : pool.Nodup) (hpartition : (members ++ left).Perm pool) (hleft : left.Sublist pool) :
    left = pool.filter (· ∉ members) := by
  have hdisjoint := List.disjoint_of_nodup_append (hpartition.nodup_iff.2 hnodup)
  have hself : left.filter (· ∉ members) = left :=
    List.filter_eq_self.2 fun a ha => by simpa using fun hmember => hdisjoint hmember ha
  have hmembers : members.filter (· ∉ members) = [] := List.filter_eq_nil_iff.2 (by simp)
  have hsublist := hleft.filter (fun a => decide (a ∉ members))
  have hperm := hpartition.filter (fun a => decide (a ∉ members))
  rw [List.filter_append, hmembers, hself, List.nil_append] at hperm
  rw [hself] at hsublist
  exact hsublist.eq_of_length hperm.length_eq

/-- The clusters of a pool. Each is the closure of its seed in what the earlier ones have left, and
    none of its members is near to a glyph of a later one. -/
theorem collect_spec {pool : List (Fin glyphs.length)} {clusters : List Cluster}
    (hnodup : pool.Nodup) (h : collect (pool.map glyphs.get) = .ok clusters) :
    ∃ groups : List (List (Fin glyphs.length)),
      clusters = groups.map (·.map glyphs.get) ∧ groups.flatten.Perm pool ∧
        (∀ earlier members later, groups = earlier ++ members :: later →
          IsClosure glyphs (pool.filter (· ∉ earlier.flatten)) members) ∧
        groups.Pairwise fun earlier later => ∀ i ∈ earlier, ∀ j ∈ later, Far glyphs i j := by
  induction hcount : pool.length using Nat.strong_induction_on generalizing pool clusters with
  | _ count ih =>
    rcases List.eq_nil_or_concat' pool with rfl | ⟨rest, seed, rfl⟩
    · rw [List.map_nil, collect] at h
      cases h
      exact ⟨[], rfl, List.Perm.refl _, by simp, List.Pairwise.nil⟩
    · rw [List.map_append, List.map_singleton, collect_concat] at h
      simp only [bind_eq_ok_iff] at h
      obtain ⟨⟨cluster, left⟩, hgrow, clusters', hclusters, hcons⟩ := h
      cases hcons
      have hstart : Growth glyphs (rest ++ [seed]) [] [seed] rest := Growth.start seed rest
      obtain ⟨members, left, rfl, rfl, hprefix, hgrowth⟩ := hstart.grow hgrow
      have hpartition : (members ++ left).Perm (rest ++ [seed]) := by simpa using hgrowth.partition
      have hseed : members.head? = some seed := by
        obtain ⟨others, rfl⟩ := hprefix
        rfl
      have hlength : left.length < count := by
        have hsum := hpartition.length_eq
        have hpos := hprefix.length_le
        simp only [List.length_append, List.length_singleton, List.length_nil] at hsum hpos hcount
        omega
      obtain ⟨groups, rfl, hflatten, hclosures, hfar⟩ :=
        ih left.length hlength (hgrowth.ordered.nodup hnodup) hclusters rfl
      have hleft := left_eq_filter hnodup hpartition hgrowth.ordered
      refine ⟨members :: groups, rfl, (hflatten.append_left members).trans hpartition, ?_, ?_⟩
      · intro earlier members' later heq
        cases earlier with
        | nil =>
          cases heq
          simpa using hgrowth.isClosure (List.getLast?_concat ..) hseed
        | cons first earlier =>
          cases heq
          have hclosure := hclosures earlier members' later rfl
          rw [hleft, List.filter_filter] at hclosure
          simpa [Bool.and_comm, not_or] using hclosure
      · refine List.pairwise_cons.2 ⟨?_, hfar⟩
        intro group hgroup i hi j hj
        exact hgrowth.closed i hi j (hflatten.mem_iff.1 (List.mem_flatten_of_mem hgroup hj))

/-- The positions of the glyphs that can be in a cluster. -/
def candidates (glyphs : List Glyph) : List (Fin glyphs.length) :=
  (List.finRange glyphs.length).filter fun i => ¬ (glyphs.get i).rect.IsEmpty

theorem group_eq_collect (glyphs : List Glyph) :
    Glyph.group glyphs = collect ((candidates glyphs).map glyphs.get) := by
  have hfilter : (candidates glyphs).map glyphs.get =
      glyphs.filter fun g => ¬ g.rect.IsEmpty := by
    conv => rhs; rw [← List.map_get_finRange glyphs, List.filter_map]
    rfl
  rw [hfilter]
  rfl

/-- A grouping of glyphs that come from other data groups these data. Each of them whose glyph has
    pixels is in one group, and no group is empty. -/
theorem group_map {α : Type} (f : α → Glyph) {entries : List α} {clusters : List Cluster}
    (h : Glyph.group (entries.map f) = .ok clusters) :
    ∃ groups : List (List α),
      clusters = groups.map (·.map f) ∧
        groups.flatten.Perm (entries.filter fun a => ¬ (f a).rect.IsEmpty) ∧
        ∀ group ∈ groups, group ≠ [] := by
  have hnodup : (candidates (entries.map f)).Nodup := (List.nodup_finRange _).filter _
  rw [group_eq_collect] at h
  obtain ⟨groups, rfl, hflatten, hclosure, -⟩ := collect_spec hnodup h
  -- What is known is about positions in the list of glyphs, which are those of the data.
  let entry (i : Fin (entries.map f).length) : α := entries.get (i.cast (List.length_map f))
  have hget : (entries.map f).get = f ∘ entry := by
    funext i
    simp [entry]
  have hentries : (List.finRange (entries.map f).length).map entry = entries := by
    refine List.ext_getElem (by simp) fun n _ _ => ?_
    simp [entry]
  refine ⟨groups.map (·.map entry), ?_, ?_, ?_⟩
  · rw [hget, List.map_map]
    refine List.map_congr_left fun group _ => ?_
    exact List.map_map.symm
  · have hperm := hflatten.map entry
    rw [List.map_flatten] at hperm
    refine hperm.trans (List.Perm.of_eq ?_)
    conv => rhs; rw [← hentries, List.filter_map]
    unfold candidates
    rw [hget]
    rfl
  · intro group hgroup
    obtain ⟨members, hmembers, rfl⟩ := List.mem_map.1 hgroup
    obtain ⟨earlier, later, rfl⟩ := List.append_of_mem hmembers
    exact fun hempty =>
      (hclosure earlier members later rfl).ne_nil (List.map_eq_nil_iff.1 hempty)

/-- Grouping a list distributes its glyphs that have pixels over clusters that are not empty. -/
theorem flatten_perm_of_group {glyphs : List Glyph} {clusters : List Cluster}
    (h : Glyph.group glyphs = .ok clusters) :
    clusters.flatten.Perm (glyphs.filter fun g => ¬ g.rect.IsEmpty) ∧
      ∀ cluster ∈ clusters, cluster ≠ [] := by
  rw [← List.map_id glyphs] at h
  obtain ⟨groups, rfl, hperm, hne⟩ := group_map id h
  simpa using And.intro hperm hne

/-- Each cluster has some of the glyphs that have pixels. -/
theorem subperm_of_group {glyphs : List Glyph} {clusters : List Cluster}
    (h : Glyph.group glyphs = .ok clusters) :
    ∀ cluster ∈ clusters, cluster.Subperm (glyphs.filter fun g => ¬ g.rect.IsEmpty) := by
  intro cluster hcluster
  have hsublist : cluster.Sublist clusters.flatten := List.sublist_flatten_of_mem hcluster
  exact hsublist.subperm.trans (flatten_perm_of_group h).1.subperm

/-- Grouping computes reachability. Each cluster starts with its seed, the last glyph with pixels
    that no earlier cluster has, and its members are exactly the glyphs not in earlier clusters that
    a chain of such glyphs leads to from the seed, where every member but the seed joined because of
    one before it. Every glyph with pixels is in one cluster, and no glyph of a later cluster is
    near enough to a member of an earlier one to have joined it. -/
theorem group_isClosure {glyphs : List Glyph} (hfits : NoOverflow (Glyph.group glyphs)) :
    ∃ groups : List (List (Fin glyphs.length)),
      Glyph.group glyphs = .ok (groups.map (·.map glyphs.get)) ∧
        groups.flatten.Perm (candidates glyphs) ∧
        (∀ earlier members later, groups = earlier ++ members :: later →
          IsClosure glyphs ((candidates glyphs).filter (· ∉ earlier.flatten)) members) ∧
        groups.Pairwise fun earlier later => ∀ i ∈ earlier, ∀ j ∈ later, Far glyphs i j := by
  rw [group_eq_collect] at hfits ⊢
  obtain ⟨clusters, hclusters⟩ := (collect_inBounds _).exists_ok hfits
  have hnodup : (candidates glyphs).Nodup := (List.nodup_finRange _).filter _
  obtain ⟨groups, rfl, hgroups⟩ := collect_spec hnodup hclusters
  exact ⟨groups, hclusters, hgroups⟩

/-- Two glyphs that only the one between them joins, one far away, and one without pixels. -/
private def line : List Glyph :=
  [⟨[], [], ⟨0, 0, 8, 12⟩, "a"⟩, ⟨[], [], ⟨20, 0, 8, 12⟩, "c"⟩, ⟨[], [], ⟨10, 0, 8, 12⟩, "b"⟩,
    ⟨[], [], ⟨99, 0, 8, 12⟩, "d"⟩, ⟨[], [], ⟨10, 0, 8, 0⟩, "e"⟩]

theorem group_isClosure_line :
    Glyph.group line = .ok ([[3], [2, 1, 0]].map (·.map fun i : Fin 5 => line.get i)) ∧
      ∃ groups : List (List (Fin line.length)),
        Glyph.group line = .ok (groups.map (·.map line.get)) ∧
          ∀ earlier members later, groups = earlier ++ members :: later →
            IsClosure line ((candidates line).filter (· ∉ earlier.flatten)) members := by
  have hfits : NoOverflow (Glyph.group line) := by decide +kernel
  obtain ⟨groups, hgroup, _, hclosure, _⟩ := group_isClosure hfits
  exact ⟨by decide +kernel, groups, hgroup, hclosure⟩

end ScoreOverlay.Cluster
