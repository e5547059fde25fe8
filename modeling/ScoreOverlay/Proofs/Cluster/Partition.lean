import ScoreOverlay.Proofs.Cluster.Reachability

namespace ScoreOverlay.Cluster

/-- Grouping partitions the glyphs that have pixels. It succeeds unless a coordinate overflows, each
    of these glyphs is in one cluster as often as it is in the list and is not changed, and no
    cluster is empty. So there is no cluster only if there is no glyph with pixels, also if the list
    runs dry when a cluster has just been closed. -/
theorem group_partitions {glyphs : List Glyph} (hfits : NoOverflow (Glyph.group glyphs)) :
    ∃ clusters, Glyph.group glyphs = .ok clusters ∧
      clusters.flatten.Perm (glyphs.filter fun g => ¬ g.rect.IsEmpty) ∧
      (∀ cluster ∈ clusters, cluster ≠ []) ∧
      (clusters = [] ↔ ∀ g ∈ glyphs, g.rect.IsEmpty) := by
  obtain ⟨clusters, hclusters⟩ := (group_inBounds glyphs).exists_ok hfits
  obtain ⟨hperm, hne⟩ := flatten_perm_of_group hclusters
  refine ⟨clusters, hclusters, hperm, hne, ?_⟩
  constructor
  · rintro rfl
    have hnone : glyphs.filter (fun g => ¬ g.rect.IsEmpty) = [] := List.nil_perm.1 hperm
    simpa using hnone
  · intro hempty
    have hnone : glyphs.filter (fun g => ¬ g.rect.IsEmpty) = [] := by simpa using hempty
    rw [hnone] at hperm
    have hflatten : ∀ cluster ∈ clusters, cluster = [] := by simpa using hperm.eq_nil
    by_contra hclusters
    obtain ⟨cluster, hcluster⟩ := List.exists_mem_of_ne_nil clusters hclusters
    exact hne cluster hcluster (hflatten cluster hcluster)

/-- Two equal glyphs, one next to them, one without pixels and one on its own. -/
private def page : List Glyph :=
  [⟨[], [], ⟨0, 0, 8, 12⟩, "a"⟩, ⟨[⟨0, 0⟩], [], ⟨50, 40, 8, 12⟩, "b"⟩, ⟨[], [], ⟨3, 3, 0, 5⟩, "c"⟩,
    ⟨[], [], ⟨0, 0, 8, 12⟩, "a"⟩, ⟨[], [[⟨9, 9⟩]], ⟨10, 1, 8, 12⟩, "d"⟩]

theorem group_partitions_page :
    NoOverflow (Glyph.group page) ∧
      Glyph.group page =
        .ok ([[4, 3, 0], [1]].map (·.map fun i : Fin 5 => page.get i)) ∧
      ∃ clusters, Glyph.group page = .ok clusters ∧
        clusters.flatten.Perm (page.filter fun g => ¬ g.rect.IsEmpty) ∧
        (∀ cluster ∈ clusters, cluster ≠ []) ∧
        (clusters = [] ↔ ∀ g ∈ page, g.rect.IsEmpty) :=
  ⟨by decide +kernel, by decide +kernel, group_partitions (by decide +kernel)⟩

end ScoreOverlay.Cluster
