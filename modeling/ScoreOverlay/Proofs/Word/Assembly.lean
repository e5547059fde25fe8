import Mathlib.Data.List.Forall2
import ScoreOverlay.Proofs.Geometry.Hull
import ScoreOverlay.Proofs.Word.Sorting

namespace ScoreOverlay

namespace Glyph

/-- The column that decides where a glyph stands in its word. -/
def middleX (g : Glyph) : Int := g.rect.x + g.rect.width.tdiv 2

theorem center_inBounds (g : Glyph) : InBounds g.center := by
  refine (Coordinate.add_inBounds _ _).bind fun _ _ => ?_
  exact (Coordinate.add_inBounds _ _).bind fun _ _ => InBounds.pure _

theorem x_of_center_eq_ok {g : Glyph} {center : Point} (h : g.center = .ok center) :
    center.x = g.middleX := by
  obtain ⟨x, hx, h⟩ := bind_eq_ok_iff.1 h
  obtain ⟨y, -, h⟩ := bind_eq_ok_iff.1 h
  cases h
  exact Coordinate.eq_of_add_eq_ok hx

theorem spaceBetween_inBounds (left right : Glyph) (ratio : Binary.Scalar) :
    InBounds (left.spaceBetween right ratio) := by
  refine (Rect.right_inBounds _).bind fun _ _ => (Coordinate.sub_inBounds _ _).bind fun _ _ => ?_
  refine InBounds.ite (fun _ => InBounds.pure _) fun _ => ?_
  exact InBounds.ite (fun _ => InBounds.pure _) fun _ => InBounds.pure _

end Glyph

namespace Word

variable {ratio : Binary.Scalar}

theorem spell_inBounds (ratio : Binary.Scalar) (glyphs : List Glyph) :
    InBounds (spell ratio glyphs) := by
  induction glyphs with
  | nil => exact InBounds.pure _
  | cons g rest ih =>
    cases rest with
    | nil => exact InBounds.pure _
    | cons next rest =>
      refine (Glyph.spaceBetween_inBounds _ _ _).bind fun _ _ => ?_
      exact ih.bind fun _ _ => InBounds.pure _

theorem ofCluster?_inBounds (cluster : Cluster) (ratio : Binary.Scalar) :
    InBounds (ofCluster? cluster ratio) := by
  refine (InBounds.mapM fun g _ => Glyph.center_inBounds g).bind fun centers _ => ?_
  split
  · exact InBounds.pure _
  · exact (spell_inBounds _ _).bind fun _ _ => InBounds.pure _

theorem ofClusters_inBounds (clusters : List Cluster) (ratio : Binary.Scalar) :
    InBounds (ofClusters clusters ratio) :=
  (InBounds.mapM fun cluster _ => ofCluster?_inBounds cluster ratio).bind fun _ _ =>
    InBounds.pure _

theorem forall₂_center {cluster : Cluster} {centers : List Point}
    (h : cluster.mapM Glyph.center = .ok centers) :
    List.Forall₂ (fun g center => g.center = .ok center) cluster centers := by
  rwa [mapM_eq_ok_iff, ← List.forall₂_eq_eq_eq, List.forall₂_map_left_iff,
    List.forall₂_map_right_iff] at h

/-- The glyphs of a cluster that is read all have a center. -/
theorem exists_centers {cluster : Cluster} {word? : Option Word}
    (h : ofCluster? cluster ratio = .ok word?) :
    ∃ centers : List Point,
      List.Forall₂ (fun g center => g.center = .ok center) cluster centers := by
  obtain ⟨centers, hcenters, -⟩ := bind_eq_ok_iff.1 h
  exact ⟨centers, forall₂_center hcenters⟩

/-- The glyphs of a cluster in reading order, each next to its center. -/
theorem map_snd_sortByX {cluster : Cluster} {centers : List Point}
    (h : List.Forall₂ (fun g center => g.center = .ok center) cluster centers) :
    (∀ item ∈ centers.zip cluster, item.2.center = .ok item.1) ∧
      (sortByX (centers.zip cluster)).map Prod.snd = sortOn Glyph.middleX cluster := by
  have hcenter : ∀ item ∈ centers.zip cluster, item.2.center = .ok item.1 :=
    fun item hitem => (List.forall₂_iff_zip.1 h.flip).2 hitem
  refine ⟨hcenter, ?_⟩
  have hsnd : (centers.zip cluster).map Prod.snd = cluster := List.map_snd_zip h.length_eq.le
  unfold sortByX sortOn
  rw [List.map_mergeSort (s := fun g h => decide (g.middleX ≤ h.middleX)), hsnd]
  intro a ha b hb
  rw [Glyph.x_of_center_eq_ok (hcenter a ha), Glyph.x_of_center_eq_ok (hcenter b hb)]

/-- What reading a cluster means. Its glyphs are taken by their middle columns, and the first one of
    them gives the word its center. -/
theorem ofCluster?_eq_ok {cluster : Cluster} {word? : Option Word}
    (h : ofCluster? cluster ratio = .ok word?) :
    match sortOn Glyph.middleX cluster with
    | [] => word? = none
    | first :: rest => ∃ text center, spell ratio (first :: rest) = .ok text ∧
        first.center = .ok center ∧ word? = some ⟨String.ofList (Text.uppercase text), center⟩ := by
  obtain ⟨centers, hcenters, h⟩ := bind_eq_ok_iff.1 h
  obtain ⟨hcenter, hsort⟩ := map_snd_sortByX (forall₂_center hcenters)
  rw [← hsort]
  cases hitems : sortByX (centers.zip cluster) with
  | nil =>
    rw [hitems] at h
    cases h
    rfl
  | cons item rest =>
    obtain ⟨center, first⟩ := item
    rw [hitems] at h
    obtain ⟨text, htext, h⟩ := bind_eq_ok_iff.1 h
    cases h
    have hmem : (center, first) ∈ centers.zip cluster :=
      (sortOn_perm _ _).mem_iff.1 (hitems ▸ List.mem_cons_self)
    exact ⟨text, center, htext, hcenter _ hmem, rfl⟩

theorem map_snd_sortByX_center (words : List Word) :
    (sortByX (words.map fun word => (word.center, word))).map Prod.snd =
      sortOn (fun word => word.center.x) words := by
  unfold sortByX sortOn
  rw [← List.map_mergeSort (r := fun v w => decide (v.center.x ≤ w.center.x))
    (fun _ _ _ _ => rfl), List.map_map, List.map_id'']
  exact fun _ => rfl

/-- The words are those of the clusters that give one, sorted by their centers. -/
theorem ofClusters_eq_ok_iff {clusters : List Cluster} {words : List Word} :
    ofClusters clusters ratio = .ok words ↔
      ∃ found : List (Option Word), clusters.map (ofCluster? · ratio) = found.map .ok ∧
        sortOn (fun word => word.center.x) (found.filterMap id) = words := by
  simp only [ofClusters, bind_eq_ok_iff, mapM_eq_ok_iff, pure_eq_ok, Except.ok.injEq,
    map_snd_sortByX_center]

/-- If each cluster gives a word, then there is a word for each of them. -/
theorem exists_forall₂_of_ofClusters {α : Type} {cluster : α → Cluster} {R : α → Word → Prop}
    {l : List α} {words : List Word}
    (hread : ∀ a ∈ l, ∀ word?, ofCluster? (cluster a) ratio = .ok word? →
      ∃ word, word? = some word ∧ R a word)
    (h : ofClusters (l.map cluster) ratio = .ok words) :
    ∃ read, List.Forall₂ R l read ∧ words.Perm read := by
  obtain ⟨found, hfound, rfl⟩ := ofClusters_eq_ok_iff.1 h
  refine ⟨found.filterMap id, ?_, sortOn_perm _ _⟩
  rw [List.map_map] at hfound
  clear h
  induction l generalizing found with
  | nil =>
    obtain rfl := List.map_eq_nil_iff.1 hfound.symm
    exact List.Forall₂.nil
  | cons a rest ih =>
    cases found with
    | nil => cases hfound
    | cons word? found =>
      obtain ⟨hfirst, hrest⟩ := List.cons.inj hfound
      obtain ⟨ha, hothers⟩ := List.forall_mem_cons.1 hread
      obtain ⟨word, rfl, hword⟩ := ha word? hfirst
      exact List.Forall₂.cons hword (ih hothers found hrest)

theorem pairwise_of_ofClusters {clusters : List Cluster} {words : List Word}
    (h : ofClusters clusters ratio = .ok words) :
    words.Pairwise fun v w => v.center.x ≤ w.center.x := by
  obtain ⟨found, -, rfl⟩ := ofClusters_eq_ok_iff.1 h
  exact sortOn_pairwise _ _

end Word

end ScoreOverlay
