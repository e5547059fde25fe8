import Mathlib.Data.List.Perm.Basic
import ScoreOverlay.Proofs.Checked.Overflow
import ScoreOverlay.Proofs.Word.Assembly

namespace ScoreOverlay

namespace Cluster

/-- The column of the center of the leftmost glyph, if the cluster has a glyph. -/
def startX? (cluster : Cluster) : Option Int := (cluster.map Glyph.middleX).min?

/-- The second list has the same clusters in any order, each with its glyphs in any order. -/
def Rearranged (clusters clusters' : List Cluster) : Prop :=
  ∃ reordered : List Cluster, clusters.Perm reordered ∧
    List.Forall₂ (fun cluster cluster' => cluster.Perm cluster') reordered clusters'

end Cluster

namespace Word

variable {ratio : Binary.Scalar} {cluster cluster' : Cluster} {clusters clusters' : List Cluster}
  {word? : Option Word} {found : List (Option Word)}

/-- A cluster can be read if its glyphs have centers and can be spelled in the order of these. -/
theorem ofCluster?_eq_ok_iff :
    ofCluster? cluster ratio = .ok word? ↔
      (∀ g ∈ cluster, ∃ center, g.center = .ok center) ∧
        match sortOn Glyph.middleX cluster with
        | [] => word? = none
        | first :: rest => ∃ text center, spell ratio (first :: rest) = .ok text ∧
            first.center = .ok center ∧
            word? = some ⟨String.ofList (Text.uppercase text), center⟩ := by
  constructor
  · intro h
    obtain ⟨centers, hcenters, -⟩ := bind_eq_ok_iff.1 h
    refine ⟨fun g hg => ?_, ofCluster?_eq_ok h⟩
    have hmem := List.mem_map_of_mem (f := Glyph.center) hg
    rw [mapM_eq_ok_iff.1 hcenters] at hmem
    obtain ⟨center, -, hcenter⟩ := List.mem_map.1 hmem
    exact ⟨center, hcenter.symm⟩
  · rintro ⟨hall, h⟩
    have hfits : NoOverflow (cluster.mapM Glyph.center) := by
      apply NoOverflow.mapM
      intro g hg
      obtain ⟨center, hcenter⟩ := hall g hg
      exact NoOverflow.of_ok hcenter
    obtain ⟨centers, hcenters⟩ :=
      (InBounds.mapM fun g _ => Glyph.center_inBounds g).exists_ok hfits
    obtain ⟨hcenter, hsort⟩ := map_snd_sortByX (forall₂_center hcenters)
    rw [← hsort] at h
    rw [ofCluster?, hcenters, ok_bind]
    cases hitems : sortByX (centers.zip cluster) with
    | nil =>
      rw [hitems] at h
      exact congrArg Except.ok (Eq.symm h)
    | cons item rest =>
      rw [hitems] at h
      obtain ⟨text, center, htext, hfirst, rfl⟩ := h
      have hmem : item ∈ centers.zip cluster :=
        (sortOn_perm _ _).mem_iff.1 (hitems ▸ List.mem_cons_self)
      obtain rfl := Except.ok.inj ((hcenter item hmem).symm.trans hfirst)
      simp only [htext, ok_bind, pure_eq_ok]

/-- Glyphs in different columns may come in any order. -/
theorem ofCluster?_perm (hperm : cluster.Perm cluster')
    (hcolumns : (cluster.map Glyph.middleX).Nodup) (h : ofCluster? cluster ratio = .ok word?) :
    ofCluster? cluster' ratio = .ok word? := by
  rw [ofCluster?_eq_ok_iff] at h ⊢
  rw [← sortOn_eq_of_perm Glyph.middleX hperm hcolumns]
  refine ⟨fun g hg => ?_, h.2⟩
  exact h.1 g (hperm.mem_iff.2 hg)

/-- A word stands where the leftmost glyph of its cluster does. -/
theorem map_x_of_ofCluster? (h : ofCluster? cluster ratio = .ok word?) :
    word?.map (·.center.x) = cluster.startX? := by
  have hread := ofCluster?_eq_ok h
  cases hsorted : sortOn Glyph.middleX cluster with
  | nil =>
    rw [hsorted] at hread
    have hnil : cluster = [] := (hsorted ▸ sortOn_perm Glyph.middleX cluster).nil_eq.symm
    rw [hread, hnil]
    rfl
  | cons first rest =>
    rw [hsorted] at hread
    obtain ⟨text, center, -, hcenter, rfl⟩ := hread
    rw [Cluster.startX?, min?_map_of_sortOn Glyph.middleX hsorted,
      ← Glyph.x_of_center_eq_ok hcenter]
    rfl

/-- What the clusters give one by one, which is nothing for an empty one. -/
def AreReadAs (ratio : Binary.Scalar) (clusters : List Cluster) (found : List (Option Word)) :
    Prop :=
  List.Forall₂ (fun cluster word? => ofCluster? cluster ratio = .ok word?) clusters found

theorem ofClusters_eq_ok_iff_areReadAs {words : List Word} :
    ofClusters clusters ratio = .ok words ↔ ∃ found, AreReadAs ratio clusters found ∧
      sortOn (fun word => word.center.x) (found.filterMap id) = words := by
  rw [ofClusters_eq_ok_iff]
  simp only [AreReadAs, ← List.forall₂_eq_eq_eq, List.forall₂_map_left_iff,
    List.forall₂_map_right_iff]

theorem AreReadAs.map_x (h : AreReadAs ratio clusters found) :
    (found.filterMap id).map (fun word => word.center.x) = clusters.filterMap Cluster.startX? := by
  induction h with
  | nil => rfl
  | @cons cluster word? clusters found hfirst _ ih =>
    have hx := (map_x_of_ofCluster? hfirst).symm
    cases word? with
    | none =>
      rw [List.filterMap_cons_none hx]
      exact ih
    | some word =>
      rw [List.filterMap_cons_some hx, ← ih]
      rfl

/-- Every cluster with a glyph gives a word, and no other one does. -/
theorem AreReadAs.filter (h : AreReadAs ratio clusters found) :
    List.Forall₂ (fun cluster word => ofCluster? cluster ratio = .ok (some word))
      (clusters.filter (· ≠ [])) (found.filterMap id) := by
  induction h with
  | nil => exact .nil
  | @cons cluster word? clusters found hfirst _ ih =>
    have hx := map_x_of_ofCluster? hfirst
    cases cluster with
    | nil =>
      obtain rfl : word? = none := by simpa [Cluster.startX?] using hx
      exact ih
    | cons g rest =>
      cases word? with
      | none => simp [Cluster.startX?, List.min?_cons] at hx
      | some word => exact .cons hfirst ih

theorem AreReadAs.rearranged (h : AreReadAs ratio clusters found)
    (hcolumns : ∀ cluster ∈ clusters, (cluster.map Glyph.middleX).Nodup)
    (horder : Cluster.Rearranged clusters clusters') :
    ∃ found', found'.Perm found ∧ AreReadAs ratio clusters' found' := by
  obtain ⟨reordered, hclusters, hglyphs⟩ := horder
  obtain ⟨found', hread, hfound⟩ := List.perm_comp_forall₂ hclusters.symm h
  refine ⟨found', hfound, ?_⟩
  have hcolumns' : ∀ cluster ∈ reordered, (cluster.map Glyph.middleX).Nodup :=
    fun cluster hcluster => hcolumns cluster (hclusters.mem_iff.2 hcluster)
  clear hclusters hfound h
  induction hglyphs generalizing found' with
  | nil => exact hread
  | cons hperm _ ih =>
    cases hread with
    | cons hfirst hrest =>
      obtain ⟨hnodup, hothers⟩ := List.forall_mem_cons.1 hcolumns'
      exact .cons (ofCluster?_perm hperm hnodup hfirst) (ih _ hrest hothers)

/-- Reading does not depend on the order of the clusters, nor on that of the glyphs in a cluster, if
    the glyphs of each cluster are in different columns and the clusters start in different columns.
    There is one word for each cluster with a glyph, and they go strictly from left to right. -/
theorem ofClusters_rearranged
    (hcolumns : ∀ cluster ∈ clusters, (cluster.map Glyph.middleX).Nodup)
    (hstarts : (clusters.filterMap Cluster.startX?).Nodup)
    (horder : Cluster.Rearranged clusters clusters')
    (hfits : NoOverflow (ofClusters clusters ratio)) :
    ∃ words, ofClusters clusters ratio = .ok words ∧ ofClusters clusters' ratio = .ok words ∧
      words.Pairwise (fun v w => v.center.x < w.center.x) ∧
      ∃ read, read.Perm (clusters.filter (· ≠ [])) ∧
        List.Forall₂ (fun cluster word => ofCluster? cluster ratio = .ok (some word)) read
          words := by
  obtain ⟨words, hwords⟩ := (ofClusters_inBounds clusters ratio).exists_ok hfits
  obtain ⟨found, hread, rfl⟩ := ofClusters_eq_ok_iff_areReadAs.1 hwords
  have hnodup : ((found.filterMap id).map fun word => word.center.x).Nodup := by
    rw [hread.map_x]
    exact hstarts
  refine ⟨_, hwords, ?_, sortOn_pairwise_lt _ hnodup, ?_⟩
  · obtain ⟨found', hperm, hread'⟩ := hread.rearranged hcolumns horder
    rw [ofClusters_eq_ok_iff_areReadAs]
    exact ⟨found', hread', (sortOn_eq_of_perm _ (hperm.symm.filterMap id) hnodup).symm⟩
  · have hsorted := sortOn_perm (fun word : Word => word.center.x) (found.filterMap id)
    obtain ⟨read, hwords', hperm⟩ := List.perm_comp_forall₂ hsorted hread.filter.flip
    exact ⟨read, hperm, hwords'.flip⟩

/-- Two lines and an empty cluster. In the second line a wide glyph begins in front of the glyph
    that is read first. -/
private def lines : List Cluster :=
  [[⟨[], [], ⟨0, 0, 8, 12⟩, "a"⟩, ⟨[], [], ⟨10, 0, 8, 12⟩, "b"⟩, ⟨[], [], ⟨50, 0, 8, 12⟩, "c"⟩], [],
    [⟨[], [], ⟨2, 20, 30, 12⟩, "d"⟩, ⟨[], [], ⟨5, 20, 6, 12⟩, "e"⟩]]

private def shuffledLines : List Cluster :=
  [[⟨[], [], ⟨5, 20, 6, 12⟩, "e"⟩, ⟨[], [], ⟨2, 20, 30, 12⟩, "d"⟩],
    [⟨[], [], ⟨50, 0, 8, 12⟩, "c"⟩, ⟨[], [], ⟨0, 0, 8, 12⟩, "a"⟩,
      ⟨[], [], ⟨10, 0, 8, 12⟩, "b"⟩], []]

theorem ofClusters_rearranged_lines :
    (∀ cluster ∈ lines, (cluster.map Glyph.middleX).Nodup) ∧
      (lines.filterMap Cluster.startX?).Nodup ∧ Cluster.Rearranged lines shuffledLines ∧
      ofClusters lines 1 = .ok [⟨"A B  C", ⟨4, 6⟩⟩, ⟨"ED", ⟨8, 26⟩⟩] ∧
      ofClusters shuffledLines 1 = .ok [⟨"A B  C", ⟨4, 6⟩⟩, ⟨"ED", ⟨8, 26⟩⟩] := by
  have hcolumns : ∀ cluster ∈ lines, (cluster.map Glyph.middleX).Nodup := by decide
  have hstarts : (lines.filterMap Cluster.startX?).Nodup := by decide
  have horder : Cluster.Rearranged lines shuffledLines := by
    refine ⟨[lines[2], lines[0], lines[1]], by decide +kernel, ?_⟩
    exact .cons (by decide +kernel) (.cons (by decide +kernel) (.cons (by decide) .nil))
  have hwords : ofClusters lines 1 = .ok [⟨"A B  C", ⟨4, 6⟩⟩, ⟨"ED", ⟨8, 26⟩⟩] := by
    simp only [ofClusters, ofCluster?, sortByX_eq_insertionSort]
    decide +kernel
  obtain ⟨words, hok, hsame, -⟩ :=
    ofClusters_rearranged hcolumns hstarts horder (NoOverflow.of_ok hwords)
  obtain rfl := Except.ok.inj (hwords.symm.trans hok)
  exact ⟨hcolumns, hstarts, horder, hwords, hsame⟩

end Word

end ScoreOverlay
