import ScoreOverlay.Proofs.Cluster.Shift
import ScoreOverlay.Proofs.Word.Assembly

namespace ScoreOverlay

/-- An order does not depend on where the places are counted from. -/
theorem sortOn_add {α : Type} (key : α → Int) (offset : Int) (l : List α) :
    sortOn (fun a => key a + offset) l = sortOn key l := by
  unfold sortOn
  congr 1
  funext a b
  simp

variable (dx dy : Int)

/-- The same text at the moved place. -/
def Word.shifted (word : Word) : Word := { word with center := word.center.shifted dx dy }

namespace Glyph

theorem middleX_shifted (g : Glyph) : (g.shifted dx dy).middleX = g.middleX + dx :=
  Int.add_right_comm _ _ _

theorem spaceBetween_lockstep (left right : Glyph) (ratio : Binary.Scalar) :
    Lockstep id (left.spaceBetween right ratio)
      ((left.shifted dx dy).spaceBetween (right.shifted dx dy) ratio) := by
  refine (Rect.right_lockstep dx dy left.rect).bind fun edge _ => ?_
  simp only [shifted, Rect.shifted, Coordinate.sub_add_add]
  exact Lockstep.rfl

end Glyph

namespace Word

variable {ratio : Binary.Scalar}

theorem spell_lockstep (glyphs : List Glyph) :
    Lockstep id (spell ratio glyphs) (spell ratio (glyphs.map (Glyph.shifted dx dy))) := by
  induction glyphs with
  | nil => exact Lockstep.rfl
  | cons g rest ih =>
    cases rest with
    | nil => exact Lockstep.rfl
    | cons next rest =>
      refine (Glyph.spaceBetween_lockstep dx dy g next ratio).bind fun _ _ => ?_
      exact ih.bind fun _ _ => Lockstep.rfl

/-- Glyphs that are moved together are read in the same order. -/
theorem sortOn_middleX_shifted (cluster : Cluster) :
    sortOn Glyph.middleX (cluster.shifted dx dy) =
      (sortOn Glyph.middleX cluster).map (Glyph.shifted dx dy) := by
  rw [Cluster.shifted, ← sortOn_map]
  simp only [Glyph.middleX_shifted, sortOn_add]

theorem ofCluster?_lockstep (cluster : Cluster) :
    Lockstep (Option.map (shifted dx dy)) (ofCluster? cluster ratio)
      (ofCluster? (cluster.shifted dx dy) ratio) := by
  intro word? word?' h h'
  have hread := ofCluster?_eq_ok h
  have hread' := ofCluster?_eq_ok h'
  rw [sortOn_middleX_shifted] at hread'
  cases hitems : sortOn Glyph.middleX cluster with
  | nil =>
    rw [hitems] at hread hread'
    obtain rfl := hread
    exact hread'
  | cons first rest =>
    rw [hitems] at hread hread'
    obtain ⟨text, center, htext, hcenter, rfl⟩ := hread
    obtain ⟨text', center', htext', hcenter', rfl⟩ := hread'
    obtain rfl := spell_lockstep dx dy (first :: rest) text text' htext htext'
    obtain rfl := Rect.center_lockstep dx dy first.rect center center' hcenter hcenter'
    rfl

/-- Clusters that are moved together give the same texts in the same order. -/
theorem ofClusters_lockstep (clusters : List Cluster) :
    Lockstep (List.map (shifted dx dy)) (ofClusters clusters ratio)
      (ofClusters (clusters.map (Cluster.shifted dx dy)) ratio) := by
  have hfound : Lockstep (List.map (Option.map (shifted dx dy)))
      (clusters.mapM (ofCluster? · ratio))
      ((clusters.map (Cluster.shifted dx dy)).mapM (ofCluster? · ratio)) :=
    Lockstep.mapM fun cluster _ => ofCluster?_lockstep dx dy cluster
  refine hfound.bind fun found _ => Lockstep.pure ?_
  have hwords : (found.map (Option.map (shifted dx dy))).filterMap id =
      (found.filterMap id).map (shifted dx dy) := by
    rw [List.filterMap_map, List.map_filterMap]
    rfl
  rw [map_snd_sortByX_center, map_snd_sortByX_center, hwords, ← sortOn_map]
  exact congrArg _ (sortOn_add (fun word : Word => word.center.x) dx _)

end Word

end ScoreOverlay
