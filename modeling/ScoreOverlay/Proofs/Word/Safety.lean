import ScoreOverlay.Proofs.Glyph.Safety
import ScoreOverlay.Proofs.Word.Assembly

namespace ScoreOverlay

theorem Glyph.spaceBetween_noOverflow {left right : Glyph} (ratio : Binary.Scalar)
    (hleft : left.rect.IsWithin Rect.safeArea) (hright : right.rect.IsWithin Rect.safeArea) :
    NoOverflow (left.spaceBetween right ratio) := by
  have := Rect.isWithin_safeArea_iff.1 hleft
  have := Rect.isWithin_safeArea_iff.1 hright
  unfold spaceBetween
  simp only [Rect.right_eq_ok hleft, ok_bind]
  refine (Coordinate.sub_noOverflow (by omega) (by omega)).bind fun _ _ => ?_
  refine NoOverflow.ite (fun _ => NoOverflow.pure _) fun _ => ?_
  exact NoOverflow.ite (fun _ => NoOverflow.pure _) fun _ => NoOverflow.pure _

namespace Word

variable {ratio : Binary.Scalar}

theorem spell_noOverflow {glyphs : List Glyph}
    (h : ∀ g ∈ glyphs, g.rect.IsWithin Rect.safeArea) : NoOverflow (spell ratio glyphs) := by
  induction glyphs with
  | nil => exact NoOverflow.pure _
  | cons g rest ih =>
    obtain ⟨hg, hrest⟩ := List.forall_mem_cons.1 h
    cases rest with
    | nil => exact NoOverflow.pure _
    | cons next rest =>
      refine (Glyph.spaceBetween_noOverflow ratio hg (hrest next List.mem_cons_self)).bind
        fun _ _ => ?_
      exact (ih hrest).bind fun _ _ => NoOverflow.pure _

theorem ofCluster?_noOverflow {cluster : Cluster}
    (h : ∀ g ∈ cluster, g.rect.IsWithin Rect.safeArea) :
    NoOverflow (ofCluster? cluster ratio) := by
  refine (NoOverflow.mapM fun g hg => Rect.center_noOverflow (h g hg)).bind fun centers _ => ?_
  -- Sorting keeps the glyphs of the cluster.
  have hmembers : ∀ item ∈ sortByX (centers.zip cluster), item.2.rect.IsWithin Rect.safeArea :=
    fun item hitem => h _ (List.of_mem_zip ((sortOn_perm _ _).mem_iff.1 hitem)).2
  split
  · exact NoOverflow.pure _
  · rename_i center first rest hitems
    rw [hitems] at hmembers
    refine (spell_noOverflow fun g hg => ?_).bind fun _ _ => NoOverflow.pure _
    have hg : g ∈ ((center, first) :: rest).map Prod.snd := hg
    obtain ⟨item, hitem, rfl⟩ := List.mem_map.1 hg
    exact hmembers item hitem

theorem ofClusters_noOverflow {clusters : List Cluster}
    (h : ∀ cluster ∈ clusters, Glyph.AreSafe cluster) :
    NoOverflow (ofClusters clusters ratio) :=
  (NoOverflow.mapM fun cluster hcluster => ofCluster?_noOverflow (h cluster hcluster).within).bind
    fun _ _ => NoOverflow.pure _

end Word

end ScoreOverlay
