import ScoreOverlay.Field
import ScoreOverlay.Proofs.Cluster.Ladder
import ScoreOverlay.Proofs.Cluster.Pairing.Selection
import ScoreOverlay.Proofs.Cluster.Reachability
import ScoreOverlay.Proofs.Word.Assembly

namespace ScoreOverlay

namespace Cluster

theorem mean?_inBounds (l : List Int) : InBounds (mean? l) :=
  InBounds.ite (fun _ => InBounds.pure _) fun _ =>
    (Coordinate.sum_inBounds l).bind fun _ _ => InBounds.pure _

theorem allNear_inBounds (middle slack : Int) (values : List Int) :
    InBounds (allNear middle slack values) := by
  refine (Coordinate.sub_inBounds _ _).bind fun _ _ => ?_
  exact (Coordinate.add_inBounds _ _).bind fun _ _ => InBounds.pure _

theorem isUniform_inBounds (cluster : Cluster) : InBounds cluster.isUniform := by
  have hheight : InBounds cluster.hasOneHeight := by
    refine (mean?_inBounds _).bind fun height? _ => ?_
    cases height? with
    | none => exact InBounds.pure _
    | some height => exact allNear_inBounds _ _ _
  have hbaseline : InBounds cluster.hasOneBaseline := by
    refine (mean?_inBounds _).bind fun height? _ => ?_
    cases height? with
    | none => exact InBounds.pure _
    | some height =>
      refine (InBounds.mapM fun g _ => Rect.bottom_inBounds _).bind fun bottoms _ => ?_
      refine (mean?_inBounds _).bind fun level? _ => ?_
      cases level? with
      | none => exact InBounds.pure _
      | some level => exact allNear_inBounds _ _ _
  refine hheight.bind fun holds _ => ?_
  cases holds with
  | true => exact InBounds.pure _
  | false => exact hbaseline

end Cluster

/-- A field's clusters are some of those there are, in their order and as they are. -/
theorem Field.select_ensures (field : Field) (clusters : List Cluster) (frame : Frame)
    (threshold : Binary.Scalar) :
    Ensures (field.select clusters frame threshold) fun kept => kept.Sublist clusters := by
  have hsymmetric (preference : Preference) :
      Ensures (Cluster.selectSymmetric clusters frame preference threshold)
        fun kept => kept.Sublist clusters := by
    refine (Cluster.selectSymmetric_ensures clusters frame preference threshold).imp ?_
    rintro kept ⟨_, _, _, _, _, hpairs⟩
    exact hpairs.sublist.trans List.filter_sublist
  cases field with
  | name => exact hsymmetric .mostGlyphs
  | score => exact hsymmetric .tallest
  | clock =>
    exact Ensures.of_ok (Cluster.selectLadder_eq_ok clusters) (Cluster.rungs_sublist clusters)

namespace Settings

/-- The clusters that a field may consist of. -/
def uniformClusters (settings : Settings) (clusters : List Cluster) : Checked (List Cluster) :=
  if settings.uniformOnly then do return (← split Cluster.isUniform clusters).1
  else pure clusters

/-- The stages that the glyphs of a field go through. -/
theorem fieldWords_eq (settings : Settings) (glyphs : List Glyph) (frame : Frame) (field : Field) :
    settings.fieldWords glyphs frame field = (do
      let uniform ← settings.uniformClusters (← Glyph.group glyphs)
      let kept ← field.select uniform frame settings.symmetryThreshold
      Word.ofClusters kept settings.spacingRatio) := by
  unfold fieldWords uniformClusters
  simp only [map_eq_pure_bind]
  cases settings.uniformOnly <;> rfl

theorem uniformClusters_ensures (settings : Settings) (clusters : List Cluster) :
    Ensures (settings.uniformClusters clusters) fun uniform => uniform.Sublist clusters := by
  have hparts : Ensures (split Cluster.isUniform clusters) fun parts =>
      parts.1.Sublist clusters :=
    ⟨InBounds.split fun cluster _ => Cluster.isUniform_inBounds cluster,
      fun _ h => (split_isDivision h).passed_sublist⟩
  refine Ensures.ite (fun _ => ?_) fun _ => Ensures.pure (List.Sublist.refl clusters)
  exact hparts.bind fun parts hsublist => Ensures.pure hsublist

/-- The words of a field are those of some of the clusters, in their order. -/
theorem fieldWords_ensures (settings : Settings) {glyphs : List Glyph} {clusters : List Cluster}
    (hgroup : Glyph.group glyphs = .ok clusters) (frame : Frame) (field : Field) :
    Ensures (settings.fieldWords glyphs frame field) fun words =>
      ∃ kept, kept.Sublist clusters ∧ Word.ofClusters kept settings.spacingRatio = .ok words := by
  rw [fieldWords_eq, hgroup, ok_bind]
  refine (settings.uniformClusters_ensures clusters).bind fun uniform huniform => ?_
  refine (field.select_ensures uniform frame _).bind fun kept hkept => ?_
  exact ⟨Word.ofClusters_inBounds _ _, fun words hwords => ⟨kept, hkept.trans huniform, hwords⟩⟩

theorem allWords_inBounds (settings : Settings) (glyphs : List Glyph) :
    InBounds (settings.allWords glyphs) :=
  (Cluster.group_inBounds _).bind fun _ _ => Word.ofClusters_inBounds _ _

theorem fieldWords_inBounds (settings : Settings) (glyphs : List Glyph) (frame : Frame)
    (field : Field) : InBounds (settings.fieldWords glyphs frame field) := by
  rw [fieldWords_eq]
  refine (Cluster.group_inBounds glyphs).bind fun clusters hgroup => ?_
  have hwords := (settings.fieldWords_ensures hgroup frame field).1
  rwa [fieldWords_eq, hgroup, ok_bind] at hwords

end Settings

/-- Clusters that are left out change nothing about the words of the others or their order. -/
theorem Word.ofClusters_sublist {ratio : Binary.Scalar} {kept clusters : List Cluster}
    {words all : List Word} (hsublist : kept.Sublist clusters)
    (hkept : Word.ofClusters kept ratio = .ok words)
    (hall : Word.ofClusters clusters ratio = .ok all) : words.Sublist all := by
  obtain ⟨found, hfound, rfl⟩ := Word.ofClusters_eq_ok_iff.1 hkept
  obtain ⟨found', hfound', rfl⟩ := Word.ofClusters_eq_ok_iff.1 hall
  have hmap := hsublist.map (Word.ofCluster? · ratio)
  rw [hfound, hfound'] at hmap
  obtain ⟨part, hpart, heq⟩ := List.sublist_map_iff.1 hmap
  obtain rfl := List.map_injective_iff.2 (fun _ _ h => Except.ok.inj h) heq
  exact sortOn_sublist _ (hpart.filterMap id)

end ScoreOverlay
