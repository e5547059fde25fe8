import ScoreOverlay.Proofs.Cluster.Pairing.Safety
import ScoreOverlay.Proofs.Field.Selection
import ScoreOverlay.Proofs.Word.Safety

namespace ScoreOverlay

theorem Field.select_noOverflow {field : Field} {clusters : List Cluster} {frame : Frame}
    (threshold : Binary.Scalar) (h : ∀ cluster ∈ clusters, Glyph.AreSafe cluster)
    (hframe : frame.IsSafe) : NoOverflow (field.select clusters frame threshold) := by
  cases field with
  | name => exact Cluster.selectSymmetric_noOverflow h hframe .mostGlyphs threshold
  | score => exact Cluster.selectSymmetric_noOverflow h hframe .tallest threshold
  | clock => exact NoOverflow.of_ok (Cluster.selectLadder_eq_ok clusters)

namespace Settings

variable {settings : Settings} {glyphs : List Glyph}

theorem allWords_noOverflow (h : Glyph.AreSafe glyphs) : NoOverflow (settings.allWords glyphs) := by
  refine (Cluster.group_noOverflow h).bind fun clusters hclusters => ?_
  exact Word.ofClusters_noOverflow (Cluster.areSafe_of_group h hclusters)

theorem exists_allWords (h : Glyph.AreSafe glyphs) :
    ∃ words, settings.allWords glyphs = .ok words :=
  (settings.allWords_inBounds glyphs).exists_ok (allWords_noOverflow h)

theorem uniformClusters_noOverflow {clusters : List Cluster}
    (h : ∀ cluster ∈ clusters, Glyph.AreSafe cluster) :
    NoOverflow (settings.uniformClusters clusters) := by
  have hparts : NoOverflow (split Cluster.isUniform clusters) :=
    NoOverflow.split fun cluster hcluster => Cluster.isUniform_noOverflow (h cluster hcluster)
  exact NoOverflow.ite (fun _ => hparts.bind fun _ _ => NoOverflow.pure _) fun _ =>
    NoOverflow.pure _

theorem fieldWords_noOverflow {frame : Frame} (h : Glyph.AreSafe glyphs) (hframe : frame.IsSafe)
    (field : Field) : NoOverflow (settings.fieldWords glyphs frame field) := by
  rw [fieldWords_eq]
  refine (Cluster.group_noOverflow h).bind fun clusters hclusters => ?_
  have hsafe := Cluster.areSafe_of_group h hclusters
  refine (uniformClusters_noOverflow hsafe).bind fun uniform huniform => ?_
  have huniformSublist := (settings.uniformClusters_ensures clusters).2 uniform huniform
  have huniformSafe : ∀ cluster ∈ uniform, Glyph.AreSafe cluster :=
    fun cluster hcluster => hsafe cluster (huniformSublist.subset hcluster)
  refine (Field.select_noOverflow _ huniformSafe hframe).bind fun kept hkept => ?_
  have hkeptSublist := (field.select_ensures uniform frame _).2 kept hkept
  exact Word.ofClusters_noOverflow fun cluster hcluster =>
    huniformSafe cluster (hkeptSublist.subset hcluster)

theorem exists_fieldWords {frame : Frame} (h : Glyph.AreSafe glyphs) (hframe : frame.IsSafe)
    (field : Field) : ∃ words, settings.fieldWords glyphs frame field = .ok words :=
  (settings.fieldWords_inBounds glyphs frame field).exists_ok (fieldWords_noOverflow h hframe field)

end Settings

end ScoreOverlay
