import ScoreOverlay.Proofs.Cluster.Pairing.Shift
import ScoreOverlay.Proofs.Field.Safety
import ScoreOverlay.Proofs.Word.Shift

namespace ScoreOverlay

variable {glyphs : List Glyph} {dx dy : Int} {frame frame' : Frame} {field : Field}

theorem Cluster.staysBelowTop_of_group {clusters : List Cluster}
    (hplace : ∀ g ∈ glyphs, 0 ≤ g.rect.y ∧ 0 ≤ g.rect.y + dy)
    (h : Glyph.group glyphs = .ok clusters) : ∀ cluster ∈ clusters, StaysBelowTop dy cluster := by
  intro cluster hcluster g hg
  have hmem := (subperm_of_group h cluster hcluster).subset hg
  obtain ⟨hg, hsolid⟩ := List.mem_filter.1 hmem
  have hsolid := of_decide_eq_true hsolid
  have hplace := hplace g hg
  unfold Rect.IsEmpty at hsolid
  unfold Glyph.height
  omega

theorem Field.select_lockstep {clusters : List Cluster} (threshold : Binary.Scalar)
    (hfield : field = .clock ∨ field = .score ∧ dx = 0 ∧ frame' = frame)
    (h : ∀ cluster ∈ clusters, Cluster.StaysBelowTop dy cluster) :
    Lockstep (List.map (Cluster.shifted dx dy)) (field.select clusters frame threshold)
      (field.select (clusters.map (Cluster.shifted dx dy)) frame' threshold) := by
  rcases hfield with rfl | ⟨rfl, rfl, rfl⟩
  · exact Cluster.selectLadder_lockstep dx dy clusters
  · exact Cluster.selectSymmetric_lockstep dy h _ threshold

namespace Settings

variable {settings : Settings}

theorem uniformClusters_lockstep {clusters : List Cluster}
    (h : ∀ cluster ∈ clusters, Cluster.StaysBelowTop dy cluster) :
    Lockstep (List.map (Cluster.shifted dx dy)) (settings.uniformClusters clusters)
      (settings.uniformClusters (clusters.map (Cluster.shifted dx dy))) := by
  have hparts : Lockstep
      (Prod.map (List.map (Cluster.shifted dx dy)) (List.map (Cluster.shifted dx dy)))
      (split Cluster.isUniform clusters)
      (split Cluster.isUniform (clusters.map (Cluster.shifted dx dy))) :=
    Lockstep.split fun cluster hcluster => Cluster.isUniform_lockstep dx dy (h cluster hcluster)
  exact Lockstep.ite Iff.rfl (fun _ => hparts.bind fun _ _ => Lockstep.pure rfl) fun _ =>
    Lockstep.pure rfl

theorem fieldWords_lockstep
    (hfield : field = .clock ∨ field = .score ∧ dx = 0 ∧ frame' = frame)
    (hplace : ∀ g ∈ glyphs, 0 ≤ g.rect.y ∧ 0 ≤ g.rect.y + dy) :
    Lockstep (List.map (Word.shifted dx dy)) (settings.fieldWords glyphs frame field)
      (settings.fieldWords (glyphs.map (Glyph.shifted dx dy)) frame' field) := by
  rw [fieldWords_eq, fieldWords_eq]
  refine (Cluster.group_lockstep dx dy glyphs).bind fun clusters hclusters => ?_
  have hstays := Cluster.staysBelowTop_of_group hplace hclusters
  refine (uniformClusters_lockstep hstays).bind fun uniform huniform => ?_
  have hsublist := (settings.uniformClusters_ensures clusters).2 uniform huniform
  have hkept := Field.select_lockstep settings.symmetryThreshold hfield
    fun cluster hcluster => hstays cluster (hsublist.subset hcluster)
  exact hkept.bind fun kept _ => Word.ofClusters_lockstep dx dy kept

/-- Reading the time or points commutes with moving the glyphs. If no row is negative before or
    after the move, then the same texts are read in the same order, each with its center moved as
    well. For the time this holds for every offset and in whatever frames, and for points for every
    offset up or down in one frame, because their clusters are compared across its center line. -/
theorem fieldWords_shifted
    (hfield : field = .clock ∨ field = .score ∧ dx = 0 ∧ frame' = frame)
    (hplace : ∀ g ∈ glyphs, 0 ≤ g.rect.y ∧ 0 ≤ g.rect.y + dy)
    (hfits : NoOverflow (settings.fieldWords glyphs frame field))
    (hfits' : NoOverflow
      (settings.fieldWords (glyphs.map (Glyph.shifted dx dy)) frame' field)) :
    ∃ words, settings.fieldWords glyphs frame field = .ok words ∧
      settings.fieldWords (glyphs.map (Glyph.shifted dx dy)) frame' field =
        .ok (words.map (Word.shifted dx dy)) :=
  (fieldWords_lockstep hfield hplace).exists_ok (fieldWords_inBounds _ _ _ _)
    (fieldWords_inBounds _ _ _ _) hfits hfits'

private def home : Cluster :=
  [⟨[], [], ⟨50, 11, 10, 19⟩, "0"⟩, ⟨[], [], ⟨40, 10, 10, 20⟩, "1"⟩]

private def guests : Cluster :=
  [⟨[], [], ⟨152, 10, 10, 19⟩, "3"⟩, ⟨[], [], ⟨140, 10, 10, 20⟩, "2"⟩]

private def dash : Glyph := ⟨[], [], ⟨95, 40, 10, 8⟩, "-"⟩

/-- Points on both sides of a center line, with something between them that nothing mirrors. -/
private def board : List Glyph := home.reverse ++ dash :: guests.reverse

private def uniform : Settings := { uniformOnly := true }

private theorem fieldWords_board :
    uniform.fieldWords board ⟨200, 100⟩ .score =
      .ok [⟨"10", ⟨45, 20⟩⟩, ⟨"2 3", ⟨145, 20⟩⟩] := by
  have hgroup : Glyph.group board = .ok [guests, [dash], home] := by decide +kernel
  have huniform : uniform.uniformClusters [guests, [dash], home] =
      .ok [guests, [dash], home] := by decide +kernel
  have hselect : Field.score.select [guests, [dash], home] ⟨200, 100⟩ uniform.symmetryThreshold =
      .ok [guests, home] := by decide +kernel
  rw [fieldWords_eq, hgroup, ok_bind, huniform, ok_bind, hselect, ok_bind]
  simp only [Word.ofClusters, Word.ofCluster?, Word.sortByX_eq_insertionSort]
  decide +kernel

/-- The points read the same 30 rows further down, and the time also further to the right in a
    larger frame. -/
theorem fieldWords_shifted_board :
    (uniform.fieldWords board ⟨200, 100⟩ .score =
          .ok [⟨"10", ⟨45, 20⟩⟩, ⟨"2 3", ⟨145, 20⟩⟩] ∧
        uniform.fieldWords (board.map (Glyph.shifted 0 30)) ⟨200, 100⟩ .score =
          .ok [⟨"10", ⟨45, 50⟩⟩, ⟨"2 3", ⟨145, 50⟩⟩]) ∧
      ∃ words, ({} : Settings).fieldWords board ⟨200, 100⟩ .clock = .ok words ∧
        ({} : Settings).fieldWords (board.map (Glyph.shifted 7 30)) ⟨320, 180⟩ .clock =
          .ok (words.map (Word.shifted 7 30)) := by
  have hboard : Glyph.AreSafe board := ⟨by decide, by decide⟩
  have hdown : Glyph.AreSafe (board.map (Glyph.shifted 0 30)) := ⟨by decide, by decide⟩
  have haway : Glyph.AreSafe (board.map (Glyph.shifted 7 30)) := ⟨by decide, by decide⟩
  have hframe : Frame.IsSafe ⟨200, 100⟩ := ⟨by decide, by decide⟩
  have hframe' : Frame.IsSafe ⟨320, 180⟩ := ⟨by decide, by decide⟩
  refine ⟨⟨fieldWords_board, ?_⟩, ?_⟩
  · obtain ⟨words, hwords, hmoved⟩ :=
      @fieldWords_shifted board 0 30 ⟨200, 100⟩ ⟨200, 100⟩ .score uniform
        (.inr ⟨rfl, rfl, rfl⟩) (by decide) (fieldWords_noOverflow hboard hframe _)
        (fieldWords_noOverflow hdown hframe _)
    rw [fieldWords_board] at hwords
    cases hwords
    exact hmoved
  · exact fieldWords_shifted (.inl rfl) (by decide) (fieldWords_noOverflow hboard hframe _)
      (fieldWords_noOverflow haway hframe' _)

end Settings

end ScoreOverlay
