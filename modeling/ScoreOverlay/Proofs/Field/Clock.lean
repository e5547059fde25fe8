import ScoreOverlay.Proofs.Field.Selection
import ScoreOverlay.Proofs.Glyph.Neighbours

namespace ScoreOverlay

/-- Glyphs with pixels from top to bottom, each one at least the greatest height of all of them
    further down than the one before. -/
structure IsLadder (glyphs : List Glyph) : Prop where
  solid : ∀ g ∈ glyphs, ¬ g.rect.IsEmpty
  spaced : glyphs.IsChain fun g next => ∀ other ∈ glyphs, g.rect.y + other.height ≤ next.rect.y

/-- The word is what the glyph alone reads as. -/
def Glyph.ReadsAs (g : Glyph) (word : Word) : Prop :=
  word.text = String.ofList (Text.uppercase g.label) ∧ g.center = .ok word.center

namespace Cluster

/-- Glyphs that are not near to any glyph before them stay alone. As clusters start from the end
    of the list, these are in its reverse order. -/
theorem collect_eq_singletons {pool : List Glyph} {clusters : List Cluster}
    (hapart : pool.Pairwise fun g later => later.neighbours g ≠ .ok true)
    (h : collect pool = .ok clusters) : clusters = pool.reverse.map ([·]) := by
  induction pool using List.reverseRecOn generalizing clusters with
  | nil =>
    rw [collect] at h
    cases h
    rfl
  | append_singleton rest seed ih =>
    obtain ⟨hrest, -, hseed⟩ := List.pairwise_append.1 hapart
    rw [collect_concat] at h
    obtain ⟨⟨cluster, left⟩, hgrow, h⟩ := bind_eq_ok_iff.1 h
    obtain ⟨later, hlater, h⟩ := bind_eq_ok_iff.1 h
    cases h
    rw [grow_eq] at hgrow
    obtain ⟨⟨admitted, failed⟩, hsplit, hgrow⟩ := bind_eq_ok_iff.1 hgrow
    dsimp only at hgrow
    split at hgrow
    · cases hgrow
      rw [ih hrest hlater]
      simp
    · rename_i hadmitted
      obtain ⟨first, hfirst⟩ := List.exists_mem_of_ne_nil _ hadmitted
      obtain ⟨member, hmember, hnear⟩ :=
        anyM_eq_ok_true ((split_isDivision hsplit).holds first hfirst)
      obtain rfl := List.mem_singleton.1 hmember
      have hrest := (split_isDivision hsplit).passed_sublist.subset hfirst
      exact absurd hnear (hseed first hrest _ List.mem_cons_self)

end Cluster

namespace IsLadder

variable {glyphs : List Glyph}

theorem height_pos (h : IsLadder glyphs) {g : Glyph} (hg : g ∈ glyphs) : 0 < g.height := by
  have hsolid := h.solid g hg
  unfold Rect.IsEmpty at hsolid
  unfold Glyph.height
  omega

/-- Every glyph keeps the distance from all those below it. -/
theorem pairwise (h : IsLadder glyphs) :
    glyphs.Pairwise fun g next => ∀ other ∈ glyphs, g.rect.y + other.height ≤ next.rect.y := by
  have htrans : IsTrans Glyph fun g next =>
      ∀ other ∈ glyphs, g.rect.y + other.height ≤ next.rect.y := by
    refine ⟨fun g next after hfirst hsecond other hother => ?_⟩
    have hpos := h.height_pos hother
    have hfirst := hfirst other hother
    have hsecond := hsecond other hother
    omega
  exact h.spaced.pairwise

/-- No glyph is near to another one, as the tops are too far apart. -/
theorem apart (h : IsLadder glyphs) :
    glyphs.Pairwise fun g next =>
      next.neighbours g ≠ .ok true ∧ g.neighbours next ≠ .ok true := by
  refine h.pairwise.imp_of_mem fun {g next} hg hnext hspaced => ⟨fun hnear => ?_, fun hnear => ?_⟩
  · have hlt := Glyph.natAbs_lt_of_neighbours hnear
    have hle := hspaced next hnext
    omega
  · have hlt := Glyph.natAbs_lt_of_neighbours hnear
    have hle := hspaced g hg
    omega

theorem top_lt (h : IsLadder glyphs) : glyphs.Pairwise fun g next => g.rect.y < next.rect.y := by
  refine h.pairwise.imp_of_mem fun {g next} hg _ hspaced => ?_
  have hpos := h.height_pos hg
  have hle := hspaced g hg
  omega

/-- Among rows that are listed from the bottom up, each has the top one behind it. -/
theorem rungs_reverse (h : IsLadder glyphs) :
    Cluster.rungs (glyphs.reverse.map ([·])) = (glyphs.take 1).map ([·]) := by
  cases glyphs with
  | nil => rfl
  | cons top rest =>
    rw [List.reverse_cons, List.map_append]
    refine Cluster.rungs_eq_last fun cluster hcluster g hg => ?_
    obtain ⟨row, hrow, rfl⟩ := List.mem_map.1 hcluster
    cases hg
    exact List.rel_of_pairwise_cons h.top_lt (List.mem_reverse.1 hrow)

theorem rungs_eq_self (h : IsLadder glyphs) :
    Cluster.rungs (glyphs.map ([·])) = glyphs.map ([·]) := by
  refine Cluster.rungs_eq_self ?_ ?_
  · intro cluster hcluster
    obtain ⟨g, -, rfl⟩ := List.mem_map.1 hcluster
    exact List.cons_ne_nil g []
  · refine List.pairwise_map.2 (h.top_lt.imp fun {g next} hlt => ?_)
    rintro _ ⟨⟩ _ ⟨⟩
    exact Int.le_of_lt hlt

end IsLadder

theorem Glyph.group_eq_singletons {glyphs : List Glyph} {clusters : List Cluster}
    (hsolid : ∀ g ∈ glyphs, ¬ g.rect.IsEmpty)
    (hapart : glyphs.Pairwise fun g later => later.neighbours g ≠ .ok true)
    (h : Glyph.group glyphs = .ok clusters) : clusters = glyphs.reverse.map ([·]) := by
  unfold Glyph.group at h
  rw [List.filter_eq_self.2 fun g hg => decide_eq_true (hsolid g hg)] at h
  exact Cluster.collect_eq_singletons hapart h

namespace Word

variable {ratio : Binary.Scalar}

theorem readsAs_of_ofCluster? {g : Glyph} {word? : Option Word}
    (h : ofCluster? [g] ratio = .ok word?) : ∃ word, word? = some word ∧ g.ReadsAs word := by
  have hread := ofCluster?_eq_ok h
  rw [sortOn_singleton] at hread
  obtain ⟨text, center, htext, hcenter, rfl⟩ := hread
  cases htext
  exact ⟨_, rfl, rfl, hcenter⟩

/-- Glyphs that stand alone all give a word. -/
theorem ofClusters_singletons {glyphs : List Glyph} {words : List Word}
    (h : ofClusters (glyphs.map ([·])) ratio = .ok words) :
    ∃ read, List.Forall₂ Glyph.ReadsAs glyphs read ∧ words.Perm read := by
  refine exists_forall₂_of_ofClusters (fun g _ word? hword => ?_) h
  exact readsAs_of_ofCluster? hword

end Word

namespace Settings

variable {settings : Settings}

theorem fieldWords_clock (huniform : settings.uniformOnly = false) (glyphs : List Glyph)
    (frame : Frame) :
    settings.fieldWords glyphs frame .clock = (do
      let clusters ← Glyph.group glyphs
      Word.ofClusters (Cluster.rungs clusters) settings.spacingRatio) := by
  unfold fieldWords Field.select
  simp only [huniform, Cluster.selectLadder_eq_ok, ok_bind]
  rfl

/-- The words of a clock whose glyphs are all apart from each other. -/
theorem ofClusters_of_fieldWords_clock {glyphs : List Glyph} {frame : Frame} {words : List Word}
    (huniform : settings.uniformOnly = false) (hsolid : ∀ g ∈ glyphs, ¬ g.rect.IsEmpty)
    (hapart : glyphs.Pairwise fun g later => later.neighbours g ≠ .ok true)
    (h : settings.fieldWords glyphs frame .clock = .ok words) :
    Word.ofClusters (Cluster.rungs (glyphs.reverse.map ([·]))) settings.spacingRatio =
      .ok words := by
  rw [fieldWords_clock huniform] at h
  obtain ⟨clusters, hgroup, hwords⟩ := bind_eq_ok_iff.1 h
  obtain rfl := Glyph.group_eq_singletons hsolid hapart hgroup
  exact hwords

/-- What is read of a clock whose rows are single glyphs depends on the order in which they are
    listed. If the top row is the first, then clusters are found from the bottom up, every row but
    the top one has a higher one behind it, and only the top row is read. If the bottom row is the
    first, every row is read. -/
theorem fieldWords_clock_ladder {glyphs : List Glyph} {frame : Frame}
    (huniform : settings.uniformOnly = false) (hladder : IsLadder glyphs)
    (hdown : NoOverflow (settings.fieldWords glyphs frame .clock))
    (hup : NoOverflow (settings.fieldWords glyphs.reverse frame .clock)) :
    (∃ words, settings.fieldWords glyphs frame .clock = .ok words ∧
        List.Forall₂ Glyph.ReadsAs (glyphs.take 1) words) ∧
      ∃ words read, settings.fieldWords glyphs.reverse frame .clock = .ok words ∧
        List.Forall₂ Glyph.ReadsAs glyphs read ∧ words.Perm read := by
  obtain ⟨words, hwords⟩ := (fieldWords_inBounds settings _ _ _).exists_ok hdown
  obtain ⟨words', hwords'⟩ := (fieldWords_inBounds settings _ _ _).exists_ok hup
  refine ⟨⟨words, hwords, ?_⟩, words', ?_⟩
  · have hread := ofClusters_of_fieldWords_clock huniform hladder.solid
      (hladder.apart.imp fun hfar => hfar.1) hwords
    rw [hladder.rungs_reverse] at hread
    obtain ⟨read, hforall, hperm⟩ := Word.ofClusters_singletons hread
    -- With one cluster at most there is nothing to sort.
    cases glyphs with
    | nil =>
      obtain rfl := List.forall₂_nil_left_iff.1 hforall
      obtain rfl := hperm.eq_nil
      exact List.Forall₂.nil
    | cons top rest =>
      cases hforall with
      | cons htop hrest =>
        cases hrest
        obtain rfl := List.perm_singleton.1 hperm
        exact List.Forall₂.cons htop List.Forall₂.nil
  · have hread := ofClusters_of_fieldWords_clock huniform
      (fun g hg => hladder.solid g (List.mem_reverse.1 hg))
      (List.pairwise_reverse.2 (hladder.apart.imp fun hfar => hfar.2)) hwords'
    rw [List.reverse_reverse, hladder.rungs_eq_self] at hread
    obtain ⟨read, hforall, hperm⟩ := Word.ofClusters_singletons hread
    exact ⟨read, hwords', hforall, hperm⟩

/-- Three rows, the top one first. -/
private def rows : List Glyph :=
  [⟨[], [], ⟨10, 10, 8, 12⟩, "1"⟩, ⟨[], [], ⟨10, 30, 8, 12⟩, "2"⟩, ⟨[], [], ⟨10, 50, 8, 12⟩, "3"⟩]

private theorem rows_isLadder : IsLadder rows := ⟨by decide, by decide⟩

theorem fieldWords_clock_ladder_rows :
    (∃ words, ({} : Settings).fieldWords rows ⟨200, 100⟩ .clock = .ok words ∧
        List.Forall₂ Glyph.ReadsAs [⟨[], [], ⟨10, 10, 8, 12⟩, "1"⟩] words) ∧
      ∃ words read, ({} : Settings).fieldWords rows.reverse ⟨200, 100⟩ .clock = .ok words ∧
        List.Forall₂ Glyph.ReadsAs rows read ∧ words.Perm read :=
  fieldWords_clock_ladder rfl rows_isLadder (by decide +kernel) (by decide +kernel)

/-- A ladder with its top row first need not give a word for each row. -/
theorem fieldWords_clock_incomplete :
    ¬ ∀ (settings : Settings) (glyphs : List Glyph) (frame : Frame),
      settings.uniformOnly = false → IsLadder glyphs → (∀ g ∈ glyphs, g.label ≠ []) →
        NoOverflow (settings.fieldWords glyphs frame .clock) →
          ∃ words, settings.fieldWords glyphs frame .clock = .ok words ∧
            words.length = glyphs.length := by
  intro hcomplete
  have honly : ({} : Settings).fieldWords rows ⟨200, 100⟩ .clock = .ok [⟨"1", ⟨14, 16⟩⟩] := by
    decide +kernel
  obtain ⟨words, hwords, hlength⟩ :=
    hcomplete {} rows ⟨200, 100⟩ rfl rows_isLadder (by decide +kernel) (by decide +kernel)
  rw [honly] at hwords
  cases hwords
  exact absurd hlength (by decide)

end Settings

end ScoreOverlay
