import ScoreOverlay.Reader
import ScoreOverlay.Proofs.Cluster.Classes
import ScoreOverlay.Proofs.Field.Selection
import ScoreOverlay.Proofs.Glyph.Extraction
import ScoreOverlay.Proofs.Labeling.Answers
import ScoreOverlay.Proofs.Word.Reading

namespace ScoreOverlay

namespace Glyph

variable {kind : PixelKind}

/-- The glyphs in which a character is seen, in their order. -/
def sights (answer : Image kind → String) (image : Image kind) (style : CropStyle)
    (glyphs : List Glyph) : List (Sight glyphs) :=
  (List.finRange glyphs.length).filterMap fun i =>
    ((glyphs.get i).character? answer image style).map (i, ·)

variable {answer : Image kind → String} {image : Image kind} {style : CropStyle}
  {glyphs : List Glyph}

theorem mem_sights {sight : Sight glyphs} :
    sight ∈ sights answer image style glyphs ↔
      (glyphs.get sight.1).character? answer image style = some sight.2 := by
  obtain ⟨i, c⟩ := sight
  simp [sights]

theorem sights_nodup : (sights answer image style glyphs).Nodup := by
  refine (List.nodup_finRange _).filterMap ?_
  intro i j sight hi hj
  obtain ⟨c, -, rfl⟩ := Option.map_eq_some_iff.1 hi
  obtain ⟨d, -, heq⟩ := Option.map_eq_some_iff.1 hj
  exact (congrArg Prod.fst heq).symm

theorem map_labeled_sights :
    (sights answer image style glyphs).map Sight.labeled =
      glyphs.filterMap fun g => (g.character? answer image style).map g.withCharacter := by
  unfold sights
  conv => rhs; rw [← List.map_get_finRange glyphs, List.filterMap_map]
  rw [List.map_filterMap]
  refine List.filterMap_congr fun i _ => ?_
  rw [Option.map_map]
  rfl

end Glyph

/-- The words that glyphs with their characters spell. As a glyph with a character has pixels,
    grouping leaves none out, and as no character ends a line, each is found again in its word. -/
theorem Settings.allWords_isReading {settings : Settings} {kind : PixelKind}
    {answer : Image kind → String} {image : Image kind} {style : CropStyle} {glyphs : List Glyph}
    {words : List Word}
    (h : settings.allWords ((Glyph.sights answer image style glyphs).map Sight.labeled) =
      .ok words) :
    ∃ members : List (List (Sight glyphs)),
      members.flatten.Perm (Glyph.sights answer image style glyphs) ∧
      List.Forall₂ (Word.IsReading settings.spacingRatio) members words ∧
      words.Pairwise fun v w => v.center.x ≤ w.center.x := by
  obtain ⟨clusters, hgroup, hread⟩ := bind_eq_ok_iff.1 h
  obtain ⟨groups, rfl, hpartition, hne⟩ := Cluster.group_map Sight.labeled hgroup
  have hsolid : ∀ sight ∈ Glyph.sights answer image style glyphs, ¬ sight.labeled.rect.IsEmpty :=
    fun sight hsight => Glyph.not_isEmpty_of_character? (Glyph.mem_sights.1 hsight)
  rw [List.filter_eq_self.2 fun sight hsight => decide_eq_true (hsolid sight hsight)] at hpartition
  have hline : ∀ group ∈ groups, ∀ sight ∈ group, sight.2 ≠ '\n' := by
    intro group hgroup sight hsight
    have hmem := hpartition.mem_iff.1 (List.mem_flatten_of_mem hgroup hsight)
    exact Glyph.ne_of_character? (Glyph.mem_sights.1 hmem)
  obtain ⟨members, hflatten, hreadings⟩ := Word.ofClusters_isReading hne hline hread
  exact ⟨members, hflatten.trans hpartition, hreadings, Word.pairwise_of_ofClusters hread⟩

namespace Reader

variable {reader : Reader} {kind : PixelKind} {answer : Image kind → String} {image : Image kind}
  {outlines : List Outline}

/-- What a classifier that only looks at the picture is shown, and what becomes of its answers. -/
theorem labeled_answers
    (hfits : (reader.labeled (fun _ crop => .ok (answer crop)) image outlines).NoOverflow) :
    ∃ glyphs crops, reader.settings.findGlyphs outlines image.frame = .ok glyphs ∧
      reader.labeled (fun _ crop => .ok (answer crop)) image outlines =
        ⟨crops, .ok ((Glyph.sights answer image reader.style glyphs).map Sight.labeled)⟩ ∧
      (glyphs.filter fun g => ¬ (image.crop g.rect).IsEmpty).map (·.prepared image reader.style) =
        crops.map .ok := by
  have hfind : NoOverflow (reader.settings.findGlyphs outlines image.frame) := by
    intro operation herror
    refine hfits operation ?_
    rw [labeled, herror]
  obtain ⟨glyphs, hglyphs⟩ :=
    (reader.settings.findGlyphs_inBounds outlines image.frame).exists_ok hfind
  rw [labeled, hglyphs] at hfits
  obtain ⟨crops, hlabels, hcrops⟩ := Glyph.labelFrom_answers hfits
  refine ⟨glyphs, crops, hglyphs, ?_, hcrops⟩
  rw [labeled, hglyphs, Glyph.map_labeled_sights]
  exact hlabels

/-- No glyph is lost or used twice between the classifier and the words, if the classifier only
    looks at the picture it is shown and never fails. It is shown the glyphs that have pixels in the
    picture. Each of them in which it sees a character is in exactly one word, and the words have no
    other glyphs. A word has at least one glyph, reads as the first characters of the answers from
    left to right, with spaces by the distances of neighbours, and stands at the center of its first
    glyph. The words are in the order of their centers. -/
theorem readWords_accounts
    (hfits : (reader.readWords (fun _ crop => .ok (answer crop)) image outlines).NoOverflow) :
    ∃ (glyphs : List Glyph) (words : List Word) (members : List (List (Sight glyphs))),
      reader.settings.findGlyphs outlines image.frame = .ok glyphs ∧
      (glyphs.filter fun g => ¬ (image.crop g.rect).IsEmpty).map (·.prepared image reader.style) =
        (reader.readWords (fun _ crop => .ok (answer crop)) image outlines).shown.map .ok ∧
      (reader.readWords (fun _ crop => .ok (answer crop)) image outlines).outcome = .ok words ∧
      (∀ sight ∈ Glyph.sights answer image reader.style glyphs,
        ∃! group, group ∈ members ∧ sight ∈ group) ∧
      members.flatten.Perm (Glyph.sights answer image reader.style glyphs) ∧
      List.Forall₂ (Word.IsReading reader.settings.spacingRatio) members words ∧
      words.Pairwise fun v w => v.center.x ≤ w.center.x := by
  obtain ⟨glyphs, crops, hglyphs, hlabeled, hcrops⟩ := labeled_answers hfits.of_andThen
  have houtcome := congrArg Transcript.outcome hlabeled
  obtain ⟨words, hwords⟩ := (Settings.allWords_inBounds _ _).exists_ok (hfits.next houtcome)
  obtain ⟨members, haccounts, hreadings, hsorted⟩ := Settings.allWords_isReading hwords
  have hnodup := haccounts.nodup_iff.2 Glyph.sights_nodup
  refine ⟨glyphs, words, members, hglyphs, ?_, Transcript.andThen_eq_ok houtcome hwords,
    fun sight hsight => ?_, haccounts, hreadings, hsorted⟩
  · rw [hcrops, readWords, Transcript.andThen_shown, hlabeled]
  · exact Cluster.existsUnique_of_flatten_nodup hnodup (haccounts.mem_iff.2 hsight)

/-- Two glyphs on a line, one that nothing is seen in, and one outside the picture. -/
private def letters : List Outline :=
  [[⟨18, 2⟩, ⟨26, 2⟩, ⟨26, 13⟩, ⟨18, 13⟩], [⟨8, 2⟩, ⟨15, 2⟩, ⟨15, 13⟩, ⟨8, 13⟩],
    [⟨40, 2⟩, ⟨49, 2⟩, ⟨49, 13⟩, ⟨40, 13⟩], [⟨90, 2⟩, ⟨97, 2⟩, ⟨97, 13⟩, ⟨90, 13⟩]]

private def paper : Image .gray8 := Image.ofFn 80 16 fun _ _ => Pixel.blank.inverted

private def letterByWidth (crop : Image .gray8) : String :=
  if crop.width = 8 then "a\nx" else if crop.width = 9 then "bc" else ""

private def labeledLetters : List Glyph :=
  [⟨[⟨18, 2⟩, ⟨26, 2⟩, ⟨26, 13⟩, ⟨18, 13⟩], [], ⟨18, 2, 9, 12⟩, "b"⟩,
    ⟨[⟨8, 2⟩, ⟨15, 2⟩, ⟨15, 13⟩, ⟨8, 13⟩], [], ⟨8, 2, 8, 12⟩, "a"⟩]

private def plain : Reader := ⟨{}, Settings.valid_default⟩

theorem readWords_accounts_letters :
    (plain.readWords (fun _ crop => .ok (letterByWidth crop)) paper letters).outcome =
        .ok [⟨"A B", ⟨12, 8⟩⟩] ∧
      ∃ (glyphs : List Glyph) (members : List (List (Sight glyphs))),
        plain.settings.findGlyphs letters paper.frame = .ok glyphs ∧
        members.flatten.Perm (Glyph.sights letterByWidth paper plain.style glyphs) ∧
        List.Forall₂ (Word.IsReading plain.settings.spacingRatio) members [⟨"A B", ⟨12, 8⟩⟩] := by
  have hwords : (plain.readWords (fun _ crop => .ok (letterByWidth crop)) paper letters).outcome =
      .ok [⟨"A B", ⟨12, 8⟩⟩] := by
    have hlabeled : (plain.labeled (fun _ crop => .ok (letterByWidth crop)) paper letters).outcome =
        .ok labeledLetters := by
      decide +kernel
    refine Transcript.andThen_eq_ok hlabeled ?_
    have hgroup : Glyph.group labeledLetters = .ok [labeledLetters.reverse] := by decide +kernel
    rw [Settings.allWords, hgroup, ok_bind]
    simp only [Word.ofClusters, Word.ofCluster?, Word.sortByX_eq_insertionSort]
    decide +kernel
  obtain ⟨glyphs, words, members, hglyphs, -, hok, -, hperm, hreadings, -⟩ :=
    @readWords_accounts plain _ letterByWidth paper letters
      (Transcript.noOverflow_of_isOk (by rw [hwords]; rfl))
  obtain rfl := Except.ok.inj (hwords.symm.trans hok)
  exact ⟨hwords, glyphs, members, hglyphs, hperm, hreadings⟩

end Reader

end ScoreOverlay
