import ScoreOverlay.Reader
import ScoreOverlay.Proofs.Field.Safety
import ScoreOverlay.Proofs.Image.Safety
import ScoreOverlay.Proofs.Labeling.Transcript

namespace ScoreOverlay

namespace Glyph

variable {kind : PixelKind} {classify : Classifier kind} {image : Image kind} {style : CropStyle}
  {glyphs : List Glyph}

/-- With a safe picture, labeling can only fail because of the classifier. -/
theorem labelAll_ne_fault (himage : image.IsSafe) (hglyphs : AreSafe glyphs)
    (hpoints : ∀ g ∈ glyphs, ∀ o ∈ g.outlines, ∀ p ∈ o, Rect.safeArea.Covers p) (fault : Fault) :
    (labelAll classify image style glyphs).outcome ≠ .error (.fault fault) := by
  intro h
  obtain ⟨asked, rest, crops, hasked, -, -, -, hstops⟩ :=
    @labelFrom_asks _ classify image style [] glyphs
  rw [labelAll] at h
  rw [h] at hstops
  cases hstops with
  | faulted hrest hfault =>
    rename_i g later
    have hg : g ∈ glyphs := by
      have hmem : g ∈ asked ++ rest := by simp [hrest]
      rw [← hasked] at hmem
      exact (List.mem_filter.1 hmem).1
    obtain ⟨crop, hcrop⟩ := (g.prepared_inBounds image style).exists_ok
      (g.prepared_noOverflow style himage (hglyphs.within g hg) (hpoints g hg))
    rw [hcrop] at hfault
    cases hfault

theorem AreSafe.labelAll {labeled : List Glyph} (h : AreSafe glyphs)
    (hlabeled : (labelAll classify image style glyphs).outcome = .ok labeled) :
    AreSafe labeled := by
  have hrects := rects_sublist_of_labelFrom hlabeled
  refine ⟨?_, fun g hg => ?_⟩
  · have hlength := hrects.length_le
    rw [List.length_map, List.length_map] at hlength
    exact hlength.trans h.count
  · obtain ⟨found, hfound, hrect⟩ := List.mem_map.1 (hrects.subset (List.mem_map_of_mem hg))
    rw [← hrect]
    exact h.within found hfound

end Glyph

/-- What is found lies in the safe area with all of its outlines. -/
theorem Settings.exists_findGlyphs {settings : Settings} {outlines : List Outline} {frame : Frame}
    (hmargin : settings.margin ≤ 65536) (hcount : outlines.length ≤ 4096)
    (hcovers : ∀ o ∈ outlines, ∀ p ∈ o, Rect.safeArea.Covers p) (hframe : frame.IsSafe) :
    ∃ glyphs, settings.findGlyphs outlines frame = .ok glyphs ∧ Glyph.AreSafe glyphs ∧
      ∀ g ∈ glyphs, ∀ o ∈ g.outlines, ∀ p ∈ o, Rect.safeArea.Covers p := by
  obtain ⟨glyphs, hglyphs⟩ := (settings.findGlyphs_inBounds outlines frame).exists_ok
    (Settings.findGlyphs_noOverflow hmargin hframe hcovers)
  refine ⟨glyphs, hglyphs, Settings.areSafe_of_findGlyphs hframe hcount hcovers hglyphs,
    fun g hg o ho => hcovers o ?_⟩
  exact Settings.outlines_subset_of_findGlyphs hglyphs g hg ho

namespace Reader

/-- Nothing ever leaves the coordinate range or points outside a list, as long as there are at most
    4096 outlines with all coordinates from -65536 to 65536, the margin is at most 65536 and the
    pictures and frames are at most 65536 pixels wide and high. Glyphs are then found, only the
    classifier can make labeling fail, and the words of every field are found, also if the glyphs
    are labeled from another picture or read in another frame. -/
theorem safe_never_faults {reader : Reader} {outlines : List Outline}
    (hmargin : reader.settings.margin ≤ 65536) (hcount : outlines.length ≤ 4096)
    (hpoints : ∀ o ∈ outlines, ∀ p ∈ o, (-65536 ≤ p.x ∧ p.x ≤ 65536) ∧ -65536 ≤ p.y ∧ p.y ≤ 65536) :
    (∀ frame : Frame, frame.IsSafe →
      ∃ glyphs, reader.settings.findGlyphs outlines frame = .ok glyphs ∧
        ∀ (kind : PixelKind) (classify : Classifier kind) (image : Image kind) (style : CropStyle),
          image.IsSafe →
          (∀ fault, (Glyph.labelAll classify image style glyphs).outcome ≠
            .error (.fault fault)) ∧
          ∀ labeled, (Glyph.labelAll classify image style glyphs).outcome = .ok labeled →
            ∀ (other : Frame) (field : Field), other.IsSafe →
              ∃ words, reader.settings.fieldWords labeled other field = .ok words) ∧
    ∀ (kind : PixelKind) (classify : Classifier kind) (image : Image kind), image.IsSafe →
      (∀ fault, (reader.readWords classify image outlines).outcome ≠ .error (.fault fault)) ∧
        ∀ field fault, (reader.readField classify image outlines field).outcome ≠
          .error (.fault fault) := by
  have hcovers : ∀ o ∈ outlines, ∀ p ∈ o, Rect.safeArea.Covers p := by
    intro o ho p hp
    have := hpoints o ho p hp
    simp only [Rect.Covers, Rect.safeArea]
    omega
  refine ⟨fun frame hframe => ?_, fun kind classify image himage => ?_⟩
  · obtain ⟨glyphs, hglyphs, hsafe, hpoints⟩ :=
      Settings.exists_findGlyphs hmargin hcount hcovers hframe
    exact ⟨glyphs, hglyphs, fun kind classify image style himage =>
      ⟨Glyph.labelAll_ne_fault himage hsafe hpoints, fun labeled hlabeled other field hother =>
        Settings.exists_fieldWords (hsafe.labelAll hlabeled) hother field⟩⟩
  · obtain ⟨glyphs, hglyphs, hsafe, hpoints⟩ :=
      Settings.exists_findGlyphs hmargin hcount hcovers himage.frame
    have hlabeled : reader.labeled classify image outlines =
        Glyph.labelAll classify image reader.style glyphs := by
      rw [labeled, hglyphs]
    have hnone : ∀ fault, (reader.labeled classify image outlines).outcome ≠
        .error (.fault fault) := by
      rw [hlabeled]
      exact Glyph.labelAll_ne_fault himage hsafe hpoints
    refine ⟨fun fault => Transcript.andThen_ne_fault hnone (fun labels hlabels => ?_) fault,
      fun field fault => Transcript.andThen_ne_fault hnone (fun labels hlabels => ?_) fault⟩
    · rw [hlabeled] at hlabels
      exact Settings.exists_allWords (hsafe.labelAll hlabels)
    · rw [hlabeled] at hlabels
      exact Settings.exists_fieldWords (hsafe.labelAll hlabels) himage.frame field

/-- The corners of the whole area that outlines may lie in. -/
private def wholeArea : List Outline :=
  [[⟨-65536, -65536⟩, ⟨65536, -65536⟩, ⟨65536, 65536⟩, ⟨-65536, 65536⟩]]

private def widest : Reader :=
  ⟨{ margin := 65536
     limits := { maxArea := 100000000000, maxHeight := 200000, maxWidth := 200000 } },
    by decide +kernel⟩

theorem safe_never_faults_wholeArea :
    (∃ glyphs, widest.settings.findGlyphs wholeArea ⟨65536, 65536⟩ = .ok glyphs ∧
      glyphs.map Glyph.rect = [⟨0, 0, 65535, 65535⟩]) ∧
      ∀ (classify : Classifier .gray8) (field : Field) (fault : Fault),
        (widest.readField classify (Image.ofFn 9 9 fun _ _ => Pixel.blank.inverted) wholeArea
          field).outcome ≠ .error (.fault fault) := by
  obtain ⟨hfind, hread⟩ := @safe_never_faults widest wholeArea (by decide) (by decide) (by decide)
  obtain ⟨glyphs, hglyphs, -⟩ := hfind ⟨65536, 65536⟩ ⟨by decide, by decide⟩
  have hfound : (widest.settings.findGlyphs wholeArea ⟨65536, 65536⟩).map (·.map Glyph.rect) =
      .ok [⟨0, 0, 65535, 65535⟩] := by
    decide +kernel
  rw [hglyphs] at hfound
  refine ⟨⟨glyphs, hglyphs, Except.ok.inj hfound⟩, fun classify field fault => ?_⟩
  exact (hread _ classify _ ⟨by decide, by decide⟩).2 field fault

end Reader

end ScoreOverlay
