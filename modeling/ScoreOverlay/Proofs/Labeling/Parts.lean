import ScoreOverlay.Proofs.Image.Part
import ScoreOverlay.Proofs.Labeling.Questions

namespace ScoreOverlay

/-- Glyphs are cut out and not touched. -/
def CropStyle.plain : CropStyle := { mask := false, invert := false }

namespace Glyph

variable {kind : PixelKind} {classify : Classifier kind} {image : Image kind}

theorem prepared_plain (g : Glyph) (image : Image kind) :
    g.prepared image .plain = .ok (image.crop g.rect) :=
  rfl

/-- With plain pictures the classifier sees, glyph by glyph, the pixels of the picture that lie in a
    region of the glyph. It is not asked about glyphs whose region has no pixel, and about all
    others until it gives up. -/
def ShowsParts (classify : Classifier kind) (image : Image kind) (region : Glyph → Rect)
    (glyphs : List Glyph) : Prop :=
  ∃ asked rest,
    glyphs.filter (fun g => image.Meets (region g)) = asked ++ rest ∧
      (labelAll classify image .plain glyphs).shown = asked.map (fun g => image.part (region g)) ∧
      StopsAfter classify image .plain (labelAll classify image .plain glyphs).shown rest
        (labelAll classify image .plain glyphs).outcome

/-- Whether a glyph is asked about, and with which pixels, is decided at its rectangle brought in
    from the left and from above. -/
theorem labelAll_showsParts_broughtIn (classify : Classifier kind) (image : Image kind)
    (glyphs : List Glyph) : ShowsParts classify image (fun g => g.rect.broughtIn) glyphs := by
  obtain ⟨asked, rest, crops, hglyphs, hshown, hcrops, -, hstops⟩ :=
    @labelFrom_asks _ classify image .plain [] glyphs
  rw [List.nil_append] at hshown hstops
  have hparts : asked.map (fun g => image.part g.rect.broughtIn) = crops := by
    rw [← List.forall₂_eq_eq_eq, List.forall₂_map_left_iff]
    apply hcrops.imp
    intro g crop hcrop
    rw [prepared_plain, Image.crop_eq_part] at hcrop
    exact Except.ok.inj hcrop
  refine ⟨asked, rest, ?_, ?_, ?_⟩
  · rw [← hglyphs]
    apply List.filter_congr
    intro g _
    rw [decide_eq_decide, Image.meets_iff, Image.crop_eq_part]
  · rw [hparts]
    exact hshown
  · unfold labelAll
    rw [hshown]
    exact hstops

/-- A classifier that always answers is asked about every glyph whose region has a pixel. -/
theorem ShowsParts.shown_eq {region : Glyph → Rect} {glyphs : List Glyph}
    (h : ShowsParts classify image region glyphs)
    (hanswers : ∀ before crop, ∃ answer, classify before crop = .ok answer) :
    (labelAll classify image .plain glyphs).shown =
      (glyphs.filter fun g => image.Meets (region g)).map fun g => image.part (region g) := by
  obtain ⟨asked, rest, hglyphs, hshown, hstops⟩ := h
  generalize (labelAll classify image .plain glyphs).outcome = outcome at hstops
  cases hstops with
  | finished hrest => rw [hglyphs, hrest, List.append_nil, hshown]
  | refused _ hrefused =>
    obtain ⟨answer, hanswer⟩ := hanswers _ _
    rw [hanswer] at hrefused
    cases hrefused
  | faulted _ hfault => cases hfault

/-- What is shown depends only on which glyphs have a pixel in their region, and on the pixels of
    these. -/
theorem ShowsParts.congr {region region' : Glyph → Rect} {glyphs : List Glyph}
    (h : ShowsParts classify image region glyphs)
    (hmeets : ∀ g ∈ glyphs, image.Meets (region g) ↔ image.Meets (region' g))
    (hpart : ∀ g ∈ glyphs, image.Meets (region g) →
      image.part (region g) = image.part (region' g)) :
    ShowsParts classify image region' glyphs := by
  obtain ⟨asked, rest, hglyphs, hshown, hstops⟩ := h
  refine ⟨asked, rest, ?_, ?_, hstops⟩
  · rw [← hglyphs]
    apply List.filter_congr
    intro g hg
    rw [decide_eq_decide]
    exact (hmeets g hg).symm
  · rw [hshown]
    apply List.map_congr_left
    intro g hg
    have hkept : g ∈ glyphs.filter fun g => image.Meets (region g) := by
      rw [hglyphs]
      exact List.mem_append_left _ hg
    rw [List.mem_filter, decide_eq_true_iff] at hkept
    exact hpart g hkept.1 hkept.2

/-- If glyphs are shown at two regions, one of which has a pixel wherever the other has, then the
    regions have the same pixels. -/
theorem part_eq_of_showsParts {region region' : Glyph → Rect} {glyphs : List Glyph}
    (h : ∀ classify, ShowsParts classify image region glyphs)
    (h' : ∀ classify, ShowsParts classify image region' glyphs)
    (hmeets : ∀ g, image.Meets (region' g) → image.Meets (region g)) {g : Glyph} (hg : g ∈ glyphs)
    (hseen : image.Meets (region g)) : image.part (region g) = image.part (region' g) := by
  have hanswers : ∀ (before : List (Image kind)) (crop : Image kind),
      ∃ answer, (fun _ _ => .ok "" : Classifier kind) before crop = .ok answer :=
    fun _ _ => ⟨"", rfl⟩
  -- Equally many pictures are shown for both regions, so both select the same glyphs.
  have heq := ((h _).shown_eq hanswers).symm.trans ((h' _).shown_eq hanswers)
  have hsublist : (glyphs.filter fun g => image.Meets (region' g)).Sublist
      (glyphs.filter fun g => image.Meets (region g)) := by
    apply List.monotone_filter_right
    intro g
    simpa using hmeets g
  have hlength := congrArg List.length heq
  rw [List.length_map, List.length_map] at hlength
  rw [hsublist.eq_of_length hlength.symm, List.map_inj_left] at heq
  apply heq
  simpa using ⟨hg, hseen⟩

/-- Every classifier sees the pixels in the rectangles brought in from the left and from above.
    These are the pixels in the rectangles themselves if and only if no glyph that is asked about
    begins on the left of the picture and ends before its right edge, or likewise from top to
    bottom. -/
theorem labelAll_showsParts (image : Image kind) (glyphs : List Glyph) :
    (∀ classify, ShowsParts classify image (fun g => g.rect.broughtIn) glyphs) ∧
      ((∀ classify, ShowsParts classify image rect glyphs) ↔
        ∀ g ∈ glyphs, image.Meets g.rect.broughtIn →
          (0 ≤ g.rect.x ∨ (image.width : Int) ≤ g.rect.x + g.rect.width) ∧
            (0 ≤ g.rect.y ∨ (image.height : Int) ≤ g.rect.y + g.rect.height)) := by
  have hbroughtIn : ∀ classify, ShowsParts classify image (fun g => g.rect.broughtIn) glyphs :=
    fun classify => labelAll_showsParts_broughtIn classify image glyphs
  refine ⟨hbroughtIn, ?_, ?_⟩
  · intro hrect g hg hmeets
    rw [← Image.crop_eq_part_iff hmeets, Image.crop_eq_part]
    exact part_eq_of_showsParts hbroughtIn hrect (fun _ h => h.broughtIn) hg hmeets
  · intro hinside classify
    have hpart : ∀ g ∈ glyphs, image.Meets g.rect.broughtIn →
        image.part g.rect.broughtIn = image.part g.rect := by
      intro g hg hmeets
      rw [← Image.crop_eq_part]
      exact (Image.crop_eq_part_iff hmeets).2 (hinside g hg hmeets)
    apply (hbroughtIn classify).congr _ hpart
    intro g hg
    constructor
    · intro hmeets
      rw [Image.meets_iff, ← hpart g hg hmeets, ← Image.meets_iff]
      exact hmeets
    · exact Image.Meets.broughtIn

/-- A picture with a bright column on its left edge, and two glyphs that begin on the left of it.
    The first reaches into the bright column. -/
private def brightEdge : Image .gray8 :=
  Image.ofFn 4 2 fun x _ =>
    { Pixel.blank with colour := Vector.replicate _ (if x.val = 0 then 20 else 10) }

private def leftOfEdge : List Glyph := [⟨[], [], ⟨-2, 0, 3, 2⟩, ""⟩, ⟨[], [], ⟨-9, 0, 3, 2⟩, ""⟩]

/-- The classifier is asked about a glyph without a pixel, and shown more than the one column that a
    glyph on the left edge has. -/
theorem labelAll_shows_beyond :
    ¬ ShowsParts (fun _ _ => .ok "a") brightEdge rect leftOfEdge := by
  intro hshows
  have hshown := hshows.shown_eq fun _ _ => ⟨"a", rfl⟩
  exact absurd hshown (by decide +kernel)

end Glyph

end ScoreOverlay
