import ScoreOverlay.Field
import ScoreOverlay.Proofs.Geometry.Padding
import ScoreOverlay.Proofs.Geometry.Simplification
import ScoreOverlay.Proofs.Glyph.Extraction
import ScoreOverlay.Proofs.Labeling.Questions

namespace ScoreOverlay

namespace Glyph

/-- A glyph with pixels that lies in the area. -/
def StandsIn (area : Rect) (g : Glyph) : Prop := g.rect.IsWithin area ∧ ¬ g.rect.IsEmpty

/-- What a new glyph takes from its outline. -/
theorem ofOutline?_eq_ok {o : Outline} {g : Glyph} (h : ofOutline? o = .ok (some g)) :
    g.outline = o ∧ g.absorbed = [] ∧ g.rect.IsExtentOf (o.simplify tolerance) := by
  obtain ⟨rect?, hrect, h⟩ := bind_eq_ok_iff.1 h
  cases rect? with
  | none => cases h
  | some rect =>
    cases h
    exact ⟨rfl, rfl, Outline.extent?_eq_ok hrect⟩

theorem exists_outline {outlines : List Outline} {glyphs : List Glyph}
    (h : ofOutlines outlines = .ok glyphs) {g : Glyph} (hg : g ∈ glyphs) :
    ∃ o ∈ outlines, ofOutline? o = .ok (some g) := by
  obtain ⟨glyphs?, hglyphs, h⟩ := bind_eq_ok_iff.1 h
  cases h
  obtain ⟨g?, hg?, hsome⟩ := List.mem_filterMap.1 hg
  obtain rfl : g? = some g := hsome
  exact (mem_of_mapM_eq_ok hglyphs).1 hg?

variable {area : Rect}

/-- Simplifying moves no point, so a glyph lies where its outline does. -/
theorem standsIn_of_outline {o : Outline} {g : Glyph} (hpoints : ∀ p ∈ o, area.Covers p)
    (h : ofOutline? o = .ok (some g)) : g.StandsIn area := by
  have hextent := (ofOutline?_eq_ok h).2.2
  exact hextent.isWithin fun p hp => hpoints p ((Outline.simplify_sublist _ o).subset hp)

theorem standsIn_of_select {limits : SizeLimits} {outlines : List Outline} {glyphs : List Glyph}
    (hpoints : ∀ o ∈ outlines, ∀ p ∈ o, area.Covers p) (h : ofOutlines outlines = .ok glyphs) :
    ∀ g ∈ limits.select glyphs, g.StandsIn area := by
  intro g hg
  obtain ⟨o, ho, hg⟩ := exists_outline h (List.mem_filter.1 hg).1
  exact standsIn_of_outline (hpoints o ho) hg

/-- The rectangle of a fused glyph reaches as far as those of its members and no further. -/
theorem IsFusionOf.standsIn {g anchor : Glyph} {others : List Glyph}
    (h : g.IsFusionOf anchor others) (hmembers : ∀ m ∈ anchor :: others, m.StandsIn area) :
    g.StandsIn area := by
  refine ⟨h.rect.isWithin fun r hr => ?_, ?_⟩
  · obtain ⟨m, hm, rfl⟩ := List.mem_map.1 hr
    exact (hmembers m hm).1
  · exact h.rect.not_isEmpty List.mem_cons_self (hmembers anchor List.mem_cons_self).2

theorem exists_members_of_fuse {threshold : Binary.Scalar} {glyphs fused : List Glyph}
    (h : fuse threshold glyphs = .ok fused) {g : Glyph} (hg : g ∈ fused) :
    ∃ anchor others, anchor :: others ⊆ glyphs ∧ g.IsFusionOf anchor others := by
  obtain ⟨groups, rfl, hinv⟩ := Fusion.exists_groups h
  obtain ⟨group, hgroup, rfl⟩ := List.mem_map.1 hg
  refine ⟨_, _, fun m hm => ?_, hinv.fusion group hgroup⟩
  rw [← List.map_cons] at hm
  obtain ⟨i, -, rfl⟩ := List.mem_map.1 hm
  exact List.get_mem glyphs i

theorem standsIn_of_fuse {threshold : Binary.Scalar} {glyphs fused : List Glyph}
    (hglyphs : ∀ g ∈ glyphs, g.StandsIn area) (h : fuse threshold glyphs = .ok fused) :
    ∀ g ∈ fused, g.StandsIn area := by
  intro g hg
  obtain ⟨anchor, others, hmembers, hfusion⟩ := exists_members_of_fuse h hg
  exact hfusion.standsIn fun m hm => hglyphs m (hmembers hm)

end Glyph

/-- The second glyph is the first one with the margin of the settings, if they have one. -/
structure Settings.Widens (settings : Settings) (frame : Frame) (narrow wide : Glyph) : Prop where
  same : wide = { narrow with rect := wide.rect }
  rect : wide.rect = narrow.rect ∨
    0 < settings.margin ∧ narrow.rect.padded settings.margin frame = .ok wide.rect

/-- The stages that outlines go through. -/
theorem Settings.findGlyphs_eq_ok {settings : Settings} {outlines : List Outline} {frame : Frame}
    {glyphs : List Glyph} (h : settings.findGlyphs outlines frame = .ok glyphs) :
    ∃ found fused, Glyph.ofOutlines outlines = .ok found ∧
      Glyph.fuse settings.overlapThreshold (settings.limits.select found) = .ok fused ∧
      glyphs.length = fused.length ∧
      ∀ g ∈ glyphs, ∃ narrow ∈ fused, settings.Widens frame narrow g := by
  obtain ⟨found, hfound, h⟩ := bind_eq_ok_iff.1 h
  obtain ⟨fused, hfused, h⟩ := bind_eq_ok_iff.1 h
  refine ⟨found, fused, hfound, hfused, ?_⟩
  split at h
  · cases h
    exact ⟨rfl, fun g hg => ⟨g, hg, rfl, .inl rfl⟩⟩
  · refine ⟨length_of_mapM_eq_ok h, fun g hg => ?_⟩
    obtain ⟨narrow, hnarrow, hg⟩ := (mem_of_mapM_eq_ok h).1 hg
    obtain ⟨rect, hrect, hg⟩ := bind_eq_ok_iff.1 hg
    cases hg
    exact ⟨narrow, hnarrow, rfl, .inr ⟨by omega, hrect⟩⟩

/-- Glyphs whose outlines lie in the frame stand in the frame. -/
theorem Settings.standsIn_of_findGlyphs {settings : Settings} {outlines : List Outline}
    {frame : Frame} {glyphs : List Glyph} (hwidth : 2 ≤ frame.width) (hheight : 2 ≤ frame.height)
    (hpoints : ∀ o ∈ outlines, ∀ p ∈ o, frame.area.Covers p)
    (h : settings.findGlyphs outlines frame = .ok glyphs) :
    ∀ g ∈ glyphs, g.StandsIn frame.area := by
  obtain ⟨found, fused, hfound, hfused, -, hwide⟩ := settings.findGlyphs_eq_ok h
  have hstand := Glyph.standsIn_of_fuse (Glyph.standsIn_of_select hpoints hfound) hfused
  intro g hg
  obtain ⟨narrow, hnarrow, -, hrect | ⟨hmargin, hrect⟩⟩ := hwide g hg
  · rw [Glyph.StandsIn, hrect]
    exact hstand narrow hnarrow
  · obtain ⟨hwithin, hne⟩ := hstand narrow hnarrow
    exact Rect.padded_isWithin hwidth hheight hmargin hwithin hne hrect

/-- A rectangle in the picture is cut out in its full size. -/
theorem Image.size_crop {kind : PixelKind} {image : Image kind} {frame : Frame} {r : Rect}
    (hwidth : (image.width : Int) = frame.width) (hheight : (image.height : Int) = frame.height)
    (hr : r.IsWithin frame.area) :
    ((image.crop r).width : Int) = r.width ∧ ((image.crop r).height : Int) = r.height := by
  rw [Rect.isWithin_frame_iff] at hr
  rw [Image.crop_width, Image.crop_height]
  omega

/-- A glyph that stands in the frame is shown to the classifier, in the size of its rectangle. -/
theorem Glyph.StandsIn.not_isEmpty_crop {kind : PixelKind} {image : Image kind} {frame : Frame}
    {g : Glyph} (h : g.StandsIn frame.area) (hwidth : (image.width : Int) = frame.width)
    (hheight : (image.height : Int) = frame.height) : ¬ (image.crop g.rect).IsEmpty := by
  obtain ⟨hcropWidth, hcropHeight⟩ := Image.size_crop hwidth hheight h.1
  have hne := Rect.not_isEmpty_iff.1 h.2
  unfold Image.IsEmpty
  omega

/-- Nothing is found outside the frame, and every glyph that is found has pixels. If all points of
    the outlines lie in a frame of two pixels or more on each side, then so do all pixels of each
    glyph, whatever is fused and however wide the margin is. From a picture of that size the
    classifier is therefore shown exactly one part for each glyph, in the glyph's order and with the
    exact size of its rectangle, until it gives up or a part cannot be prepared. -/
theorem Settings.findGlyphs_standsIn {settings : Settings} {outlines : List Outline}
    {frame : Frame} (hwidth : 2 ≤ frame.width) (hheight : 2 ≤ frame.height)
    (hpoints : ∀ o ∈ outlines, ∀ p ∈ o, frame.area.Covers p)
    (hfits : NoOverflow (settings.findGlyphs outlines frame)) :
    ∃ glyphs, settings.findGlyphs outlines frame = .ok glyphs ∧
      (∀ g ∈ glyphs, g.StandsIn frame.area) ∧
      ∀ (kind : PixelKind) (classify : Classifier kind) (image : Image kind) (style : CropStyle),
        (image.width : Int) = frame.width → (image.height : Int) = frame.height →
        ∃ asked rest, glyphs = asked ++ rest ∧
          List.Forall₂ (fun g crop => g.prepared image style = .ok crop ∧
              (crop.width : Int) = g.rect.width ∧ (crop.height : Int) = g.rect.height)
            asked (Glyph.labelAll classify image style glyphs).shown ∧
          (∀ before crop after,
            (Glyph.labelAll classify image style glyphs).shown = before ++ crop :: after →
              after ≠ [] → ∃ answer, classify before crop = .ok answer) ∧
          Glyph.StopsAfter classify image style (Glyph.labelAll classify image style glyphs).shown
            rest (Glyph.labelAll classify image style glyphs).outcome := by
  obtain ⟨glyphs, hglyphs⟩ := (settings.findGlyphs_inBounds outlines frame).exists_ok hfits
  have hstand := Settings.standsIn_of_findGlyphs hwidth hheight hpoints hglyphs
  refine ⟨glyphs, hglyphs, hstand, fun kind classify image style hsameWidth hsameHeight => ?_⟩
  have hseen : ∀ g ∈ glyphs, ¬ (image.crop g.rect).IsEmpty :=
    fun g hg => (hstand g hg).not_isEmpty_crop hsameWidth hsameHeight
  obtain ⟨asked, rest, crops, hasked, hshown, hcrops, hanswered, hstops⟩ :=
    @Glyph.labelFrom_asks _ classify image style [] glyphs
  rw [List.filter_eq_self.2 fun g hg => decide_eq_true (hseen g hg)] at hasked
  simp only [List.nil_append] at hshown hanswered hstops
  refine ⟨asked, rest, hasked, ?_, ?_, ?_⟩
  · have hstanding : ∀ g ∈ asked, g.StandsIn frame.area :=
      fun g hg => hstand g (hasked ▸ List.mem_append_left rest hg)
    rw [Glyph.labelAll, hshown]
    refine ((List.forall₂_and_left asked crops).2 ⟨hstanding, hcrops⟩).imp ?_
    rintro g crop ⟨hg, hcrop⟩
    obtain ⟨hcropWidth, hcropHeight⟩ := Glyph.size_of_prepared hcrop
    rw [hcropWidth, hcropHeight]
    exact ⟨hcrop, Image.size_crop hsameWidth hsameHeight hg.1⟩
  · rw [Glyph.labelAll, hshown]
    exact hanswered
  · rw [Glyph.labelAll, hshown]
    exact hstops

/-- A thin glyph, and one at the right edge of the frame. -/
private def digits : List Outline :=
  [[⟨5, 2⟩, ⟨5, 13⟩], [⟨14, 3⟩, ⟨19, 3⟩, ⟨19, 12⟩, ⟨14, 12⟩]]

private def widened : Settings := { margin := 4, limits := { minArea := 0 } }

private def once : Classifier .gray8 := fun shown _ =>
  if shown = [] then .ok "1" else .error (.classification "unclear")

theorem Settings.findGlyphs_standsIn_digits :
    widened.findGlyphs digits ⟨20, 16⟩ = .ok [⟨[⟨5, 2⟩, ⟨5, 13⟩], [], ⟨3, 0, 6, 15⟩, ""⟩,
        ⟨[⟨14, 3⟩, ⟨19, 3⟩, ⟨19, 12⟩, ⟨14, 12⟩], [], ⟨12, 1, 7, 14⟩, ""⟩] ∧
      ∃ glyphs, widened.findGlyphs digits ⟨20, 16⟩ = .ok glyphs ∧
        (∀ g ∈ glyphs, g.StandsIn (Frame.area ⟨20, 16⟩)) ∧
        ∃ asked rest, glyphs = asked ++ rest ∧
          List.Forall₂ (fun g (crop : Image .gray8) => (crop.width : Int) = g.rect.width ∧
              (crop.height : Int) = g.rect.height)
            asked (Glyph.labelAll once (Image.ofFn 20 16 fun _ _ => Pixel.blank.inverted)
              ⟨false, true⟩ glyphs).shown := by
  obtain ⟨glyphs, hglyphs, hstand, hlabel⟩ := @Settings.findGlyphs_standsIn widened digits ⟨20, 16⟩
    (by decide) (by decide) (by decide) (by decide +kernel)
  obtain ⟨asked, rest, hasked, hshown, -⟩ := hlabel .gray8 once
    (Image.ofFn 20 16 fun _ _ => Pixel.blank.inverted) ⟨false, true⟩ rfl rfl
  exact ⟨by decide +kernel, glyphs, hglyphs, hstand, asked, rest, hasked,
    hshown.imp fun _ _ h => h.2⟩

end ScoreOverlay
