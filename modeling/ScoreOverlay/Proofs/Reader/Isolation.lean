import ScoreOverlay.Reader
import ScoreOverlay.Proofs.Image.Masking

namespace ScoreOverlay

namespace Glyph

variable {kind : PixelKind}

/-- The glyph's mask leaves the pixel in column `x` of row `y` visible. The pixel lies in the part
    of the picture that the glyph is cut out as, and one of the glyph's outlines, as seen from the
    corner of that part, encloses it or runs through it. -/
def Reveals (g : Glyph) (image : Image kind) (x y : Nat) : Prop :=
  let corner : Point := ⟨max g.rect.x 0, max g.rect.y 0⟩
  let crop := image.crop g.rect
  (corner.x ≤ x ∧ x < corner.x + crop.width) ∧ (corner.y ≤ y ∧ y < corner.y + crop.height) ∧
    ∃ o ∈ g.outlines, o.Paints crop.canvas corner ⟨x - corner.x, y - corner.y⟩

variable {classify : Classifier kind} {image image' : Image kind} {style : CropStyle}

/-- What the classifier sees of a glyph depends on no pixel that the mask hides. -/
theorem prepared_congr {g : Glyph} (hmask : style.mask = true) (hsize : image'.SameSize image)
    (hagree : ∀ x y, g.Reveals image x y → image'.pixel? x y = image.pixel? x y) :
    g.prepared image' style = g.prepared image style := by
  have hcrop := hsize.crop g.rect
  have hmasked : (image'.crop g.rect).masked ⟨max g.rect.x 0, max g.rect.y 0⟩ g.outlines =
      (image.crop g.rect).masked ⟨max g.rect.x 0, max g.rect.y 0⟩ g.outlines := by
    refine Image.masked_congr hcrop fun x y hpaints => ?_
    by_cases hinside : x < (image.crop g.rect).width ∧ y < (image.crop g.rect).height
    · have hinside' : x < (image'.crop g.rect).width ∧ y < (image'.crop g.rect).height := by
        rwa [hcrop.width, hcrop.height]
      rw [Image.pixel?_crop hinside, Image.pixel?_crop hinside']
      refine hagree _ _ ⟨?_, ?_, ?_⟩
      · dsimp only
        omega
      · dsimp only
        omega
      -- Seen from the corner of the part, the pixel is where the mask has it.
      · have hx : ((g.rect.x.toNat + x : Nat) : Int) - max g.rect.x 0 = x := by omega
        have hy : ((g.rect.y.toNat + y : Nat) : Int) - max g.rect.y 0 = y := by omega
        rwa [hx, hy]
    · have houtside : ¬ (x < (image'.crop g.rect).width ∧ y < (image'.crop g.rect).height) := by
        rwa [hcrop.width, hcrop.height]
      rw [Image.pixel?_eq_none hinside, Image.pixel?_eq_none houtside]
  unfold prepared
  rw [if_pos hmask, if_pos hmask, hmasked]

/-- Labeling only depends on the pictures that the classifier is shown. -/
theorem labelFrom_congr {glyphs : List Glyph} (shown : List (Image kind))
    (hempty : ∀ g ∈ glyphs, (image'.crop g.rect).IsEmpty ↔ (image.crop g.rect).IsEmpty)
    (hprepared : ∀ g ∈ glyphs, g.prepared image' style = g.prepared image style) :
    labelFrom classify image' style shown glyphs = labelFrom classify image style shown glyphs := by
  induction glyphs generalizing shown with
  | nil => rfl
  | cons g rest ih =>
    obtain ⟨hfirst, hrest⟩ := List.forall_mem_cons.1 hempty
    obtain ⟨hg, hothers⟩ := List.forall_mem_cons.1 hprepared
    simp only [labelFrom, hfirst, hg, ih _ hrest hothers]

end Glyph

namespace Reader

variable {reader : Reader} {kind : PixelKind} {classify : Classifier kind}
  {image image' : Image kind} {outlines : List Outline}

theorem labeled_congr (hmask : reader.settings.mask = true) (hsize : image'.SameSize image)
    (hagree : ∀ glyphs, reader.settings.findGlyphs outlines image.frame = .ok glyphs →
      ∀ g ∈ glyphs, ∀ x y, g.Reveals image x y → image'.pixel? x y = image.pixel? x y) :
    reader.labeled classify image' outlines = reader.labeled classify image outlines := by
  unfold labeled
  rw [hsize.frame]
  cases hglyphs : reader.settings.findGlyphs outlines image.frame with
  | error fault => rfl
  | ok glyphs =>
    refine Glyph.labelFrom_congr [] (fun g _ => (hsize.crop g.rect).isEmpty_iff) fun g hg => ?_
    exact Glyph.prepared_congr hmask hsize (hagree glyphs hglyphs g hg)

/-- Masking isolates glyphs. If two pictures of one size agree on every pixel that the mask of a
    glyph leaves visible where that glyph is cut out, then the classifier is shown the same pictures
    in the same order, and the words of the picture and of each field are the same, as is the
    failure if there is one. This holds for every classifier, and nothing is assumed about pixels
    that no mask leaves visible, even if they lie inside a crop. -/
theorem masking_isolates (hmask : reader.settings.mask = true) (hsize : image'.SameSize image)
    (hagree : ∀ glyphs, reader.settings.findGlyphs outlines image.frame = .ok glyphs →
      ∀ g ∈ glyphs, ∀ x y, g.Reveals image x y → image'.pixel? x y = image.pixel? x y) :
    reader.readWords classify image' outlines = reader.readWords classify image outlines ∧
      ∀ field, reader.readField classify image' outlines field =
        reader.readField classify image outlines field := by
  have hlabeled : reader.labeled classify image' outlines =
      reader.labeled classify image outlines :=
    labeled_congr hmask hsize hagree
  refine ⟨?_, fun field => ?_⟩
  · unfold readWords
    rw [hlabeled]
  · unfold readField
    rw [hlabeled, hsize.frame]

/-- A triangle, and to the right of it a rectangle that the margin shows a part of. -/
private def shapes : List Outline :=
  [[⟨2, 2⟩, ⟨2, 12⟩, ⟨12, 12⟩], [⟨15, 2⟩, ⟨22, 2⟩, ⟨22, 12⟩, ⟨15, 12⟩]]

private def whiteSheet : Image .gray8 := Image.ofFn 40 16 fun _ _ => Pixel.blank.inverted

/-- A white sheet but for one pixel, which lies beside the triangle in the triangle's rectangle. -/
private def spottedSheet : Image .gray8 :=
  Image.ofFn 40 16 fun x y => if x.val = 10 ∧ y.val = 4 then Pixel.blank else Pixel.blank.inverted

private def shielded : Reader := ⟨{ margin := 4, invert := true }, by decide +kernel⟩

private def foundShapes : List Glyph :=
  [⟨[⟨2, 2⟩, ⟨2, 12⟩, ⟨12, 12⟩], [], ⟨0, 0, 17, 15⟩, ""⟩,
    ⟨[⟨15, 2⟩, ⟨22, 2⟩, ⟨22, 12⟩, ⟨15, 12⟩], [], ⟨13, 0, 14, 15⟩, ""⟩]

private def byPixel : Classifier .gray8 := fun _ crop =>
  .ok (if crop.pixel? 10 4 = some Pixel.blank then "a" else "b")

private theorem sheet_agrees {g : Glyph} (hg : g ∈ foundShapes) {x y : Nat}
    (h : g.Reveals whiteSheet x y) : spottedSheet.pixel? x y = whiteSheet.pixel? x y := by
  by_cases hspot : x = 10 ∧ y = 4
  · obtain ⟨rfl, rfl⟩ := hspot
    obtain ⟨⟨hleft, -⟩, -, o, ho, moved, painted, hmoved, hpainted, hp⟩ := h
    rcases List.mem_pair.1 hg with rfl | rfl
    · obtain rfl := List.mem_singleton.1 ho
      cases hmoved
      have htriangle : Outline.paint ⟨17, 15⟩ [⟨2, 2⟩, ⟨2, 12⟩, ⟨12, 12⟩] = .ok painted := hpainted
      have hhidden : (⟨10, 4⟩ : Point) ∉ (Outline.paint ⟨17, 15⟩
          [⟨2, 2⟩, ⟨2, 12⟩, ⟨12, 12⟩]).toOption.getD [] := by
        simp only [Outline.paint, Polygon.interior, Polygon.rowInterior_eq_insertionSort]
        decide +kernel
      rw [htriangle] at hhidden
      exact absurd hp hhidden
    · exact absurd hleft (by decide)
  · simp [spottedSheet, whiteSheet, Image.pixel?_ofFn, hspot]

theorem masking_isolates_corner :
    spottedSheet ≠ whiteSheet ∧
      shielded.readWords byPixel spottedSheet shapes =
        shielded.readWords byPixel whiteSheet shapes ∧
      shielded.readField byPixel spottedSheet shapes .name =
        shielded.readField byPixel whiteSheet shapes .name := by
  have hfound : shielded.settings.findGlyphs shapes whiteSheet.frame = .ok foundShapes := by
    decide +kernel
  have hequal := @masking_isolates shielded _ byPixel whiteSheet spottedSheet shapes rfl ⟨rfl, rfl⟩
    fun glyphs hglyphs g hg x y h => by
      obtain rfl := Except.ok.inj (hfound.symm.trans hglyphs)
      exact sheet_agrees hg h
  exact ⟨by decide +kernel, hequal.1, hequal.2 .name⟩

end Reader

end ScoreOverlay
