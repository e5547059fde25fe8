import ScoreOverlay.Image.Mask

namespace ScoreOverlay.Image

variable {kind : PixelKind}

theorem pixel_ofFn (width height : Nat) (f : Fin width → Fin height → Pixel kind) (x : Fin width)
    (y : Fin height) : (ofFn width height f).pixel x y = f x y := by
  change (Vector.ofFn fun y => Vector.ofFn fun x => f x y)[y.val][x.val] = f x y
  rw [Vector.getElem_ofFn, Vector.getElem_ofFn]

theorem pixel?_ofFn (width height : Nat) (f : Fin width → Fin height → Pixel kind) (x y : Nat) :
    (ofFn width height f).pixel? x y =
      if h : x < width ∧ y < height then some (f ⟨x, h.1⟩ ⟨y, h.2⟩) else none := by
  refine dite_congr rfl (fun h => ?_) fun _ => rfl
  exact congrArg some (pixel_ofFn width height f ⟨x, h.1⟩ ⟨y, h.2⟩)

theorem pixel?_mapPixels (image : Image kind) (f : Nat → Nat → Pixel kind → Pixel kind)
    (x y : Nat) :
    (image.mapPixels f).pixel? x y = (image.pixel? x y).map (f x y) := by
  rw [mapPixels, pixel?_ofFn, pixel?]
  split <;> rfl

theorem pixel?_eq_none {image : Image kind} {x y : Nat}
    (h : ¬ (x < image.width ∧ y < image.height)) : image.pixel? x y = none :=
  dif_neg h

/-- Pictures of one size are equal if they have the same pixels. -/
theorem ext_pixel? {image image' : Image kind} (hwidth : image.width = image'.width)
    (hheight : image.height = image'.height) (h : ∀ x y, image.pixel? x y = image'.pixel? x y) :
    image = image' := by
  obtain ⟨width, height, rows⟩ := image
  obtain ⟨width', height', rows'⟩ := image'
  dsimp only at hwidth hheight
  subst hwidth hheight
  congr 1
  refine Vector.ext fun y hy => Vector.ext fun x hx => ?_
  have hpixel := h x y
  simpa [pixel?, pixel, hx, hy] using hpixel

/-- A crop has the rectangle's size as far as the picture reaches. -/
theorem crop_width (image : Image kind) (r : Rect) :
    (image.crop r).width = min r.width.toNat (image.width - min r.x.toNat image.width) :=
  rfl

theorem crop_height (image : Image kind) (r : Rect) :
    (image.crop r).height = min r.height.toNat (image.height - min r.y.toNat image.height) :=
  rfl

/-- A crop that has a pixel starts at the rectangle's corner, or at the picture's edge if the corner
    lies outside on the left or above. -/
theorem pixel?_crop {image : Image kind} {r : Rect} {x y : Nat}
    (h : x < (image.crop r).width ∧ y < (image.crop r).height) :
    (image.crop r).pixel? x y = image.pixel? (r.x.toNat + x) (r.y.toNat + y) := by
  have hx := h.1
  have hy := h.2
  rw [crop_width] at hx
  rw [crop_height] at hy
  have hleft : min r.x.toNat image.width = r.x.toNat := by omega
  have htop : min r.y.toNat image.height = r.y.toNat := by omega
  have hinside : r.x.toNat + x < image.width ∧ r.y.toNat + y < image.height := by omega
  rw [crop, pixel?_ofFn, dif_pos ⟨hx, hy⟩, pixel?, dif_pos hinside]
  simp only [hleft, htop]

/-- The pictures have the same size. -/
structure SameSize (image image' : Image kind) : Prop where
  width : image.width = image'.width
  height : image.height = image'.height

theorem SameSize.crop {image image' : Image kind} (h : image.SameSize image') (r : Rect) :
    (image.crop r).SameSize (image'.crop r) where
  width := by rw [crop_width, crop_width, h.width]
  height := by rw [crop_height, crop_height, h.height]

theorem SameSize.canvas {image image' : Image kind} (h : image.SameSize image') :
    image.canvas = image'.canvas := by
  unfold Image.canvas
  rw [h.width, h.height]

theorem SameSize.frame {image image' : Image kind} (h : image.SameSize image') :
    image.frame = image'.frame := by
  unfold Image.frame
  rw [h.width, h.height]

theorem SameSize.isEmpty_iff {image image' : Image kind} (h : image.SameSize image') :
    image.IsEmpty ↔ image'.IsEmpty := by
  unfold IsEmpty
  rw [h.width, h.height]

end ScoreOverlay.Image
