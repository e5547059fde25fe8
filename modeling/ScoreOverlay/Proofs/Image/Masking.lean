import Mathlib.Data.List.Sort
import ScoreOverlay.Proofs.Checked.Bounds
import ScoreOverlay.Proofs.Image.Pixels

namespace ScoreOverlay

/-- The columns of a row may be sorted by insertion. Unlike merging, that evaluates inside a
    proof. -/
theorem Polygon.rowInterior_eq_insertionSort (canvas : Canvas) (edges : List (Point × Point))
    (y : Int) :
    rowInterior canvas edges y = (do
      let columns := (← edges.mapM (crossings y)).flatten
      return (stretches (columns.insertionSort (· ≤ ·))).flatMap (rowPixels canvas y)) := by
  unfold rowInterior
  simp only [List.mergeSort_eq_insertionSort]

/-- The outline, as seen from the origin, encloses the pixel of the canvas or runs through it. -/
def Outline.Paints (canvas : Canvas) (origin : Point) (o : Outline) (p : Point) : Prop :=
  ∃ (moved : Outline) (painted : List Point), o.mapM (·.relativeTo origin) = .ok moved ∧
    moved.paint canvas = .ok painted ∧ p ∈ painted

namespace Image

variable {kind : PixelKind} {image image' : Image kind} {origin : Point} {outlines : List Outline}

/-- What outlines paint together is what each of them paints. -/
theorem mem_painted_iff {paint : Outline → Checked (List Point)} {painted : List (List Point)}
    {x y : Int} (h : outlines.mapM paint = .ok painted) :
    (x, y) ∈ painted.flatten.map (fun p => (p.x, p.y)) ↔
      ∃ o ∈ outlines, ∃ pixels, paint o = .ok pixels ∧ ⟨x, y⟩ ∈ pixels := by
  simp only [List.mem_map, List.mem_flatten, mem_of_mapM_eq_ok h]
  constructor
  · rintro ⟨⟨px, py⟩, ⟨pixels, ⟨o, ho, hpaint⟩, hp⟩, heq⟩
    cases heq
    exact ⟨o, ho, pixels, hpaint, hp⟩
  · rintro ⟨o, ho, pixels, hpaint, hp⟩
    exact ⟨⟨x, y⟩, ⟨pixels, ⟨o, ho, hpaint⟩, hp⟩, rfl⟩

/-- Outlines make visible what each of them paints. -/
theorem mem_visible_iff {positions : List (Int × Int)} {x y : Int}
    (h : image.visible origin outlines = .ok positions) :
    (x, y) ∈ positions ↔ ∃ o ∈ outlines, o.Paints image.canvas origin ⟨x, y⟩ := by
  obtain ⟨painted, hpainted, hpositions⟩ := bind_eq_ok_iff.1 h
  cases hpositions
  simp only [mem_painted_iff hpainted, bind_eq_ok_iff]
  refine exists_congr fun o => and_congr_right fun _ => ?_
  constructor
  · rintro ⟨pixels, ⟨moved, hmoved, hpaint⟩, hp⟩
    exact ⟨moved, pixels, hmoved, hpaint, hp⟩
  · rintro ⟨moved, pixels, hmoved, hpaint, hp⟩
    exact ⟨pixels, ⟨moved, hmoved, hpaint⟩, hp⟩

theorem pixel?_keepOnly (image : Image kind) (positions : List (Int × Int)) (x y : Nat) :
    (image.keepOnly positions).pixel? x y = (image.pixel? x y).map fun p =>
      if ((x : Int), (y : Int)) ∈ positions then p else Pixel.blank := by
  rw [keepOnly, pixel?_mapPixels]
  simp only [Std.HashSet.contains_ofList, List.contains_iff_mem]

/-- What is not kept is the same in all pictures. -/
theorem keepOnly_congr {positions : List (Int × Int)} (hsize : image'.SameSize image)
    (h : ∀ x y : Nat, ((x : Int), (y : Int)) ∈ positions → image'.pixel? x y = image.pixel? x y) :
    image'.keepOnly positions = image.keepOnly positions := by
  refine ext_pixel? hsize.width hsize.height fun x y => ?_
  rw [pixel?_keepOnly, pixel?_keepOnly]
  by_cases hkept : ((x : Int), (y : Int)) ∈ positions
  · rw [h x y hkept]
  · simp only [if_neg hkept]
    by_cases hinside : x < image.width ∧ y < image.height
    · have hinside' : x < image'.width ∧ y < image'.height := by
        rwa [hsize.width, hsize.height]
      rw [pixel?, pixel?, dif_pos hinside, dif_pos hinside', Option.map_some, Option.map_some]
    · have houtside : ¬ (x < image'.width ∧ y < image'.height) := by
        rwa [hsize.width, hsize.height]
      rw [pixel?_eq_none hinside, pixel?_eq_none houtside]

/-- Masked pictures are equal if the pictures agree where an outline paints. -/
theorem masked_congr (hsize : image'.SameSize image)
    (h : ∀ x y : Nat, (∃ o ∈ outlines, o.Paints image.canvas origin ⟨x, y⟩) →
      image'.pixel? x y = image.pixel? x y) :
    image'.masked origin outlines = image.masked origin outlines := by
  have hvisible : image'.visible origin outlines = image.visible origin outlines := by
    unfold visible
    rw [hsize.canvas]
  unfold masked
  rw [hvisible]
  cases hpositions : image.visible origin outlines with
  | error fault => rfl
  | ok positions =>
    refine congrArg Except.ok (keepOnly_congr hsize fun x y hkept => h x y ?_)
    exact (mem_visible_iff hpositions).1 hkept

end Image

end ScoreOverlay
