import Mathlib.Data.List.FinRange
import Mathlib.Data.List.Sort
import ScoreOverlay.Proofs.Image.Pixels

namespace ScoreOverlay

/-- The rectangle moved to the right and down until its corner has no negative coordinate. It keeps
    its size. -/
def Rect.broughtIn (r : Rect) : Rect := { r with x := max r.x 0, y := max r.y 0 }

namespace Image

variable {kind : PixelKind}

/-- The positions below `count` that lie in the window of `length` positions from `start` on, in
    ascending order. The window may begin before the first position and end behind the last. -/
def window (count : Nat) (start length : Int) : List (Fin count) :=
  (List.finRange count).filter fun i => start ≤ (i.val : Int) ∧ (i.val : Int) < start + length

theorem mem_window {count : Nat} {start length : Int} {i : Fin count} :
    i ∈ window count start length ↔ start ≤ (i.val : Int) ∧ (i.val : Int) < start + length := by
  simp [window]

/-- A window runs without gaps from where it enters the positions to where it leaves them. -/
theorem window_eq_map (count : Nat) (start length : Int) :
    window count start length =
      (List.finRange (min (start + length) count - max start 0).toNat).map
        fun i => ⟨(max start 0).toNat + i, by omega⟩ := by
  have hwindow : (window count start length).Pairwise (· < ·) :=
    (List.pairwise_lt_finRange count).filter _
  apply hwindow.eq_of_mem_iff
  · rw [List.pairwise_map]
    apply (List.pairwise_lt_finRange _).imp
    intro i j hlt
    simpa using hlt
  · intro i
    rw [mem_window, List.mem_map]
    constructor
    · rintro ⟨hstart, hend⟩
      refine ⟨⟨i.val - (max start 0).toNat, by omega⟩, List.mem_finRange _, ?_⟩
      apply Fin.ext
      dsimp only
      omega
    · rintro ⟨j, -, rfl⟩
      dsimp only
      omega

theorem length_window (count : Nat) (start length : Int) :
    (window count start length).length = (min (start + length) count - max start 0).toNat := by
  rw [window_eq_map, List.length_map, List.length_finRange]

theorem val_getElem_window {count : Nat} {start length : Int} {i : Nat}
    (h : i < (window count start length).length) :
    (window count start length)[i].val = (max start 0).toNat + i := by
  simp [window_eq_map]

/-- A window that begins before the first position is the one that begins there only if neither of
    them ends inside. -/
theorem window_max_eq {count : Nat} {start length : Int}
    (h : 0 ≤ start ∨ (count : Int) ≤ start + length) :
    window count (max start 0) length = window count start length := by
  unfold window
  apply List.filter_congr
  intro i _
  rw [decide_eq_decide]
  omega

/-- The picture of some of the columns and rows. -/
def select (image : Image kind) (columns : List (Fin image.width))
    (rows : List (Fin image.height)) : Image kind :=
  ofFn columns.length rows.length fun x y => image.pixel columns[x] rows[y]

/-- The pixels of the picture that lie in the rectangle, in their order. -/
def part (image : Image kind) (r : Rect) : Image kind :=
  image.select (window image.width r.x r.width) (window image.height r.y r.height)

/-- A pixel of the picture lies in the rectangle. -/
def Meets (image : Image kind) (r : Rect) : Prop :=
  ∃ (x : Fin image.width) (y : Fin image.height), r.Covers ⟨x.val, y.val⟩

theorem isEmpty_part_iff {image : Image kind} {r : Rect} :
    (image.part r).IsEmpty ↔
      window image.width r.x r.width = [] ∨ window image.height r.y r.height = [] := by
  rw [← List.length_eq_zero_iff, ← List.length_eq_zero_iff]
  rfl

theorem meets_iff {image : Image kind} {r : Rect} : image.Meets r ↔ ¬ (image.part r).IsEmpty := by
  rw [isEmpty_part_iff, not_or]
  constructor
  · rintro ⟨x, y, hleft, hright, htop, hbottom⟩
    exact ⟨List.ne_nil_of_mem (mem_window.2 ⟨hleft, hright⟩),
      List.ne_nil_of_mem (mem_window.2 ⟨htop, hbottom⟩)⟩
  · rintro ⟨hcolumns, hrows⟩
    obtain ⟨x, hx⟩ := List.exists_mem_of_ne_nil _ hcolumns
    obtain ⟨y, hy⟩ := List.exists_mem_of_ne_nil _ hrows
    obtain ⟨hleft, hright⟩ := mem_window.1 hx
    obtain ⟨htop, hbottom⟩ := mem_window.1 hy
    exact ⟨x, y, hleft, hright, htop, hbottom⟩

instance (image : Image kind) (r : Rect) : Decidable (image.Meets r) :=
  decidable_of_iff (¬ (image.part r).IsEmpty) meets_iff.symm

theorem part_width (image : Image kind) (r : Rect) :
    (image.part r).width = (min (r.x + r.width) image.width - max r.x 0).toNat :=
  length_window _ _ _

theorem part_height (image : Image kind) (r : Rect) :
    (image.part r).height = (min (r.y + r.height) image.height - max r.y 0).toNat :=
  length_window _ _ _

theorem pixel?_part {image : Image kind} {r : Rect} {x y : Nat}
    (h : x < (image.part r).width ∧ y < (image.part r).height) :
    (image.part r).pixel? x y = image.pixel? ((max r.x 0).toNat + x) ((max r.y 0).toNat + y) := by
  have hx : x < (window image.width r.x r.width).length := h.1
  have hy : y < (window image.height r.y r.height).length := h.2
  have hcolumn := val_getElem_window hx
  have hrow := val_getElem_window hy
  rw [part, select, pixel?_ofFn, dif_pos ⟨hx, hy⟩, ← hcolumn, ← hrow, pixel?, dif_pos (by simp)]
  rfl

/-- A crop is the part of the picture at the rectangle brought in from the left and from above. -/
theorem crop_eq_part (image : Image kind) (r : Rect) : image.crop r = image.part r.broughtIn := by
  have hwidth : (image.crop r).width = (image.part r.broughtIn).width := by
    rw [crop_width, part_width]
    dsimp only [Rect.broughtIn]
    omega
  have hheight : (image.crop r).height = (image.part r.broughtIn).height := by
    rw [crop_height, part_height]
    dsimp only [Rect.broughtIn]
    omega
  apply ext_pixel? hwidth hheight
  intro x y
  by_cases hinside : x < (image.crop r).width ∧ y < (image.crop r).height
  · have hinside' := hinside
    rw [hwidth, hheight] at hinside'
    have hleft : (max r.broughtIn.x 0).toNat = r.x.toNat := by
      dsimp only [Rect.broughtIn]
      omega
    have htop : (max r.broughtIn.y 0).toNat = r.y.toNat := by
      dsimp only [Rect.broughtIn]
      omega
    rw [pixel?_crop hinside, pixel?_part hinside', hleft, htop]
  · have houtside := hinside
    rw [hwidth, hheight] at houtside
    rw [pixel?_eq_none hinside, pixel?_eq_none houtside]

/-- Bringing a rectangle in moves none of its pixels out of the picture. -/
theorem Meets.broughtIn {image : Image kind} {r : Rect} (h : image.Meets r) :
    image.Meets r.broughtIn := by
  obtain ⟨x, y, hleft, hright, htop, hbottom⟩ := h
  refine ⟨x, y, ?_⟩
  unfold Rect.Covers Rect.broughtIn
  dsimp only at *
  omega

/-- A crop with pixels is the part of the picture at the rectangle exactly if the rectangle does not
    begin on the left of the picture, or reaches to its right edge, and likewise from top to bottom.
    Else the crop is too large. -/
theorem crop_eq_part_iff {image : Image kind} {r : Rect} (hmeets : image.Meets r.broughtIn) :
    image.crop r = image.part r ↔
      (0 ≤ r.x ∨ (image.width : Int) ≤ r.x + r.width) ∧
        (0 ≤ r.y ∨ (image.height : Int) ≤ r.y + r.height) := by
  constructor
  · intro heq
    have hwidth := congrArg Image.width heq
    have hheight := congrArg Image.height heq
    rw [crop_width, part_width] at hwidth
    rw [crop_height, part_height] at hheight
    obtain ⟨x, y, hleft, hright, htop, hbottom⟩ := hmeets
    dsimp only [Rect.broughtIn] at hleft hright htop hbottom
    have hx := x.isLt
    have hy := y.isLt
    omega
  · rintro ⟨hcolumns, hrows⟩
    rw [crop_eq_part]
    unfold part Rect.broughtIn
    rw [window_max_eq hcolumns, window_max_eq hrows]

end Image

end ScoreOverlay
