import ScoreOverlay.Proofs.Checked.Overflow
import ScoreOverlay.Proofs.Image.Bounds
import ScoreOverlay.Proofs.Image.Corners
import ScoreOverlay.Proofs.Image.Masking
import ScoreOverlay.Proofs.Image.Safety

namespace ScoreOverlay

/-- A way to find the pixels of a canvas that a polygon covers. -/
abbrev Painter := Canvas → List Point → Checked (List Point)

/-- The pixels inside the polygon and those of its edges. -/
def Polygon.paint : Painter := fun canvas corners => do
  let inside ← interior canvas corners
  return inside ++ (← boundary canvas corners)

theorem Polygon.paint_inBounds (canvas : Canvas) (corners : List Point) :
    InBounds (paint canvas corners) :=
  (interior_inBounds _ _).bind fun _ _ => (boundary_inBounds _ _).bind fun _ _ => InBounds.pure _

namespace Outline

/-- The pixels of the canvas that an outline covers, for any painter. Only outlines with two corners
    or more are given to it. -/
def paintBy (draw : Painter) (canvas : Canvas) (o : Outline) : Checked (List Point) :=
  match corners o with
  | [] => return []
  | [p] => return [p].filter fun p => canvas.Holds p
  | p :: q :: rest => draw canvas (p :: q :: rest)

/-- The pixels of the canvas that an outline covers as seen from the origin. -/
def paintFrom (draw : Painter) (canvas : Canvas) (origin : Point) (o : Outline) :
    Checked (List Point) := do
  paintBy draw canvas (← o.mapM (·.relativeTo origin))

variable {draw draw' : Painter} {canvas : Canvas} {origin : Point} {o o' : Outline}

/-- What a painter does with polygons that cannot be drawn does not matter. -/
theorem paintBy_congr
    (h : ∀ canvas polygon, IsDrawable polygon → draw' canvas polygon = draw canvas polygon)
    (canvas : Canvas) (o : Outline) : o.paintBy draw' canvas = o.paintBy draw canvas := by
  unfold paintBy
  split
  · rfl
  · rfl
  · rename_i p q rest hcorners
    have hdrawable := isDrawable_corners (o := o) (by simp [hcorners])
    rw [hcorners] at hdrawable
    exact h canvas _ hdrawable

theorem paintBy_inBounds
    (hdraw : ∀ canvas polygon, IsDrawable polygon → InBounds (draw canvas polygon))
    (canvas : Canvas) (o : Outline) : InBounds (o.paintBy draw canvas) := by
  unfold paintBy
  split
  · exact InBounds.pure _
  · exact InBounds.pure _
  · rename_i p q rest hcorners
    have hdrawable := isDrawable_corners (o := o) (by simp [hcorners])
    rw [hcorners] at hdrawable
    exact hdraw canvas _ hdrawable

theorem paintFrom_inBounds
    (hdraw : ∀ canvas polygon, IsDrawable polygon → InBounds (draw canvas polygon))
    (canvas : Canvas) (origin : Point) (o : Outline) : InBounds (o.paintFrom draw canvas origin) :=
  (InBounds.mapM fun p _ => Point.relativeTo_inBounds p origin).bind fun _ _ =>
    paintBy_inBounds hdraw canvas _

/-- A computation on the results of a list that does not depend on how they are written down does
    not depend on how the list is written down either. -/
theorem Respells.mapM_bind {α β γ : Type} {f : α → Checked β} {k : List β → Checked γ}
    {l l' : List α} (hk : ∀ m m', Respells m m' → k m' = k m) (h : Respells l l') :
    l'.mapM f >>= k = l.mapM f >>= k := by
  cases h with
  | repeated before a after =>
    simp only [List.mapM_append, List.mapM_cons, bind_assoc, pure_bind]
    cases before.mapM f with
    | error fault => rfl
    | ok bs =>
      cases f a with
      | error fault => rfl
      | ok b =>
        cases after.mapM f with
        | error fault => rfl
        | ok cs => exact hk _ _ (.repeated bs b cs)
  | closed first rest =>
    simp only [List.mapM_append, List.mapM_cons, List.mapM_nil, bind_assoc, pure_bind]
    cases f first with
    | error fault => rfl
    | ok b =>
      cases rest.mapM f with
      | error fault => rfl
      | ok bs => exact hk _ _ (.closed b bs)

theorem paintFrom_respelled (h : Relation.EqvGen Respells o o') :
    o'.paintFrom draw canvas origin = o.paintFrom draw canvas origin := by
  induction h with
  | rel o o' h =>
    refine h.mapM_bind fun m m' hm => ?_
    unfold paintBy
    rw [hm.corners_eq]
  | refl o => rfl
  | symm o o' _ ih => exact ih.symm
  | trans o o' o'' _ _ ih ih' => exact ih'.trans ih

/-- The outline covers the pixel. -/
def PaintsBy (draw : Painter) (canvas : Canvas) (origin : Point) (o : Outline) (p : Point) : Prop :=
  ∃ painted, o.paintFrom draw canvas origin = .ok painted ∧ p ∈ painted

end Outline

namespace Image

variable {kind : PixelKind}

/-- Makes every pixel opaque black that no outline covers, for any painter. -/
def maskedBy (draw : Painter) (image : Image kind) (origin : Point) (outlines : List Outline) :
    Checked (Image kind) := do
  let painted ← outlines.mapM (Outline.paintFrom draw image.canvas origin)
  return image.keepOnly (painted.flatten.map fun p => (p.x, p.y))

variable {draw draw' : Painter} {image result result' : Image kind} {origin : Point}
  {outlines outlines' : List Outline}

theorem masked_eq_maskedBy (image : Image kind) (origin : Point) (outlines : List Outline) :
    image.masked origin outlines = image.maskedBy Polygon.paint origin outlines := by
  unfold masked visible maskedBy
  rw [bind_assoc]
  rfl

/-- The picture has the pixels of the other one in the given positions and is opaque black
    elsewhere. -/
structure IsMaskOf (result image : Image kind) (shown : Nat → Nat → Prop) : Prop where
  size : result.SameSize image
  same : ∀ x y, shown x y → result.pixel? x y = image.pixel? x y
  blank : ∀ x y, ¬ shown x y →
    result.pixel? x y = (image.pixel? x y).map fun _ => Pixel.blank

theorem IsMaskOf.unique {shown shown' : Nat → Nat → Prop} (h : result.IsMaskOf image shown)
    (h' : result'.IsMaskOf image shown') (hshown : ∀ x y, shown x y ↔ shown' x y) :
    result = result' := by
  refine ext_pixel? (h.size.width.trans h'.size.width.symm)
    (h.size.height.trans h'.size.height.symm) fun x y => ?_
  by_cases hxy : shown x y
  · rw [h.same x y hxy, h'.same x y ((hshown x y).1 hxy)]
  · rw [h.blank x y hxy, h'.blank x y (mt (hshown x y).2 hxy)]

theorem keepOnly_isMaskOf (image : Image kind) (positions : List (Int × Int)) :
    (image.keepOnly positions).IsMaskOf image fun x y => ((x : Int), (y : Int)) ∈ positions := by
  refine ⟨⟨rfl, rfl⟩, fun x y hkept => ?_, fun x y hkept => ?_⟩
  · simp only [pixel?_keepOnly, if_pos hkept, Option.map_id']
  · simp only [pixel?_keepOnly, if_neg hkept]

/-- Outlines make visible what each of them covers. -/
theorem isMaskOf_of_maskedBy (h : image.maskedBy draw origin outlines = .ok result) :
    result.IsMaskOf image fun x y =>
      ∃ o ∈ outlines, o.PaintsBy draw image.canvas origin ⟨x, y⟩ := by
  obtain ⟨painted, hpainted, h⟩ := bind_eq_ok_iff.1 h
  cases h
  simp only [Outline.PaintsBy, ← mem_painted_iff hpainted]
  exact keepOnly_isMaskOf image _

theorem exists_maskedBy_iff :
    (∃ result, image.maskedBy draw origin outlines = .ok result) ↔
      ∀ o ∈ outlines, ∃ pixels, o.paintFrom draw image.canvas origin = .ok pixels := by
  constructor
  · rintro ⟨result, h⟩ o ho
    obtain ⟨painted, hpainted, -⟩ := bind_eq_ok_iff.1 h
    have hmem := List.mem_map_of_mem (f := Outline.paintFrom draw image.canvas origin) ho
    rw [mapM_eq_ok_iff.1 hpainted] at hmem
    obtain ⟨pixels, -, hpixels⟩ := List.mem_map.1 hmem
    exact ⟨pixels, hpixels.symm⟩
  · intro h
    have hbounds : InBounds (outlines.mapM (Outline.paintFrom draw image.canvas origin)) :=
      InBounds.mapM fun o ho => (h o ho).elim fun _ => InBounds.of_ok
    have hfits : NoOverflow (outlines.mapM (Outline.paintFrom draw image.canvas origin)) :=
      NoOverflow.mapM fun o ho => (h o ho).elim fun _ => NoOverflow.of_ok
    obtain ⟨painted, hpainted⟩ := hbounds.exists_ok hfits
    exact ⟨_, bind_eq_ok_iff.2 ⟨painted, hpainted, rfl⟩⟩

/-- The masked picture does not depend on the order of the outlines, or how often each of them is
    given. -/
theorem maskedBy_eq_of_mem_iff (h : image.maskedBy draw origin outlines = .ok result)
    (hsame : ∀ o, o ∈ outlines' ↔ o ∈ outlines) :
    image.maskedBy draw origin outlines' = .ok result := by
  have hpaint := exists_maskedBy_iff.1 ⟨result, h⟩
  obtain ⟨result', h'⟩ := exists_maskedBy_iff.2 fun o ho => hpaint o ((hsame o).1 ho)
  rw [h', (isMaskOf_of_maskedBy h').unique (isMaskOf_of_maskedBy h)]
  simp only [hsame, implies_true]

theorem maskedBy_congr
    (h : ∀ canvas polygon, Outline.IsDrawable polygon → draw' canvas polygon = draw canvas polygon)
    (image : Image kind) (origin : Point) (outlines : List Outline) :
    image.maskedBy draw' origin outlines = image.maskedBy draw origin outlines := by
  have hpaint : Outline.paintFrom draw' image.canvas origin =
      Outline.paintFrom draw image.canvas origin := by
    funext o
    unfold Outline.paintFrom
    simp only [Outline.paintBy_congr h]
  unfold maskedBy
  rw [hpaint]

/-- The masked picture does not depend on how the outlines are written down. -/
theorem maskedBy_respelled
    (h : List.Forall₂ (Relation.EqvGen Outline.Respells) outlines outlines') :
    image.maskedBy draw origin outlines' = image.maskedBy draw origin outlines := by
  have hpaint : outlines'.mapM (Outline.paintFrom draw image.canvas origin) =
      outlines.mapM (Outline.paintFrom draw image.canvas origin) := by
    induction h with
    | nil => rfl
    | cons ho _ ih => rw [List.mapM_cons, List.mapM_cons, ih, Outline.paintFrom_respelled ho]
  unfold maskedBy
  rw [hpaint]

/-- Masking does not depend on how outlines are written down. Whatever finds the pixels of a polygon
    is only ever given two corners or more of which the last one is not the first again, so that
    it may do anything with other lists. The picture keeps what at least one outline covers on its
    own and is opaque black elsewhere. So outlines can change places or be repeated, points of an
    outline can be repeated, and an outline can be closed. -/
theorem maskedBy_ignoresSpelling
    (hdraw : ∀ canvas polygon, Outline.IsDrawable polygon → InBounds (draw canvas polygon))
    (hfits : NoOverflow (image.maskedBy draw origin outlines)) :
    image.masked origin outlines = image.maskedBy Polygon.paint origin outlines ∧
    ∃ result, image.maskedBy draw origin outlines = .ok result ∧
      (∀ draw' : Painter,
        (∀ canvas polygon, Outline.IsDrawable polygon →
          draw' canvas polygon = draw canvas polygon) →
        image.maskedBy draw' origin outlines = .ok result) ∧
      (result.IsMaskOf image fun x y =>
        ∃ o ∈ outlines, o.PaintsBy draw image.canvas origin ⟨x, y⟩) ∧
      (∀ o ∈ outlines, ∃ alone, image.maskedBy draw origin [o] = .ok alone ∧
        alone.IsMaskOf image fun x y => o.PaintsBy draw image.canvas origin ⟨x, y⟩) ∧
      (∀ outlines', (∀ o, o ∈ outlines' ↔ o ∈ outlines) →
        image.maskedBy draw origin outlines' = .ok result) ∧
      (∀ outlines', List.Forall₂ (Relation.EqvGen Outline.Respells) outlines outlines' →
        image.maskedBy draw origin outlines' = .ok result) := by
  have hbounds : InBounds (image.maskedBy draw origin outlines) :=
    (InBounds.mapM fun o _ => Outline.paintFrom_inBounds hdraw _ _ o).bind fun _ _ =>
      InBounds.pure _
  obtain ⟨result, hresult⟩ := hbounds.exists_ok hfits
  have hpaint := exists_maskedBy_iff.1 ⟨result, hresult⟩
  refine ⟨masked_eq_maskedBy image origin outlines, result, hresult, fun draw' hsame => ?_,
    isMaskOf_of_maskedBy hresult, fun o ho => ?_, fun outlines' => maskedBy_eq_of_mem_iff hresult,
    fun outlines' hrespelled => ?_⟩
  · rw [maskedBy_congr hsame, hresult]
  · obtain ⟨alone, halone⟩ :=
      exists_maskedBy_iff.2 (List.forall_mem_singleton.2 (hpaint o ho))
    refine ⟨alone, halone, ?_⟩
    simpa using isMaskOf_of_maskedBy halone
  · rw [maskedBy_respelled hrespelled, hresult]

/-- A light picture of four by four pixels. -/
private def tile : Image .gray8 := ofFn 4 4 fun _ _ => Pixel.blank.inverted

private def triangle : Outline := [⟨0, 0⟩, ⟨3, 0⟩, ⟨0, 3⟩]

private def dot : Outline := [⟨3, 3⟩]

/-- The triangle can be closed, and the dot can be given three times. -/
theorem maskedBy_ignoresSpelling_triangle :
    ∃ result, tile.masked ⟨0, 0⟩ [triangle, dot] = .ok result ∧
      tile.masked ⟨0, 0⟩ [dot, triangle, dot] = .ok result ∧
      tile.masked ⟨0, 0⟩ [triangle ++ [⟨0, 0⟩], [⟨3, 3⟩, ⟨3, 3⟩]] = .ok result := by
  have hfits : NoOverflow (tile.maskedBy Polygon.paint ⟨0, 0⟩ [triangle, dot]) := by
    rw [← masked_eq_maskedBy]
    exact masked_noOverflow (by decide) (by decide) (by decide) (by decide)
  obtain ⟨-, result, hresult, -, -, -, hsame, hrespelled⟩ :=
    maskedBy_ignoresSpelling (fun canvas polygon _ => Polygon.paint_inBounds canvas polygon) hfits
  simp only [masked_eq_maskedBy]
  refine ⟨result, hresult, hsame _ (by simp [or_comm]), hrespelled _ ?_⟩
  refine .cons (.rel _ _ (.closed _ _)) (.cons (.rel _ _ (.repeated [] _ [])) .nil)

end Image

end ScoreOverlay
