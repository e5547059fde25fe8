import ScoreOverlay.Glyph.Basic
import ScoreOverlay.Proofs.Geometry.Join

namespace ScoreOverlay.Glyph

/-- What a glyph becomes when it takes over others: it keeps its own outline and text, its rectangle
    is the hull of all rectangles, and it shows its own outlines first and exactly those of the
    others after them, in some order. -/
structure IsFusionOf (g anchor : Glyph) (others : List Glyph) : Prop where
  outline : g.outline = anchor.outline
  text : g.text = anchor.text
  rect : g.rect.IsHullOf ((anchor :: others).map Glyph.rect)
  outlines_prefix : anchor.outlines <+: g.outlines
  outlines_perm : g.outlines.Perm ((anchor :: others).flatMap outlines)

theorem IsFusionOf.refl (g : Glyph) : g.IsFusionOf g [] where
  outline := rfl
  text := rfl
  rect := Rect.IsHullOf.singleton g.rect
  outlines_prefix := List.prefix_refl _
  outlines_perm := by simp

/-- A glyph that takes over nothing is unchanged. -/
theorem IsFusionOf.eq_of_alone {g anchor : Glyph} (h : g.IsFusionOf anchor []) : g = anchor := by
  have hperm : g.outlines.Perm anchor.outlines := by simpa using h.outlines_perm
  have houtlines := h.outlines_prefix.eq_of_length hperm.length_eq.symm
  obtain ⟨outline, absorbed, rect, text⟩ := g
  have hrect : rect = anchor.rect := h.rect.eq_of_singleton
  have habsorbed : absorbed = anchor.absorbed := (List.cons.inj houtlines).2.symm
  have houtline : outline = anchor.outline := h.outline
  have htext : text = anchor.text := h.text
  subst hrect habsorbed houtline htext
  rfl

theorem absorb_inBounds (g other : Glyph) : InBounds (g.absorb other) :=
  (Rect.union_inBounds _ _).bind fun _ _ => InBounds.pure _

theorem absorbAll_inBounds (g : Glyph) (others : List Glyph) : InBounds (g.absorbAll others) :=
  InBounds.foldlM fun g other _ => absorb_inBounds g other

theorem IsFusionOf.absorb {g anchor other part grown : Glyph} {others others' : List Glyph}
    (hg : g.IsFusionOf anchor others) (hpart : part.IsFusionOf other others')
    (hwidth : 0 ≤ g.rect.width) (hheight : 0 ≤ g.rect.height)
    (h : g.absorb part = .ok grown) : grown.IsFusionOf anchor (others ++ other :: others') := by
  obtain ⟨rect, hrect, hgrown⟩ := bind_eq_ok_iff.1 h
  cases hgrown
  constructor
  · exact hg.outline
  · exact hg.text
  · have hunion := hg.rect.union hpart.rect hwidth hheight hrect
    simpa using hunion
  · exact hg.outlines_prefix.trans (List.prefix_append g.outlines part.outlines)
  · have hperm := hg.outlines_perm.append hpart.outlines_perm
    simpa [outlines] using hperm

/-- Sizes are clamped, so a glyph that has grown has no negative one. -/
theorem size_nonneg_of_absorb {g part grown : Glyph} (h : g.absorb part = .ok grown) :
    0 ≤ grown.rect.width ∧ 0 ≤ grown.rect.height := by
  obtain ⟨rect, hrect, hgrown⟩ := bind_eq_ok_iff.1 h
  cases hgrown
  obtain ⟨hwidth, hheight⟩ := Rect.isProper_of_union hrect
  exact ⟨hwidth, hheight⟩

/-- Absorbing glyphs one after the other, each of them made of an anchor and others. -/
theorem IsFusionOf.absorbAll {α : Type} {part other : α → Glyph} {others' : α → List Glyph}
    {entries : List α} {g anchor grown : Glyph} {others : List Glyph}
    (hparts : ∀ entry ∈ entries, (part entry).IsFusionOf (other entry) (others' entry))
    (hg : g.IsFusionOf anchor others) (hwidth : 0 ≤ g.rect.width) (hheight : 0 ≤ g.rect.height)
    (h : g.absorbAll (entries.map part) = .ok grown) :
    grown.IsFusionOf anchor
        (others ++ entries.flatMap fun entry => other entry :: others' entry) ∧
      0 ≤ grown.rect.width ∧ 0 ≤ grown.rect.height := by
  induction entries generalizing g others with
  | nil =>
    cases h
    exact ⟨by simpa using hg, hwidth, hheight⟩
  | cons entry rest ih =>
    obtain ⟨next, hnext, h⟩ := bind_eq_ok_iff.1 h
    obtain ⟨hwidth', hheight'⟩ := size_nonneg_of_absorb hnext
    have hfirst := hg.absorb (hparts entry List.mem_cons_self) hwidth hheight hnext
    have hrest := ih (fun entry hentry => hparts entry (List.mem_cons_of_mem _ hentry)) hfirst
      hwidth' hheight' h
    simpa using hrest

/-- Of the rectangles only those of the other glyphs matter, in the order in which these come. -/
theorem rect_absorbAll (g : Glyph) (others : List Glyph) :
    (do return (← g.absorbAll others).rect) = (others.map rect).foldlM Rect.union g.rect := by
  induction others generalizing g with
  | nil => rfl
  | cons other rest ih =>
    rw [List.map_cons, List.foldlM_cons, absorbAll, List.foldlM_cons, absorb]
    simp only [bind_assoc, pure_bind]
    exact congrArg _ (funext fun _ => ih _)

theorem rect_absorbAll_sameOutcome {g : Glyph} {others others' : List Glyph}
    (hg : g.rect.IsProper) (hothers : ∀ other ∈ others, other.rect.IsProper)
    (hperm : others.Perm others') :
    SameOutcome (do return (← g.absorbAll others).rect)
      (do return (← g.absorbAll others').rect) := by
  have hexchange : ∀ r s t : Rect, r.IsProper → s.IsProper → t.IsProper → ∀ u,
      (do (← r.union s).union t) = .ok u ↔ (do (← r.union t).union s) = .ok u := by
    intro r s t hr hs ht u
    rw [Rect.union_assoc hr hs ht, Rect.union_assoc hr ht hs, Rect.union_comm s t]
  refine SameOutcome.of_iff ((absorbAll_inBounds _ _).bind fun _ _ => InBounds.pure _)
    ((absorbAll_inBounds _ _).bind fun _ _ => InBounds.pure _) fun u => ?_
  rw [rect_absorbAll, rect_absorbAll]
  exact foldlM_eq_ok_iff_of_perm (hperm.map rect) (List.forall_mem_map.2 hothers)
    (fun _ _ _ _ h => Rect.isProper_of_union h) hexchange hg

/-- Uniting rectangles without negative sides is a join. It does not depend on the order of two of
    them or on how three are grouped, leaves a rectangle united with itself unchanged, and gives the
    least rectangle around both. So the rectangle of a glyph does not depend on the order in which
    it absorbs others, and neither does whether a coordinate overflows. -/
theorem absorbAll_joins {r s t : Rect} (hr : r.IsProper) (hs : s.IsProper) (ht : t.IsProper) :
    r.union s = s.union r ∧
      SameOutcome (do (← r.union s).union t) (do r.union (← s.union t)) ∧
      (NoOverflow (r.union r) → r.union r = .ok r) ∧
      (NoOverflow (r.union s) → ∃ u, r.union s = .ok u ∧ u.IsJoinOf r s) ∧
      ∀ {g : Glyph} {others others' : List Glyph}, g.rect.IsProper →
        (∀ other ∈ others, other.rect.IsProper) → others.Perm others' →
        SameOutcome (do return (← g.absorbAll others).rect)
          (do return (← g.absorbAll others').rect) := by
  refine ⟨Rect.union_comm r s, ?_, fun hfits => ?_, fun hfits => ?_, rect_absorbAll_sameOutcome⟩
  · exact SameOutcome.of_iff
      ((Rect.union_inBounds _ _).bind fun _ _ => Rect.union_inBounds _ _)
      ((Rect.union_inBounds _ _).bind fun _ _ => Rect.union_inBounds _ _)
      fun _ => Rect.union_assoc hr hs ht
  · obtain ⟨u, hu⟩ := (Rect.union_inBounds r r).exists_ok hfits
    rw [hu, Rect.union_self hr hu]
  · obtain ⟨u, hu⟩ := (Rect.union_inBounds r s).exists_ok hfits
    exact ⟨u, hu, Rect.isJoinOf_of_union hr hs hu⟩

private def stem : Glyph := ⟨[], [], ⟨0, 0, 4, 4⟩, "i"⟩

/-- A line of pixels has no columns between its sides. -/
private def line : Glyph := ⟨[], [], ⟨10, 2, 0, 6⟩, ""⟩

private def dot : Glyph := ⟨[], [], ⟨-3, 1, 2, 2⟩, "."⟩

theorem absorbAll_joins_line :
    (stem.rect.union line.rect = .ok ⟨0, 0, 10, 8⟩ ∧
      line.rect.union stem.rect = .ok ⟨0, 0, 10, 8⟩ ∧
      (⟨0, 0, 10, 8⟩ : Rect).IsJoinOf stem.rect line.rect) ∧
    (do (← stem.rect.union line.rect).union dot.rect) = .ok ⟨-3, 0, 13, 8⟩ ∧
    (do stem.rect.union (← line.rect.union dot.rect)) = .ok ⟨-3, 0, 13, 8⟩ ∧
    stem.rect.union stem.rect = .ok stem.rect ∧
    (do return (← stem.absorbAll [line, dot]).rect) = .ok ⟨-3, 0, 13, 8⟩ ∧
    (do return (← stem.absorbAll [dot, line]).rect) = .ok ⟨-3, 0, 13, 8⟩ := by
  have hunion : stem.rect.union line.rect = .ok ⟨0, 0, 10, 8⟩ := by decide
  have hleft : (do (← stem.rect.union line.rect).union dot.rect) = .ok ⟨-3, 0, 13, 8⟩ := by decide
  have hself : stem.rect.union stem.rect = .ok stem.rect := by decide
  have habsorbed : (do return (← stem.absorbAll [line, dot]).rect) = .ok ⟨-3, 0, 13, 8⟩ := by
    decide
  have hproper : ∀ g ∈ [stem, line, dot], g.rect.IsProper := by
    simp only [List.forall_mem_cons, List.not_mem_nil, false_imp_iff, implies_true, and_true]
    exact ⟨⟨by decide, by decide⟩, ⟨by decide, by decide⟩, by decide, by decide⟩
  obtain ⟨hcomm, hassoc, hidem, hjoin, horder⟩ := absorbAll_joins (hproper stem (by simp))
    (hproper line (by simp)) (hproper dot (by simp))
  obtain ⟨u, hu, hjoin⟩ := hjoin (NoOverflow.of_ok hunion)
  rw [hunion] at hu
  cases hu
  refine ⟨⟨hunion, hcomm ▸ hunion, hjoin⟩, hleft, ?_, hidem (NoOverflow.of_ok hself), habsorbed, ?_⟩
  · obtain ⟨v, hv, hright⟩ | ⟨hoverflow, -⟩ := hassoc
    · rw [hright, ← hv, hleft]
    · exact absurd (NoOverflow.of_ok hleft) hoverflow
  · obtain ⟨v, hv, hswapped⟩ | ⟨hoverflow, -⟩ := horder (g := stem) (hproper stem (by simp))
      (fun other hother => hproper other (List.mem_cons_of_mem _ hother))
      (List.Perm.swap dot line [])
    · rw [hswapped, ← hv, habsorbed]
    · exact absurd (NoOverflow.of_ok habsorbed) hoverflow

end ScoreOverlay.Glyph
