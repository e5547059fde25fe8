import ScoreOverlay.Proofs.Glyph.Safety
import ScoreOverlay.Settings.Validity

namespace ScoreOverlay

namespace Rect

section Pixels

variable {r p : Rect} {margin : Int} {frame : Frame}

/-- Of a rectangle in the frame, padding keeps the pixels that lie neither in the last column nor in
    the last row of the frame. -/
theorem covers_padded_iff (hmargin : 0 < margin) (hr : r.IsWithin frame.area)
    (h : r.padded margin frame = .ok p) {q : Point} (hq : r.Covers q) :
    p.Covers q ↔ q.x + 1 < frame.width ∧ q.y + 1 < frame.height := by
  obtain ⟨width, height, hp, hx, hy⟩ := padded_eq_ok hmargin hr.width hr.height h
  rw [isWithin_frame_iff] at hr
  obtain ⟨hcolumn, hcolumn', hrow, hrow'⟩ := hq
  have hcolumns := hx.mem_iff (by omega) (by omega) ⟨hcolumn, hcolumn'⟩
  have hrows := hy.mem_iff (by omega) (by omega) ⟨hrow, hrow'⟩
  have hwidth : p.width = max width 0 := congrArg Rect.width hp
  have hheight : p.height = max height 0 := congrArg Rect.height hp
  rw [← hcolumns, ← hrows, Covers, hwidth, hheight, and_assoc]

/-- A margin need not keep a glyph whole. A side that would reach the edge of the frame ends one
    pixel short of it, so that exactly the pixels in the last column and the last row of the frame
    are lost, and the glyph is whole if and only if it touches neither. -/
theorem padded_keeps_inner (hmargin : 0 < margin) (hr : r.IsWithin frame.area)
    (hne : ¬ r.IsEmpty) (hfits : NoOverflow (r.padded margin frame)) :
    ∃ p, r.padded margin frame = .ok p ∧
      (∀ q, r.Covers q → (p.Covers q ↔ q.x + 1 < frame.width ∧ q.y + 1 < frame.height)) ∧
      ((∀ q, r.Covers q → p.Covers q) ↔
        r.x + r.width < frame.width ∧ r.y + r.height < frame.height) := by
  obtain ⟨p, hp⟩ := (padded_inBounds r margin frame).exists_ok hfits
  have hkept : ∀ q, r.Covers q →
      (p.Covers q ↔ q.x + 1 < frame.width ∧ q.y + 1 < frame.height) :=
    fun q hq => covers_padded_iff hmargin hr hp hq
  refine ⟨p, hp, hkept, ?_, ?_⟩
  · intro hwhole
    obtain ⟨hwidth, hheight⟩ := not_isEmpty_iff.1 hne
    -- The pixel in the lower right corner is the first one to be lost.
    have hcorner : r.Covers ⟨r.x + r.width - 1, r.y + r.height - 1⟩ := by
      unfold Covers
      dsimp only
      omega
    have hinner := (hkept _ hcorner).1 (hwhole _ hcorner)
    dsimp only at hinner
    omega
  · intro hinner q hq
    apply (hkept q hq).2
    unfold Covers at hq
    omega

/-- A glyph inside the frame, and the same one moved to the right edge. -/
theorem padded_keeps_inner_edge :
    (∃ p, padded ⟨20, 10, 10, 12⟩ 4 ⟨40, 30⟩ = .ok p ∧
        ∀ q, Covers ⟨20, 10, 10, 12⟩ q → p.Covers q) ∧
      ∃ p, padded ⟨30, 10, 10, 12⟩ 4 ⟨40, 30⟩ = .ok p ∧
        ¬ ∀ q, Covers ⟨30, 10, 10, 12⟩ q → p.Covers q := by
  obtain ⟨inside, hinside, -, hwhole⟩ := @padded_keeps_inner ⟨20, 10, 10, 12⟩ 4 ⟨40, 30⟩
    (by decide) (by decide) (by decide) (by decide)
  obtain ⟨edge, hedge, -, hcut⟩ := @padded_keeps_inner ⟨30, 10, 10, 12⟩ 4 ⟨40, 30⟩
    (by decide) (by decide) (by decide) (by decide)
  exact ⟨⟨inside, hinside, hwhole.2 (by decide)⟩, edge, hedge, mt hcut.1 (by decide)⟩

/-- Padding can cut into a glyph. -/
theorem padded_cuts_edge :
    ¬ ∀ (r : Rect) (margin : Int) (frame : Frame), 2 ≤ frame.width → 2 ≤ frame.height →
      r.IsWithin frame.area → ¬ r.IsEmpty → 0 < margin → NoOverflow (r.padded margin frame) →
        ∃ p, r.padded margin frame = .ok p ∧ ∀ q, r.Covers q → p.Covers q := by
  intro hwhole
  obtain ⟨p, hp, hcovers⟩ := hwhole ⟨30, 10, 10, 12⟩ 4 ⟨40, 30⟩ (by decide) (by decide) (by decide)
    (by decide) (by decide) (by decide)
  have hcut : padded ⟨30, 10, 10, 12⟩ 4 ⟨40, 30⟩ = .ok ⟨28, 8, 11, 16⟩ := by decide
  rw [hcut] at hp
  cases hp
  exact absurd (hcovers ⟨39, 10⟩ (by decide)) (by decide)

/-- Three halves of the margin have to fit behind a glyph that is not thin. -/
theorem le_of_padded (hwide : ¬ r.width < r.height.tdiv 5) (hpixels : 0 < r.width)
    (h : r.padded margin frame = .ok p) :
    r.width + 3 * ((max margin 0 + 1) / 2) ≤ 2147483647 := by
  obtain ⟨grown, hgrown, h⟩ := bind_eq_ok_iff.1 h
  have hhalf : grown.tdiv 2 = (max margin 0 + 1) / 2 := by
    rw [Coordinate.eq_of_add_eq_ok hgrown, Int.tdiv_eq_ediv_of_nonneg (by omega)]
  have hside : ¬ (r.width < 1 ∧ 0 < margin) := by omega
  dsimp only at h
  rw [if_neg hwide, if_neg hside, hhalf] at h
  obtain ⟨moved, hmoved, h⟩ := bind_eq_ok_iff.1 h
  obtain ⟨side, hside, h⟩ := bind_eq_ok_iff.1 h
  obtain ⟨stop, hstop, -⟩ := bind_eq_ok_iff.1 hside
  obtain ⟨reached, hreached, hstop⟩ := bind_eq_ok_iff.1 hstop
  obtain ⟨product, hproduct, hstop⟩ := bind_eq_ok_iff.1 hstop
  have hinRange := (Coordinate.check_eq_ok_iff.1 hstop).1.2
  have := Coordinate.eq_of_add_eq_ok hreached
  have := Coordinate.eq_of_check_eq_ok hproduct
  unfold Coordinate.greatest at hinRange
  omega

end Pixels

end Rect

theorem Rect.IsWithin.safeArea_of_frame {r : Rect} {frame : Frame} (h : r.IsWithin frame.area)
    (hframe : frame.IsSafe) : r.IsWithin Rect.safeArea := by
  rw [Rect.isWithin_frame_iff] at h
  have := hframe.width
  have := hframe.height
  rw [Rect.isWithin_safeArea_iff]
  omega

namespace Settings

/-- The widest margin that fits around every glyph in every frame up to the size that is expected:
    three halves of it and the side of the largest frame make the greatest coordinate. -/
def maxMargin : Int := 1431612074

/-- The margin has a condition of its own. -/
theorem Valid.withMargin {settings : Settings} (h : settings.Valid) {margin : Int}
    (hmargin : 0 ≤ margin) : ({ settings with margin } : Settings).Valid := by
  obtain ⟨harea, hheight, hwidth, hoverlap, hsymmetry, hspacing, -⟩ := h
  exact ⟨harea, hheight, hwidth, hoverlap, hsymmetry, hspacing, hmargin⟩

theorem findGlyphs_noOverflow_of_le {settings : Settings} {outlines : List Outline}
    {frame : Frame} (hmargin : settings.margin ≤ maxMargin) (hframe : frame.IsSafe)
    (hpoints : ∀ o ∈ outlines, ∀ p ∈ o, frame.area.Covers p) :
    NoOverflow (settings.findGlyphs outlines frame) := by
  have hwidth := hframe.width
  have hheight := hframe.height
  have hsafe : ∀ o ∈ outlines, ∀ p ∈ o, Rect.safeArea.Covers p := by
    intro o ho p hp
    have hcovers := hpoints o ho p hp
    simp only [Rect.Covers, Frame.area, Rect.safeArea] at hcovers ⊢
    omega
  apply findGlyphs_noOverflow_of_padded hsafe
  intro found fused hfound hfused g hg
  obtain ⟨hwithin, -⟩ :=
    Glyph.standsIn_of_fuse (Glyph.standsIn_of_select hpoints hfound) hfused g hg
  have hinside := Rect.isWithin_frame_iff.1 hwithin
  unfold maxMargin at hmargin
  exact Rect.padded_noOverflow_of_reach 65536 (hwithin.safeArea_of_frame hframe) (by omega)
    (by omega) (by omega) hframe

/-- A line along the first row of the widest frame. -/
private def longLine : Outline := [⟨0, 0⟩, ⟨65535, 0⟩]

private def longLineGlyph : Glyph := ⟨longLine, [], ⟨0, 0, 65536, 1⟩, ""⟩

/-- Settings with which the line counts as a glyph. -/
private def lineSettings : Settings :=
  { limits := { minArea := 0, minHeight := 1, maxWidth := 65536 } }

private theorem padded_longLine {margin : Int} {glyphs : List Glyph} (hmargin : 0 < margin)
    (h : ({ lineSettings with margin } : Settings).findGlyphs [longLine] ⟨65536, 1⟩ = .ok glyphs) :
    ∃ p, longLineGlyph.rect.padded margin ⟨65536, 1⟩ = .ok p := by
  have hfound : Glyph.ofOutlines [longLine] = .ok [longLineGlyph] := by decide +kernel
  have hselected : lineSettings.limits.select [longLineGlyph] = [longLineGlyph] := by
    decide +kernel
  have hfused : Glyph.fuse lineSettings.overlapThreshold [longLineGlyph] = .ok [longLineGlyph] := by
    decide +kernel
  unfold findGlyphs at h
  dsimp only at h
  rw [hfound, ok_bind, hselected, hfused, ok_bind, if_neg (by omega)] at h
  obtain ⟨g, hg, -⟩ := bind_eq_ok_iff.1 h
  obtain ⟨p, hp, -⟩ := bind_eq_ok_iff.1 hg
  exact ⟨p, hp⟩

/-- Validation alone does not keep the margin from overflowing. With valid settings, glyphs are
    found in every frame of up to 65536 pixels on each side, for all outlines in it, if and only if
    the margin is not wider than `maxMargin`; validation accepts every margin that is not
    negative. -/
theorem findGlyphs_succeeds_iff (margin : Int) :
    (∀ (settings : Settings) (outlines : List Outline) (frame : Frame), settings.Valid →
        settings.margin = margin → frame.IsSafe → 1 ≤ frame.width → 1 ≤ frame.height →
        (∀ o ∈ outlines, ∀ p ∈ o, frame.area.Covers p) →
          ∃ glyphs, settings.findGlyphs outlines frame = .ok glyphs) ↔
      margin ≤ maxMargin := by
  constructor
  · intro hsucceeds
    by_contra hwide
    have hmargin : 0 < margin := by
      unfold maxMargin at hwide
      omega
    have hvalid : lineSettings.Valid := by decide +kernel
    obtain ⟨glyphs, hglyphs⟩ := hsucceeds { lineSettings with margin } [longLine] ⟨65536, 1⟩
      (hvalid.withMargin (by omega)) rfl ⟨by decide, by decide⟩ (by decide) (by decide) (by decide)
    obtain ⟨p, hp⟩ := padded_longLine hmargin hglyphs
    have hroom := Rect.le_of_padded (by decide) (by decide) hp
    have hlong : longLineGlyph.rect.width = 65536 := rfl
    unfold maxMargin at hwide
    omega
  · intro hmargin settings outlines frame _ hsame hframe _ _ hpoints
    exact (settings.findGlyphs_inBounds outlines frame).exists_ok
      (findGlyphs_noOverflow_of_le (by omega) hframe hpoints)

/-- Valid settings can overflow while glyphs are found. -/
theorem findGlyphs_overflows :
    ¬ ∀ (settings : Settings) (outlines : List Outline) (frame : Frame), settings.Valid →
      frame.IsSafe → 1 ≤ frame.width → 1 ≤ frame.height →
      (∀ o ∈ outlines, ∀ p ∈ o, frame.area.Covers p) →
        NoOverflow (settings.findGlyphs outlines frame) := by
  intro hfits
  have hvalid : ({ margin := 2147483647 } : Settings).Valid := valid_default.withMargin (by decide)
  have hnone := hfits { margin := 2147483647 } [[⟨10, 10⟩, ⟨18, 10⟩, ⟨18, 22⟩, ⟨10, 22⟩]] ⟨200, 100⟩
    hvalid ⟨by decide, by decide⟩ (by decide) (by decide) (by decide)
  exact absurd hnone (by decide +kernel)

end Settings

end ScoreOverlay
