import ScoreOverlay.Proofs.Glyph.Fusion.Conservation

namespace ScoreOverlay.Fusion

variable {threshold : Binary.Scalar}

/-- The loop goes from the first state to the second in that many turns. Each of them starts with
    the cursor inside the list and succeeds. -/
inductive Turns (threshold : Binary.Scalar) : Nat → Fusion → Fusion → Prop
  | none (s : Fusion) : Turns threshold 0 s s
  | turn {count : Nat} {s next last : Fusion} (hcursor : s.cursor < s.glyphs.length)
      (hstep : s.step threshold = .ok next) (hrest : Turns threshold count next last) :
      Turns threshold (count + 1) s last

/-- A successful turn of the recursion is a successful turn of the loop: the cursor stands at the
    glyph whose turn it is, and afterwards behind what that glyph has become. -/
theorem step_eq_ok {visited pending before kept after rest : List Glyph} {anchor grown : Glyph}
    (hbefore : split (fun other => anchor.rect.overlaps other.rect threshold) visited =
      .ok (before, kept))
    (hafter : split (fun other => anchor.rect.overlaps other.rect threshold) pending =
      .ok (after, rest))
    (hgrown : anchor.absorbAll (before ++ after) = .ok grown) :
    step threshold ⟨visited ++ anchor :: pending, visited.length⟩ =
      .ok ⟨(kept ++ [grown]) ++ rest, (kept ++ [grown]).length⟩ := by
  rw [step_eq, hbefore, hafter]
  simp [hgrown]

/-- Where the recursion succeeds, so does each turn of the loop, and after one turn for each glyph
    still to come at most the cursor stands behind the last glyph of the result. -/
theorem exists_turns_of_sweep {visited pending fused : List Glyph}
    (h : sweep threshold visited pending = .ok fused) :
    ∃ turns, turns ≤ pending.length ∧
      Turns threshold turns ⟨visited ++ pending, visited.length⟩ ⟨fused, fused.length⟩ := by
  induction hcount : pending.length using Nat.strong_induction_on
    generalizing visited pending with
  | _ count ih =>
    cases pending with
    | nil =>
      rw [sweep] at h
      cases h
      refine ⟨0, Nat.zero_le _, ?_⟩
      rw [List.append_nil]
      exact Turns.none _
    | cons anchor pending =>
      rw [sweep_cons] at h
      simp only [bind_eq_ok_iff] at h
      obtain ⟨⟨before, kept⟩, hbefore, ⟨after, rest⟩, hafter, grown, hgrown, h⟩ := h
      have hlength := split_length hafter
      simp only [List.length_cons] at hcount
      obtain ⟨turns, hturns, hrest⟩ := ih rest.length (by omega) h rfl
      refine ⟨turns + 1, by omega, ?_⟩
      apply Turns.turn
      · simp
      · exact step_eq_ok hbefore hafter hgrown
      · exact hrest

/-- The loop over positions is the recursion over two lists. Unless a coordinate overflows both give
    the same glyphs. The loop ends after one turn for each glyph of the list at most, with the
    cursor at the end of what is left, and every turn on the way succeeds: what it takes out is
    there, and the cursor never moves back past the start. -/
theorem fuse_takes_turns {glyphs : List Glyph} (hfits : NoOverflow (Glyph.fuse threshold glyphs)) :
    ∃ fused turns, Glyph.fuse threshold glyphs = .ok fused ∧
      sweep threshold [] glyphs = .ok fused ∧ turns ≤ glyphs.length ∧
      Turns threshold turns ⟨glyphs, 0⟩ ⟨fused, fused.length⟩ := by
  obtain ⟨fused, hfused⟩ := (fuse_inBounds threshold glyphs).exists_ok hfits
  have hsweep : sweep threshold [] glyphs = .ok fused := by rwa [← fuse_eq_sweep]
  obtain ⟨turns, hturns, hloop⟩ := exists_turns_of_sweep hsweep
  exact ⟨fused, turns, hfused, hsweep, hturns, hloop⟩

/-- Three glyphs, each over the edge of the next, and one apart from them. -/
private def scatter : List Glyph :=
  [⟨[⟨0, 0⟩], [], ⟨0, 0, 10, 10⟩, "a"⟩, ⟨[⟨8, 0⟩], [], ⟨8, 0, 10, 10⟩, "b"⟩,
    ⟨[⟨16, 0⟩], [], ⟨16, 0, 10, 10⟩, "c"⟩, ⟨[⟨50, 0⟩], [], ⟨50, 0, 5, 5⟩, "d"⟩]

/-- Four glyphs, of which the first takes over what stands behind it and the third what stands
    before it. -/
theorem fuse_takes_turns_scatter :
    NoOverflow (Glyph.fuse (.finite (mkRat 3 20)) scatter) ∧
      Glyph.fuse (.finite (mkRat 3 20)) scatter =
        .ok [⟨[⟨16, 0⟩], [[⟨0, 0⟩], [⟨8, 0⟩]], ⟨0, 0, 26, 10⟩, "c"⟩,
          ⟨[⟨50, 0⟩], [], ⟨50, 0, 5, 5⟩, "d"⟩] ∧
      ∃ fused turns, Glyph.fuse (.finite (mkRat 3 20)) scatter = .ok fused ∧
        sweep (.finite (mkRat 3 20)) [] scatter = .ok fused ∧ turns ≤ 4 ∧
        Turns (.finite (mkRat 3 20)) turns ⟨scatter, 0⟩ ⟨fused, fused.length⟩ :=
  ⟨by decide +kernel, by decide +kernel, fuse_takes_turns (by decide +kernel)⟩

end ScoreOverlay.Fusion
