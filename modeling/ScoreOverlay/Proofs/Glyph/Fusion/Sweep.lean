import ScoreOverlay.Glyph.Fusion
import ScoreOverlay.Proofs.Checked.Split

namespace ScoreOverlay.Fusion

/-- The pass as a recursion without positions. The glyphs that had their turn and those still to
    come are two lists, and each turn divides both by what overlaps its glyph. -/
def sweep (threshold : Binary.Scalar) (visited pending : List Glyph) : Checked (List Glyph) :=
  match pending with
  | [] => .ok visited
  | anchor :: pending =>
    match split (fun other => anchor.rect.overlaps other.rect threshold) visited with
    | .error fault => .error fault
    | .ok (before, kept) =>
      match _ : split (fun other => anchor.rect.overlaps other.rect threshold) pending with
      | .error fault => .error fault
      | .ok (after, rest) => do
        sweep threshold (kept ++ [← anchor.absorbAll (before ++ after)]) rest
termination_by pending.length
decreasing_by
  have hlength := split_length ‹split _ pending = .ok (after, rest)›
  simp only [List.length_cons]
  omega

theorem sweep_cons (threshold : Binary.Scalar) (visited pending : List Glyph) (anchor : Glyph) :
    sweep threshold visited (anchor :: pending) = (do
      let (before, kept) ← split (fun other => anchor.rect.overlaps other.rect threshold) visited
      let (after, rest) ← split (fun other => anchor.rect.overlaps other.rect threshold) pending
      sweep threshold (kept ++ [← anchor.absorbAll (before ++ after)]) rest) := by
  rw [sweep]
  cases split (fun other => anchor.rect.overlaps other.rect threshold) visited with
  | error fault => rfl
  | ok parts =>
    simp only [ok_bind]
    cases split (fun other => anchor.rect.overlaps other.rect threshold) pending <;> rfl

/-- Positions before the cursor belong to glyphs that had their turn, and positions behind it to
    those still to come. -/
private theorem countP_before_cursor {p : Glyph × Nat → Checked Bool} {visited pending : List Glyph}
    {before kept after rest : List (Glyph × Nat)}
    (hbefore : split p visited.zipIdx = .ok (before, kept))
    (hafter : split p (pending.zipIdx (visited.length + 1)) = .ok (after, rest)) :
    ((before ++ after).map Prod.snd).countP (· < visited.length) = before.length := by
  obtain ⟨_, hparts⟩ := split_eq_ok_iff.1 hbefore
  obtain ⟨_, hparts'⟩ := split_eq_ok_iff.1 hafter
  cases hparts
  cases hparts'
  rw [List.map_append, List.countP_append, List.countP_eq_length.2, List.countP_eq_zero.2]
  · rw [List.length_map, Nat.add_zero]
  · intro position hposition
    obtain ⟨entry, hentry, rfl⟩ := List.mem_map.1 hposition
    have hle := (List.mem_zipIdx (List.mem_filter.1 hentry).1).1
    simp only [decide_eq_true_eq]
    omega
  · intro position hposition
    obtain ⟨entry, hentry, rfl⟩ := List.mem_map.1 hposition
    have hlt := (List.mem_zipIdx (List.mem_filter.1 hentry).1).2.1
    simp only [decide_eq_true_eq]
    omega

/-- The positions that a turn finds are those of the overlapping glyphs on the two sides of the
    cursor. -/
private theorem split_around_cursor {p : Glyph → Checked Bool} (visited pending : List Glyph)
    (anchor : Glyph) :
    split (fun (other, position) => if position = visited.length then pure false else p other)
        (visited ++ anchor :: pending).zipIdx = (do
      let (before, kept) ← split (fun (other, _) => p other) visited.zipIdx
      let (after, rest) ← split (fun (other, _) => p other) (pending.zipIdx (visited.length + 1))
      return (before ++ after, kept ++ (anchor, visited.length) :: rest)) := by
  rw [List.zipIdx_append, split_append, List.zipIdx_cons, split, Nat.zero_add]
  rw [split_congr (l := visited.zipIdx) (q := fun (other, _) => p other)]
  · rw [split_congr (l := pending.zipIdx _) (q := fun (other, _) => p other)]
    · cases split (fun (other, _) => p other) visited.zipIdx with
      | error fault => rfl
      | ok parts =>
        simp only [if_true, pure_eq_ok, ok_bind]
        cases split (fun (other, _) => p other) (pending.zipIdx (visited.length + 1)) <;> rfl
    · intro entry hentry
      have hle := (List.mem_zipIdx hentry).1
      exact if_neg (by omega)
  · intro entry hentry
    have hlt := (List.mem_zipIdx hentry).2.1
    exact if_neg (by omega)

/-- One turn, seen from the cursor. The cursor never moves back past the start, every position is
    inside the list, and afterwards the cursor stands behind the grown glyph. -/
theorem step_eq (threshold : Binary.Scalar) (visited pending : List Glyph) (anchor : Glyph) :
    step threshold ⟨visited ++ anchor :: pending, visited.length⟩ = (do
      let (before, kept) ← split (fun other => anchor.rect.overlaps other.rect threshold) visited
      let (after, rest) ← split (fun other => anchor.rect.overlaps other.rect threshold) pending
      let grown ← anchor.absorbAll (before ++ after)
      return ⟨kept ++ grown :: rest, kept.length + 1⟩) := by
  have hanchor : elementAt (visited ++ anchor :: pending) visited.length = .ok anchor := by
    rw [elementAt_eq_ok_iff]
    simp
  have hplaces := split_around_cursor (p := fun other => anchor.rect.overlaps other.rect threshold)
    visited pending anchor
  simp only [step, hanchor, ok_bind, overlapping, positions]
  rw [hplaces, split_zipIdx visited 0, split_zipIdx pending (visited.length + 1)]
  cases hbefore : split (fun (other, _) => anchor.rect.overlaps other.rect threshold)
      visited.zipIdx with
  | error fault => rfl
  | ok parts =>
    obtain ⟨before, kept⟩ := parts
    cases hafter : split (fun (other, _) => anchor.rect.overlaps other.rect threshold)
        (pending.zipIdx (visited.length + 1)) with
    | error fault => rfl
    | ok parts =>
      obtain ⟨after, rest⟩ := parts
      rw [hbefore, hafter] at hplaces
      have hextract := extract_split hplaces
      have hcount := countP_before_cursor hbefore hafter
      have hlength := split_length hbefore
      rw [List.length_zipIdx] at hlength
      have hback : stepBack visited.length before.length = .ok (kept.map Prod.fst).length := by
        rw [stepBack, if_pos (by omega), List.length_map]
        exact congrArg _ (by omega)
      have hcursor : elementAt (kept.map Prod.fst ++ anchor :: rest.map Prod.fst)
          (kept.map Prod.fst).length = .ok anchor := by
        rw [elementAt_eq_ok_iff]
        simp
      simp only [List.map_append, List.map_cons] at hextract
      simp only [ok_bind, pure_eq_ok, List.map_append] at hcount ⊢
      rw [hextract]
      simp only [ok_bind, hcount, hback, hcursor]
      cases anchor.absorbAll (before.map Prod.fst ++ after.map Prod.fst) with
      | error fault => rfl
      | ok grown => simp

/-- With a round for each glyph still to come the cursor reaches the end. -/
theorem run_eq_sweep (threshold : Binary.Scalar) {rounds : Nat} (visited pending : List Glyph)
    (hrounds : pending.length ≤ rounds) :
    (do return (← run threshold rounds ⟨visited ++ pending, visited.length⟩).glyphs) =
      sweep threshold visited pending := by
  induction rounds generalizing visited pending with
  | zero =>
    have hempty : pending = [] := List.length_eq_zero_iff.1 (by omega)
    subst hempty
    simp [run, sweep]
  | succ rounds ih =>
    cases pending with
    | nil => simp [run, sweep]
    | cons anchor pending =>
      rw [run, if_pos (by simp), step_eq, sweep_cons]
      cases split (fun other => anchor.rect.overlaps other.rect threshold) visited with
      | error fault => rfl
      | ok parts =>
        obtain ⟨before, kept⟩ := parts
        cases hafter : split (fun other => anchor.rect.overlaps other.rect threshold) pending with
        | error fault => rfl
        | ok parts =>
          obtain ⟨after, rest⟩ := parts
          simp only [ok_bind]
          cases anchor.absorbAll (before ++ after) with
          | error fault => rfl
          | ok grown =>
            have hlength := split_length hafter
            simp only [List.length_cons] at hrounds
            have hrest := ih (kept ++ [grown]) rest (by omega)
            simpa using hrest

/-- Fusing is the pass without positions. -/
theorem fuse_eq_sweep (threshold : Binary.Scalar) (glyphs : List Glyph) :
    Glyph.fuse threshold glyphs = sweep threshold [] glyphs :=
  run_eq_sweep threshold [] glyphs (Nat.le_refl _)

end ScoreOverlay.Fusion
