import Mathlib.Data.List.Induction
import ScoreOverlay.Geometry.Outline.Simplify
import ScoreOverlay.Proofs.Binary.Order

namespace ScoreOverlay.Outline

theorem farthest_concat (start stop p : Point) (inner : List Point) :
    farthest start stop (inner ++ [p]) =
      if (farthest start stop inner).2 ≤ p.distanceToSegment start stop then
        (inner.length, p.distanceToSegment start stop)
      else farthest start stop inner := by
  rw [farthest, List.zipIdx_append, Nat.zero_add, List.foldl_append]
  rfl

theorem farthest_lt_length (start stop : Point) {inner : List Point} (hne : inner ≠ []) :
    (farthest start stop inner).1 < inner.length := by
  induction inner using List.reverseRecOn with
  | nil => exact absurd rfl hne
  | append_singleton inner last ih =>
    rw [farthest_concat, List.length_append, List.length_singleton]
    split
    · exact Nat.lt_succ_self _
    · by_cases hinner : inner = []
      · subst hinner
        exact Nat.zero_lt_one
      · exact Nat.lt_succ_of_lt (ih hinner)

theorem distanceToSegment_le_farthest (start stop : Point) {inner : List Point} {p : Point}
    (hp : p ∈ inner) :
    p.distanceToSegment start stop ≤ (farthest start stop inner).2 := by
  induction inner using List.reverseRecOn with
  | nil => cases hp
  | append_singleton inner last ih =>
    rw [farthest_concat]
    rw [List.mem_append, List.mem_singleton] at hp
    split
    · rename_i hle
      rcases hp with hp | rfl
      · exact (ih hp).trans hle
      · exact le_rfl
    · rename_i hlt
      rcases hp with hp | rfl
      · exact ih hp
      · exact (not_le.1 hlt).le

theorem keptBetween_eq (tolerance : Binary.Scalar) (start stop : Point) (inner : List Point) :
    keptBetween tolerance start stop inner =
      if tolerance < ((farthest start stop inner).2 : Binary.Scalar) then
        match inner.drop (farthest start stop inner).1 with
        | [] => []
        | pivot :: after =>
          keptBetween tolerance start pivot (inner.take (farthest start stop inner).1)
            ++ pivot :: keptBetween tolerance pivot stop after
      else [] := by
  rw [keptBetween]
  obtain ⟨index, distance⟩ := farthest start stop inner
  dsimp only
  by_cases hfar : tolerance < (distance : Binary.Scalar)
  · rw [if_pos hfar, if_pos hfar]
    split <;> rename_i hdrop <;> rw [hdrop]
  · rw [if_neg hfar, if_neg hfar]

/-- The two ways in which points between two kept points are treated: none of them is farther than
    `tolerance` from the segment, or they are divided at one of them. -/
theorem keptBetween_induction {tolerance : Binary.Scalar}
    {motive : Point → Point → List Point → List Point → Prop}
    (close : ∀ start stop inner,
      (∀ p ∈ inner, ¬ tolerance < (p.distanceToSegment start stop : Binary.Scalar)) →
        motive start stop inner [])
    (divide : ∀ start stop before pivot after keptBefore keptAfter,
      motive start pivot before keptBefore → motive pivot stop after keptAfter →
        motive start stop (before ++ pivot :: after) (keptBefore ++ pivot :: keptAfter))
    (start stop : Point) (inner : List Point) :
    motive start stop inner (keptBetween tolerance start stop inner) := by
  induction hcount : inner.length using Nat.strongRecOn generalizing start stop inner with
  | ind count ih =>
    rw [keptBetween_eq]
    have hsplit := List.take_append_drop (farthest start stop inner).1 inner
    split
    · split
      · rename_i hdrop
        have hlength := List.drop_eq_nil_iff.1 hdrop
        have hinner : inner = [] := by
          by_contra hne
          exact absurd (farthest_lt_length start stop hne) (not_lt.2 hlength)
        exact close start stop inner (by simp [hinner])
      · rename_i pivot after hdrop
        rw [hdrop] at hsplit
        have hlength := congrArg List.length hsplit
        simp only [List.length_append, List.length_cons] at hlength
        have hbefore := ih (inner.take (farthest start stop inner).1).length (by omega) start
          pivot _ rfl
        have hafter := ih after.length (by omega) pivot stop after rfl
        have hboth := divide start stop _ pivot after _ _ hbefore hafter
        rwa [hsplit] at hboth
    · rename_i hclose
      refine close start stop inner fun p hp hfar => hclose ?_
      have hle := Binary.Scalar.coe_le_coe.2 (distanceToSegment_le_farthest start stop hp)
      exact Binary.Scalar.lt_of_lt_of_le hfar hle

/-- Between two kept points only given points are kept, in their order. -/
theorem keptBetween_sublist (tolerance : Binary.Scalar) (start stop : Point)
    (inner : List Point) : (keptBetween tolerance start stop inner).Sublist inner := by
  refine keptBetween_induction (motive := fun _ _ inner kept => kept.Sublist inner) ?_ ?_
    start stop inner
  · intro start stop inner _
    exact List.nil_sublist inner
  · intro start stop before pivot after keptBefore keptAfter hbefore hafter
    exact hbefore.append (hafter.cons_cons pivot)

/-- Two neighbours on the outline have the point within `tolerance` of the segment between them. -/
def PassesBy (o : Outline) (tolerance : Binary.Scalar) (p : Point) : Prop :=
  ∃ start stop, [start, stop] <:+: o ∧
    ¬ tolerance < (p.distanceToSegment start stop : Binary.Scalar)

variable {tolerance : Binary.Scalar} {p : Point} {o : Outline}

theorem PassesBy.of_infix {part : Outline} (h : part.PassesBy tolerance p) (hpart : part <:+: o) :
    o.PassesBy tolerance p := by
  obtain ⟨start, stop, hinfix, hclose⟩ := h
  exact ⟨start, stop, hinfix.trans hpart, hclose⟩

/-- A point that is not kept between two kept points is close to what is kept. -/
theorem mem_or_passesBy_keptBetween (tolerance : Binary.Scalar) (start stop : Point)
    (inner : List Point) : ∀ p ∈ inner, p ∈ keptBetween tolerance start stop inner ∨
      PassesBy (start :: keptBetween tolerance start stop inner ++ [stop]) tolerance p := by
  refine keptBetween_induction (motive := fun start stop inner kept =>
    ∀ p ∈ inner, p ∈ kept ∨ PassesBy (start :: kept ++ [stop]) tolerance p) ?_ ?_ start stop inner
  · intro start stop inner hclose p hp
    exact .inr ⟨start, stop, List.infix_rfl, hclose p hp⟩
  · intro start stop before pivot after keptBefore keptAfter hbefore hafter p hp
    have hfirst : start :: keptBefore ++ [pivot] <:+:
        start :: (keptBefore ++ pivot :: keptAfter) ++ [stop] := ⟨[], keptAfter ++ [stop], by simp⟩
    have hsecond : pivot :: keptAfter ++ [stop] <:+:
        start :: (keptBefore ++ pivot :: keptAfter) ++ [stop] := ⟨start :: keptBefore, [], by simp⟩
    rcases List.mem_append.1 hp with hp | hp
    · rcases hbefore p hp with hkept | hpasses
      · exact .inl (List.mem_append_left _ hkept)
      · exact .inr (hpasses.of_infix hfirst)
    · rcases List.mem_cons.1 hp with rfl | hp
      · exact .inl (List.mem_append_cons_self)
      · rcases hafter p hp with hkept | hpasses
        · exact .inl (List.mem_append_right _ (List.mem_cons_of_mem _ hkept))
        · exact .inr (hpasses.of_infix hsecond)

/-- An outline is left as it is, or only points between its ends are left out. -/
theorem simplify_cases (tolerance : Binary.Scalar) (o : Outline) :
    o.simplify tolerance = o ∨ ∃ first inner last, o = first :: inner ++ [last] ∧
      o.simplify tolerance = first :: keptBetween tolerance first last inner ++ [last] := by
  unfold simplify
  split
  · exact .inl rfl
  · split
    · rename_i first second third rest
      refine .inr ⟨first, _, _, ?_, rfl⟩
      rw [List.cons_append, ← List.getLast_cons (List.cons_ne_nil third rest),
        List.dropLast_concat_getLast]
    · exact .inl rfl

/-- Simplifying leaves points out and moves none. -/
theorem simplify_sublist (tolerance : Binary.Scalar) (o : Outline) :
    (o.simplify tolerance).Sublist o := by
  rcases o.simplify_cases tolerance with h | ⟨first, inner, last, ho, h⟩
  · rw [h]
  · rw [h, ho]
    exact ((keptBetween_sublist tolerance first last inner).cons_cons first).append_right [last]

/-- Simplifying keeps the two ends. -/
theorem ends_simplify (tolerance : Binary.Scalar) (o : Outline) :
    (o.simplify tolerance).head? = o.head? ∧ (o.simplify tolerance).getLast? = o.getLast? := by
  rcases o.simplify_cases tolerance with h | ⟨first, inner, last, ho, h⟩
  · rw [h]
    exact ⟨rfl, rfl⟩
  · rw [h, ho]
    exact ⟨rfl, by rw [List.getLast?_concat, List.getLast?_concat]⟩

/-- A point that is left out is close to what is kept. -/
theorem mem_simplify_or_passesBy (tolerance : Binary.Scalar) (hp : p ∈ o) :
    p ∈ o.simplify tolerance ∨ (o.simplify tolerance).PassesBy tolerance p := by
  rcases o.simplify_cases tolerance with h | ⟨first, inner, last, rfl, h⟩
  · rw [h]
    exact .inl hp
  · rw [h]
    simp only [List.cons_append, List.mem_cons, List.mem_append] at hp ⊢
    rcases hp with rfl | hp | hp
    · exact .inl (.inl rfl)
    · rcases mem_or_passesBy_keptBetween tolerance first last inner p hp with hkept | hpasses
      · exact .inl (.inr (.inl hkept))
      · exact .inr hpasses
    · exact .inl (.inr (.inr hp))

end ScoreOverlay.Outline
