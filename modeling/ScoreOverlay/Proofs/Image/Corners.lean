import Mathlib.Data.List.Chain
import Mathlib.Logic.Relation
import ScoreOverlay.Image.Paint

namespace ScoreOverlay.Outline

variable {p : Point} {points : List Point}

theorem dropRepeats_cons (p : Point) (points : List Point) :
    dropRepeats (p :: points) =
      if points.head? = some p then dropRepeats points else p :: dropRepeats points := by
  cases points with
  | nil => rfl
  | cons q rest => simp [dropRepeats, eq_comm]

theorem head?_dropRepeats (points : List Point) : (dropRepeats points).head? = points.head? := by
  induction points with
  | nil => rfl
  | cons p points ih =>
    rw [dropRepeats_cons]
    split
    · rename_i hrepeat
      rw [ih, hrepeat]
      rfl
    · rfl

theorem getLast?_cons_of_head? (h : points.head? = some p) :
    (p :: points).getLast? = points.getLast? := by
  cases points with
  | nil => cases h
  | cons q rest => rw [List.getLast?_cons_cons]

theorem getLast?_dropRepeats (points : List Point) :
    (dropRepeats points).getLast? = points.getLast? := by
  induction points with
  | nil => rfl
  | cons p points ih =>
    rw [dropRepeats_cons]
    split
    · rename_i hrepeat
      rw [ih, getLast?_cons_of_head? hrepeat]
    · rw [List.getLast?_cons, List.getLast?_cons, ih]

/-- Neighbours differ once repeats are dropped. -/
theorem isChain_dropRepeats (points : List Point) : (dropRepeats points).IsChain (· ≠ ·) := by
  induction points with
  | nil => exact List.IsChain.nil
  | cons p points ih =>
    rw [dropRepeats_cons]
    split
    · exact ih
    · rename_i hdiffers
      refine List.isChain_cons.2 ⟨fun q hq heq => hdiffers ?_, ih⟩
      rw [← head?_dropRepeats, heq]
      exact hq

theorem dropRepeats_append_repeat (before : List Point) (p : Point) (after : List Point) :
    dropRepeats (before ++ p :: p :: after) = dropRepeats (before ++ p :: after) := by
  induction before with
  | nil => simp [dropRepeats]
  | cons q before ih =>
    have hhead : (before ++ p :: p :: after).head? = (before ++ p :: after).head? := by
      cases before <;> rfl
    rw [List.cons_append, List.cons_append, dropRepeats_cons, dropRepeats_cons, ih, hhead]

theorem dropRepeats_concat (points : List Point) (p : Point) :
    dropRepeats (points ++ [p]) =
      if points.getLast? = some p then dropRepeats points else dropRepeats points ++ [p] := by
  induction points with
  | nil => rfl
  | cons q points ih =>
    rw [List.cons_append, dropRepeats_cons, ih, dropRepeats_cons]
    cases points with
    | nil =>
      by_cases hrepeat : q = p
      · simp [dropRepeats, hrepeat]
      · simp [dropRepeats, hrepeat, Ne.symm hrepeat]
    | cons r rest =>
      rw [List.getLast?_cons_cons]
      by_cases hrepeat : r = q <;> by_cases hlast : (r :: rest).getLast? = some p <;>
        simp [hrepeat, hlast]

/-- What a polygon can be drawn from: two corners or more, the last one not the first again. -/
def IsDrawable (polygon : List Point) : Prop :=
  2 ≤ polygon.length ∧ polygon.head? ≠ polygon.getLast?

/-- However an outline is written down, its corners are none, a single one, or a polygon that can be
    drawn. -/
theorem isDrawable_corners {o : Outline} (h : 2 ≤ o.corners.length) : IsDrawable o.corners := by
  refine ⟨h, ?_⟩
  unfold corners at h ⊢
  dsimp only at h ⊢
  split at h
  · rename_i hclosed
    rw [if_pos hclosed]
    have hchain := isChain_dropRepeats o
    obtain ⟨hlength, hends⟩ := hclosed
    rcases List.eq_nil_or_concat' (dropRepeats o) with hkept | ⟨inner, last, hkept⟩
    · rw [hkept] at hlength
      cases hlength
    · rw [hkept] at h hchain hends ⊢
      rw [List.dropLast_concat] at h ⊢
      have hinner : inner ≠ [] := by
        rintro rfl
        cases h
      rw [List.getLast?_concat, List.head?_append_of_ne_nil _ hinner] at hends
      rw [hends]
      intro hlast
      exact (List.isChain_append.1 hchain).2.2 last hlast.symm last rfl rfl
  · rename_i hopen
    rw [if_neg hopen]
    exact fun hends => hopen ⟨h, hends⟩

/-- Two ways to write down one outline: a point can be repeated, and the first point can stand at
    the end once more. -/
inductive Respells {α : Type} : List α → List α → Prop where
  | repeated (before : List α) (a : α) (after : List α) :
    Respells (before ++ a :: after) (before ++ a :: a :: after)
  | closed (first : α) (rest : List α) : Respells (first :: rest) (first :: rest ++ [first])

/-- The corners do not depend on how the outline is written down. -/
theorem Respells.corners_eq {o o' : Outline} (h : Respells o o') : o'.corners = o.corners := by
  cases h with
  | repeated before p after =>
    unfold corners
    rw [dropRepeats_append_repeat]
  | closed first rest =>
    have hhead : (dropRepeats (first :: rest)).head? = some first := head?_dropRepeats _
    unfold corners
    rw [dropRepeats_concat, ← getLast?_dropRepeats]
    split
    · rfl
    · rename_i hopen
      have hopen' : ¬ (1 < (dropRepeats (first :: rest)).length ∧
          (dropRepeats (first :: rest)).head? = (dropRepeats (first :: rest)).getLast?) :=
        fun h => hopen (h.2.symm.trans hhead)
      have hclosed : 1 < (dropRepeats (first :: rest) ++ [first]).length ∧
          (dropRepeats (first :: rest) ++ [first]).head? =
            (dropRepeats (first :: rest) ++ [first]).getLast? := by
        obtain ⟨others, hkept⟩ := List.head?_eq_some_iff.1 hhead
        rw [List.getLast?_concat, hkept]
        simp
      dsimp only
      rw [if_pos hclosed, if_neg hopen', List.dropLast_concat]

end ScoreOverlay.Outline
