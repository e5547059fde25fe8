import Mathlib.Algebra.Ring.Int.Defs
import ScoreOverlay.Proofs.Checked.Ensures
import ScoreOverlay.Proofs.Checked.Split

namespace ScoreOverlay

variable {α β : Type}

theorem NoOverflow.of_ok {x : Checked α} {a : α} (h : x = .ok a) : NoOverflow x := by
  intro operation herror
  rw [h] at herror
  cases herror

theorem NoOverflow.pure (a : α) : NoOverflow (pure a : Checked α) := NoOverflow.of_ok rfl

theorem NoOverflow.bind {x : Checked α} {f : α → Checked β} (hx : NoOverflow x)
    (hf : ∀ a, x = .ok a → NoOverflow (f a)) : NoOverflow (x >>= f) := by
  intro operation h
  rcases bind_eq_error_iff.1 h with h | ⟨a, ha, h⟩
  · exact hx operation h
  · exact hf a ha operation h

theorem NoOverflow.ite {condition : Prop} [Decidable condition] {x y : Checked α}
    (hx : condition → NoOverflow x) (hy : ¬ condition → NoOverflow y) :
    NoOverflow (if condition then x else y) := by
  split
  · exact hx ‹_›
  · exact hy ‹_›

/-- A loop does not overflow if no step does from what every step keeps. -/
theorem NoOverflow.foldlM {f : β → α → Checked β} {P : β → Prop} {l : List α} {b : β} (hb : P b)
    (hstep : ∀ b, P b → ∀ a ∈ l, ∀ b', f b a = .ok b' → P b')
    (hf : ∀ b, P b → ∀ a ∈ l, NoOverflow (f b a)) : NoOverflow (l.foldlM f b) := by
  intro operation h
  obtain ⟨b, hb, a, ha, hfault⟩ := exists_error_of_foldlM hb hstep h
  exact hf b hb a ha operation hfault

theorem NoOverflow.mapM {f : α → Checked β} {l : List α} (hf : ∀ a ∈ l, NoOverflow (f a)) :
    NoOverflow (l.mapM f) := by
  intro operation h
  obtain ⟨a, ha, hfault⟩ := exists_error_of_mapM h
  exact hf a ha operation hfault

theorem NoOverflow.anyM {p : α → Checked Bool} {l : List α} (hp : ∀ a ∈ l, NoOverflow (p a)) :
    NoOverflow (l.anyM p) := by
  intro operation h
  obtain ⟨a, ha, hfault⟩ := exists_error_of_anyM h
  exact hp a ha operation hfault

theorem NoOverflow.findM? {p : α → Checked Bool} {l : List α} (hp : ∀ a ∈ l, NoOverflow (p a)) :
    NoOverflow (l.findM? p) := by
  intro operation h
  obtain ⟨a, ha, hfault⟩ := exists_error_of_findM? h
  exact hp a ha operation hfault

theorem NoOverflow.split {p : α → Checked Bool} {l : List α} (hp : ∀ a ∈ l, NoOverflow (p a)) :
    NoOverflow (split p l) := by
  intro operation h
  obtain ⟨a, ha, hfault⟩ := exists_error_of_split h
  exact hp a ha operation hfault

theorem NoOverflow.elementAt (l : List α) (position : Nat) : NoOverflow (elementAt l position) := by
  intro operation h
  unfold ScoreOverlay.elementAt at h
  split at h <;> cases h

/-- The computations give the same value, or a coordinate overflows in both. -/
def SameOutcome (x y : Checked α) : Prop :=
  (∃ a, x = .ok a ∧ y = .ok a) ∨ ¬ NoOverflow x ∧ ¬ NoOverflow y

theorem SameOutcome.of_iff {x y : Checked α} (hx : InBounds x) (hy : InBounds y)
    (h : ∀ a, x = .ok a ↔ y = .ok a) : SameOutcome x y := by
  by_cases hfits : NoOverflow x
  · obtain ⟨a, ha⟩ := hx.exists_ok hfits
    exact .inl ⟨a, ha, (h a).1 ha⟩
  · refine .inr ⟨hfits, fun hfits' => ?_⟩
    obtain ⟨a, ha⟩ := hy.exists_ok hfits'
    exact hfits (NoOverflow.of_ok ((h a).2 ha))

/-- The order of a list does not matter to a loop in which any two turns can be exchanged. What
    every turn keeps can be relied on for the exchange. -/
theorem foldlM_eq_ok_iff_of_perm {f : β → α → Checked β} {P : β → Prop} {Q : α → Prop}
    {l l' : List α} (hperm : l.Perm l') (hl : ∀ a ∈ l, Q a)
    (hstep : ∀ b a b', P b → f b a = .ok b' → P b')
    (hexchange : ∀ b a a', P b → Q a → Q a' → ∀ c,
      (do f (← f b a) a') = .ok c ↔ (do f (← f b a') a) = .ok c)
    {b : β} (hb : P b) {c : β} : l.foldlM f b = .ok c ↔ l'.foldlM f b = .ok c := by
  induction hperm generalizing b with
  | nil => rfl
  | cons a _ ih =>
    obtain ⟨-, hrest⟩ := List.forall_mem_cons.1 hl
    simp only [List.foldlM_cons, bind_eq_ok_iff]
    refine exists_congr fun b' => and_congr_right fun hb' => ?_
    exact ih hrest (hstep b a b' hb hb')
  | swap a a' rest =>
    obtain ⟨ha', hrest⟩ := List.forall_mem_cons.1 hl
    obtain ⟨ha, -⟩ := List.forall_mem_cons.1 hrest
    simp only [List.foldlM_cons, ← bind_assoc]
    rw [bind_eq_ok_iff, bind_eq_ok_iff]
    exact exists_congr fun b' => and_congr_left fun _ => hexchange b a' a hb ha' ha b'
  | trans hfirst _ ih ih' =>
    exact (ih hl hb).trans (ih' (fun a ha => hl a (hfirst.mem_iff.2 ha)) hb)

theorem mem_of_elementAt_eq_ok {l : List α} {position : Nat} {a : α}
    (h : elementAt l position = .ok a) : a ∈ l :=
  List.mem_of_getElem? (elementAt_eq_ok_iff.1 h)

namespace Coordinate

theorem check_eq_ok {operation : Operation} {n : Int} (hlow : -2147483648 ≤ n)
    (hhigh : n ≤ 2147483647) : check operation n = .ok n :=
  check_of_inRange ⟨hlow, hhigh⟩

theorem add_noOverflow {a b : Int} (hlow : -2147483648 ≤ a + b) (hhigh : a + b ≤ 2147483647) :
    NoOverflow (add a b) :=
  NoOverflow.of_ok (check_eq_ok hlow hhigh)

theorem sub_noOverflow {a b : Int} (hlow : -2147483648 ≤ a - b) (hhigh : a - b ≤ 2147483647) :
    NoOverflow (sub a b) :=
  NoOverflow.of_ok (check_eq_ok hlow hhigh)

theorem mul_noOverflow {a b : Int} (hlow : -2147483648 ≤ a * b) (hhigh : a * b ≤ 2147483647) :
    NoOverflow (mul a b) :=
  NoOverflow.of_ok (check_eq_ok hlow hhigh)

theorem neg_noOverflow {a : Int} (hlow : -2147483647 ≤ a) (hhigh : a ≤ 2147483647) :
    NoOverflow (neg a) :=
  NoOverflow.of_ok (check_eq_ok (by omega) (by omega))

theorem abs_noOverflow {a : Int} (hlow : -2147483647 ≤ a) (hhigh : a ≤ 2147483647) :
    NoOverflow (abs a) :=
  NoOverflow.ite (fun _ => neg_noOverflow hlow hhigh) fun _ => NoOverflow.pure a

theorem eq_of_foldlM_add_eq_ok {l : List Int} {start n : Int} (h : l.foldlM add start = .ok n) :
    n = start + l.sum := by
  induction l generalizing start with
  | nil =>
    cases h
    simp
  | cons a rest ih =>
    rw [List.foldlM_cons] at h
    obtain ⟨total, htotal, h⟩ := bind_eq_ok_iff.1 h
    rw [ih h, eq_of_add_eq_ok htotal, List.sum_cons, Int.add_assoc]

theorem eq_of_sum_eq_ok {l : List Int} {n : Int} (h : sum l = .ok n) : n = l.sum := by
  simpa using eq_of_foldlM_add_eq_ok h

/-- Adding up numbers of which none is large stays near the start. -/
theorem foldlM_add_noOverflow {l : List Int} {start : Int} {bound : Nat}
    (h : ∀ n ∈ l, n.natAbs ≤ bound) (hstart : start.natAbs + l.length * bound ≤ 2147483647) :
    NoOverflow (l.foldlM add start) := by
  induction l generalizing start with
  | nil => exact NoOverflow.pure start
  | cons a rest ih =>
    obtain ⟨ha, hrest⟩ := List.forall_mem_cons.1 h
    rw [List.length_cons, Nat.succ_mul] at hstart
    rw [List.foldlM_cons]
    refine (add_noOverflow (by omega) (by omega)).bind fun total htotal => ih hrest ?_
    have := eq_of_add_eq_ok htotal
    omega

/-- A list that is not long, of numbers of which none is large, can be added up. -/
theorem sum_noOverflow {l : List Int} {bound : Nat} (h : ∀ n ∈ l, n.natAbs ≤ bound)
    (hlength : l.length * bound ≤ 2147483647) : NoOverflow (sum l) :=
  foldlM_add_noOverflow h (by simpa using hlength)

theorem natAbs_sum_le {l : List Int} {bound : Nat} (h : ∀ n ∈ l, n.natAbs ≤ bound) :
    l.sum.natAbs ≤ l.length * bound := by
  induction l with
  | nil => simp
  | cons a rest ih =>
    obtain ⟨ha, hrest⟩ := List.forall_mem_cons.1 h
    have := ih hrest
    rw [List.sum_cons, List.length_cons, Nat.succ_mul]
    omega

/-- A mean is no larger than the numbers. -/
theorem natAbs_mean_le {l : List Int} {n : Int} {bound : Nat} (h : ∀ n ∈ l, n.natAbs ≤ bound)
    (hsum : sum l = .ok n) : (n.tdiv l.length).natAbs ≤ bound := by
  rw [eq_of_sum_eq_ok hsum, Int.natAbs_tdiv, Int.natAbs_natCast]
  exact Nat.div_le_of_le_mul (natAbs_sum_le h)

end Coordinate

end ScoreOverlay
