import Mathlib.Algebra.Order.BigOperators.Group.List
import Mathlib.Data.List.InsertIdx
import ScoreOverlay.Proofs.Checked.Overflow

namespace ScoreOverlay

variable {α β γ δ : Type}

/-- If both computations give a value, then that of the second is that of the first, moved. -/
def Lockstep (move : α → β) (x : Checked α) (y : Checked β) : Prop :=
  ∀ a b, x = .ok a → y = .ok b → b = move a

/-- In lockstep, two computations without an overflow give a value and the moved one. -/
theorem Lockstep.exists_ok {move : α → β} {x : Checked α} {y : Checked β}
    (h : Lockstep move x y) (hx : InBounds x) (hy : InBounds y) (hfits : NoOverflow x)
    (hfits' : NoOverflow y) : ∃ a, x = .ok a ∧ y = .ok (move a) := by
  obtain ⟨a, ha⟩ := hx.exists_ok hfits
  obtain ⟨b, hb⟩ := hy.exists_ok hfits'
  obtain rfl := h a b ha hb
  exact ⟨a, ha, hb⟩

theorem Lockstep.pure {move : α → β} {a : α} {b : β} (h : b = move a) :
    Lockstep move (pure a) (pure b) := by
  intro a' b' ha hb
  cases ha
  cases hb
  exact h

/-- Computations that do not differ are in lockstep. -/
theorem Lockstep.rfl {x : Checked α} : Lockstep id x x := by
  intro a b ha hb
  exact Except.ok.inj (hb.symm.trans ha)

theorem Lockstep.bind {move : α → β} {move' : γ → δ} {x : Checked α} {y : Checked β}
    {f : α → Checked γ} {g : β → Checked δ} (h : Lockstep move x y)
    (hf : ∀ a, x = .ok a → Lockstep move' (f a) (g (move a))) :
    Lockstep move' (x >>= f) (y >>= g) := by
  intro c d hc hd
  obtain ⟨a, ha, hc⟩ := bind_eq_ok_iff.1 hc
  obtain ⟨b, hb, hd⟩ := bind_eq_ok_iff.1 hd
  obtain rfl := h a b ha hb
  exact hf a ha c d hc hd

theorem Lockstep.ite {condition condition' : Prop} [Decidable condition] [Decidable condition']
    {move : α → β} {x y : Checked α} {x' y' : Checked β} (h : condition' ↔ condition)
    (hx : condition → Lockstep move x x') (hy : ¬ condition → Lockstep move y y') :
    Lockstep move (if condition then x else y) (if condition' then x' else y') := by
  by_cases hcondition : condition
  · rw [if_pos hcondition, if_pos (h.2 hcondition)]
    exact hx hcondition
  · rw [if_neg hcondition, if_neg (mt h.1 hcondition)]
    exact hy hcondition

theorem Lockstep.mapM {move : α → β} {move' : γ → δ} {f : α → Checked γ} {g : β → Checked δ}
    {l : List α} (h : ∀ a ∈ l, Lockstep move' (f a) (g (move a))) :
    Lockstep (List.map move') (l.mapM f) ((l.map move).mapM g) := by
  induction l with
  | nil => exact Lockstep.pure (by rfl)
  | cons a rest ih =>
    obtain ⟨ha, hrest⟩ := List.forall_mem_cons.1 h
    rw [List.map_cons, List.mapM_cons, List.mapM_cons]
    exact ha.bind fun c _ => (ih hrest).bind fun cs _ => Lockstep.pure (by rfl)

theorem Lockstep.anyM {move : α → β} {p : α → Checked Bool} {q : β → Checked Bool} {l : List α}
    (h : ∀ a ∈ l, Lockstep id (p a) (q (move a))) :
    Lockstep id (l.anyM p) ((l.map move).anyM q) := by
  induction l with
  | nil => exact Lockstep.rfl
  | cons a rest ih =>
    obtain ⟨ha, hrest⟩ := List.forall_mem_cons.1 h
    refine ha.bind fun holds _ => ?_
    cases holds with
    | true => exact Lockstep.rfl
    | false => exact ih hrest

theorem Lockstep.split {move : α → β} {p : α → Checked Bool} {q : β → Checked Bool} {l : List α}
    (h : ∀ a ∈ l, Lockstep id (p a) (q (move a))) :
    Lockstep (Prod.map (List.map move) (List.map move)) (split p l) (split q (l.map move)) := by
  induction l with
  | nil => exact Lockstep.pure (by rfl)
  | cons a rest ih =>
    obtain ⟨ha, hrest⟩ := List.forall_mem_cons.1 h
    refine ha.bind fun holds _ => (ih hrest).bind fun parts _ => Lockstep.pure ?_
    cases holds <;> rfl

/-- A loop keeps step if every turn does. -/
theorem Lockstep.foldrM {move : β → γ} {f : α → β → Checked β} {g : α → γ → Checked γ} {l : List α}
    (h : ∀ a ∈ l, ∀ b, Lockstep move (f a b) (g a (move b))) (b : β) :
    Lockstep move (l.foldrM f b) (l.foldrM g (move b)) := by
  induction l with
  | nil => exact Lockstep.pure (by rfl)
  | cons a rest ih =>
    obtain ⟨ha, hrest⟩ := List.forall_mem_cons.1 h
    rw [List.foldrM_cons, List.foldrM_cons]
    exact (ih hrest).bind fun b _ => ha b

theorem elementAt_map (move : α → β) (l : List α) (position : Nat) :
    elementAt (l.map move) position = (do return move (← elementAt l position)) := by
  unfold elementAt
  rw [List.getElem?_map]
  cases l[position]? <;> rfl

theorem elementAt_map_bind (move : α → β) (l : List α) (position : Nat) (f : β → Checked γ) :
    elementAt (l.map move) position >>= f = elementAt l position >>= fun a => f (move a) := by
  rw [elementAt_map, bind_assoc]
  rfl

theorem Lockstep.removeAt (move : α → β) (l : List α) (position : Nat) :
    Lockstep (Prod.map move (List.map move)) (removeAt l position)
      (removeAt (l.map move) position) := by
  unfold ScoreOverlay.removeAt
  rw [elementAt_map_bind, List.eraseIdx_map]
  exact Lockstep.rfl.bind fun a _ => Lockstep.pure (by rfl)

namespace Coordinate

theorem add_lockstep (a b offset : Int) : Lockstep (· + offset) (add a b) (add (a + offset) b) := by
  intro n m hn hm
  rw [eq_of_add_eq_ok hn, eq_of_add_eq_ok hm]
  exact Int.add_right_comm a offset b

theorem sub_lockstep (a b offset : Int) : Lockstep (· + offset) (sub a b) (sub (a + offset) b) := by
  intro n m hn hm
  rw [eq_of_sub_eq_ok hn, eq_of_sub_eq_ok hm]
  exact add_sub_right_comm a offset b

theorem sub_add_add (a b offset : Int) : sub (a + offset) (b + offset) = sub a b := by
  unfold sub
  rw [Int.add_sub_add_right]

theorem sum_map_add (l : List Int) (offset : Int) :
    (l.map (· + offset)).sum = l.sum + l.length * offset := by
  rw [List.sum_map_add]
  simp

theorem sum_lockstep (l : List Int) (offset : Int) :
    Lockstep (· + l.length * offset) (sum l) (sum (l.map (· + offset))) := by
  intro n m hn hm
  rw [eq_of_sum_eq_ok hn, eq_of_sum_eq_ok hm]
  exact sum_map_add l offset

/-- Cutting a mean off towards zero commutes with an offset, if no number is negative before or
    after it: both means are then cut off in the same direction. -/
theorem mean_add {l : List Int} {offset : Int} (hne : l ≠ [])
    (h : ∀ n ∈ l, 0 ≤ n ∧ 0 ≤ n + offset) :
    (l.sum + l.length * offset).tdiv l.length = l.sum.tdiv l.length + offset := by
  have hcount : (l.length : Int) ≠ 0 := by simpa using hne
  have hsum : 0 ≤ l.sum := List.sum_nonneg fun n hn => (h n hn).1
  have hsum' : 0 ≤ (l.map (· + offset)).sum := by
    refine List.sum_nonneg (List.forall_mem_map.2 fun n hn => ?_)
    exact (h n hn).2
  rw [sum_map_add] at hsum'
  rw [Int.tdiv_eq_ediv_of_nonneg hsum, Int.tdiv_eq_ediv_of_nonneg hsum',
    Int.add_mul_ediv_left _ _ hcount]

end Coordinate

end ScoreOverlay
