import Mathlib.Data.List.FinRange
import ScoreOverlay.Coordinate

namespace ScoreOverlay

variable {α β : Type}

theorem bind_eq_ok_iff {x : Checked α} {f : α → Checked β} {b : β} :
    (x >>= f) = .ok b ↔ ∃ a, x = .ok a ∧ f a = .ok b := by
  cases x <;> simp [Bind.bind, Except.bind]

theorem bind_eq_error_iff {x : Checked α} {f : α → Checked β} {fault : Fault} :
    (x >>= f) = .error fault ↔ x = .error fault ∨ ∃ a, x = .ok a ∧ f a = .error fault := by
  cases x <;> simp [Bind.bind, Except.bind]

@[simp] theorem ok_bind (a : α) (f : α → Checked β) : ((Except.ok a : Checked α) >>= f) = f a :=
  rfl

@[simp] theorem error_bind (fault : Fault) (f : α → Checked β) :
    ((Except.error fault : Checked α) >>= f) = .error fault :=
  rfl

/-- A computation can go on in two ways that agree on what it has come to. -/
theorem bind_congr_of_ok {x : Checked α} {f g : α → Checked β} (h : ∀ a, x = .ok a → f a = g a) :
    (x >>= f) = x >>= g := by
  cases x with
  | ok a => exact h a rfl
  | error fault => rfl

@[simp] theorem pure_eq_ok (a : α) : (pure a : Checked α) = .ok a := rfl

/-- No position that the computation uses lies outside its list. -/
def InBounds (x : Checked α) : Prop := x ≠ .error .outOfRange

/-- No coordinate that the computation forms leaves the coordinate range. -/
def NoOverflow (x : Checked α) : Prop := ∀ operation, x ≠ .error (.overflow operation)

instance (x : Checked α) : Decidable (NoOverflow x) :=
  match x with
  | .ok _ => isTrue fun _ h => by cases h
  | .error .outOfRange => isTrue fun _ h => by cases h
  | .error (.overflow operation) => isFalse fun h => h operation rfl

/-- The two kinds of faults are all there are. -/
theorem InBounds.exists_ok {x : Checked α} (hbounds : InBounds x) (hfits : NoOverflow x) :
    ∃ a, x = .ok a := by
  cases x with
  | ok a => exact ⟨a, rfl⟩
  | error fault =>
    cases fault with
    | overflow operation => exact absurd rfl (hfits operation)
    | outOfRange => exact absurd rfl hbounds

theorem InBounds.pure (a : α) : InBounds (pure a : Checked α) := by
  intro h
  cases h

theorem InBounds.of_ok {x : Checked α} {a : α} (h : x = .ok a) : InBounds x := by
  rw [h]
  exact InBounds.pure a

theorem InBounds.bind {x : Checked α} {f : α → Checked β} (hx : InBounds x)
    (hf : ∀ a, x = .ok a → InBounds (f a)) : InBounds (x >>= f) := by
  intro h
  rcases bind_eq_error_iff.1 h with h | ⟨a, ha, h⟩
  · exact hx h
  · exact hf a ha h

theorem InBounds.ite {condition : Prop} [Decidable condition] {x y : Checked α}
    (hx : condition → InBounds x) (hy : ¬ condition → InBounds y) :
    InBounds (if condition then x else y) := by
  split
  · exact hx ‹_›
  · exact hy ‹_›

/-- A loop stops at a fault only where a step does. The steps before keep what every step keeps. -/
theorem exists_error_of_foldlM {f : β → α → Checked β} {P : β → Prop} {l : List α} {b : β}
    {fault : Fault} (hb : P b) (hf : ∀ b, P b → ∀ a ∈ l, ∀ b', f b a = .ok b' → P b')
    (h : l.foldlM f b = .error fault) : ∃ b, P b ∧ ∃ a ∈ l, f b a = .error fault := by
  induction l generalizing b with
  | nil => cases h
  | cons a rest ih =>
    rw [List.foldlM_cons] at h
    rcases bind_eq_error_iff.1 h with h | ⟨b', hb', h⟩
    · exact ⟨b, hb, a, List.mem_cons_self, h⟩
    · obtain ⟨b, hb, a, ha, hfault⟩ := ih (hf b hb a List.mem_cons_self b' hb')
        (fun b hb a ha => hf b hb a (List.mem_cons_of_mem _ ha)) h
      exact ⟨b, hb, a, List.mem_cons_of_mem _ ha, hfault⟩

theorem exists_error_of_mapM {f : α → Checked β} {l : List α} {fault : Fault}
    (h : l.mapM f = .error fault) : ∃ a ∈ l, f a = .error fault := by
  induction l with
  | nil => cases h
  | cons a rest ih =>
    rw [List.mapM_cons] at h
    rcases bind_eq_error_iff.1 h with h | ⟨b, -, h⟩
    · exact ⟨a, List.mem_cons_self, h⟩
    · rcases bind_eq_error_iff.1 h with h | ⟨bs, -, h⟩
      · obtain ⟨a, ha, hfault⟩ := ih h
        exact ⟨a, List.mem_cons_of_mem _ ha, hfault⟩
      · cases h

theorem exists_error_of_anyM {p : α → Checked Bool} {l : List α} {fault : Fault}
    (h : l.anyM p = .error fault) : ∃ a ∈ l, p a = .error fault := by
  induction l with
  | nil => cases h
  | cons a rest ih =>
    rcases bind_eq_error_iff.1 h with h | ⟨holds, -, h⟩
    · exact ⟨a, List.mem_cons_self, h⟩
    · cases holds with
      | true => cases h
      | false =>
        obtain ⟨a, ha, hfault⟩ := ih h
        exact ⟨a, List.mem_cons_of_mem _ ha, hfault⟩

theorem InBounds.foldlM {f : β → α → Checked β} {l : List α} {b : β}
    (hf : ∀ b, ∀ a ∈ l, InBounds (f b a)) : InBounds (l.foldlM f b) := by
  intro h
  obtain ⟨b, -, a, ha, hfault⟩ :=
    exists_error_of_foldlM (P := fun _ => True) trivial (fun _ _ _ _ _ _ => trivial) h
  exact hf b a ha hfault

theorem InBounds.mapM {f : α → Checked β} {l : List α} (hf : ∀ a ∈ l, InBounds (f a)) :
    InBounds (l.mapM f) := by
  intro h
  obtain ⟨a, ha, hfault⟩ := exists_error_of_mapM h
  exact hf a ha hfault

theorem InBounds.anyM {p : α → Checked Bool} {l : List α} (hp : ∀ a ∈ l, InBounds (p a)) :
    InBounds (l.anyM p) := by
  intro h
  obtain ⟨a, ha, hfault⟩ := exists_error_of_anyM h
  exact hp a ha hfault

theorem mapM_eq_ok_iff {f : α → Checked β} {l : List α} {bs : List β} :
    l.mapM f = .ok bs ↔ l.map f = bs.map .ok := by
  induction l generalizing bs with
  | nil => cases bs <;> simp
  | cons a rest ih =>
    rw [List.mapM_cons]
    simp only [bind_eq_ok_iff, ih, pure_eq_ok, Except.ok.injEq]
    cases bs <;> simp

theorem length_of_mapM_eq_ok {f : α → Checked β} {l : List α} {bs : List β}
    (h : l.mapM f = .ok bs) : bs.length = l.length := by
  simpa using (congrArg List.length (mapM_eq_ok_iff.1 h)).symm

/-- The results of a loop over a list are those of its elements. -/
theorem mem_of_mapM_eq_ok {f : α → Checked β} {l : List α} {bs : List β} (h : l.mapM f = .ok bs)
    {b : β} : b ∈ bs ↔ ∃ a ∈ l, f a = .ok b := by
  have hmap := mapM_eq_ok_iff.1 h
  have hok : b ∈ bs ↔ Except.ok b ∈ bs.map (Except.ok : β → Checked β) := by simp
  rw [hok, ← hmap, List.mem_map]

theorem elementAt_of_lt {l : List α} {position : Nat} (h : position < l.length) :
    elementAt l position = .ok l[position] := by
  simp [elementAt, List.getElem?_eq_getElem h]

theorem elementAt_eq_ok_iff {l : List α} {position : Nat} {a : α} :
    elementAt l position = .ok a ↔ l[position]? = some a := by
  unfold elementAt
  cases l[position]? <;> simp [throw, throwThe, MonadExceptOf.throw]

theorem InBounds.elementAt {l : List α} {position : Nat} (h : position < l.length) :
    InBounds (elementAt l position) :=
  InBounds.of_ok (elementAt_of_lt h)

theorem removeAt_of_lt {l : List α} {position : Nat} (h : position < l.length) :
    removeAt l position = .ok (l[position], l.eraseIdx position) := by
  simp [removeAt, elementAt_of_lt h]

namespace Coordinate

theorem check_inBounds (operation : Operation) (n : Int) : InBounds (check operation n) := by
  unfold check
  split
  · exact InBounds.pure n
  · intro h
    cases h

theorem add_inBounds (a b : Int) : InBounds (add a b) := check_inBounds _ _

theorem sub_inBounds (a b : Int) : InBounds (sub a b) := check_inBounds _ _

theorem mul_inBounds (a b : Int) : InBounds (mul a b) := check_inBounds _ _

theorem neg_inBounds (a : Int) : InBounds (neg a) := check_inBounds _ _

theorem abs_inBounds (a : Int) : InBounds (abs a) :=
  InBounds.ite (fun _ => neg_inBounds a) fun _ => InBounds.pure a

theorem sum_inBounds (l : List Int) : InBounds (sum l) :=
  InBounds.foldlM fun total n _ => add_inBounds total n

theorem eq_of_check_eq_ok {operation : Operation} {n m : Int} (h : check operation n = .ok m) :
    m = n :=
  (check_eq_ok_iff.1 h).2.symm

theorem inRange_of_check_eq_ok {operation : Operation} {n m : Int}
    (h : check operation n = .ok m) : InRange m := by
  obtain ⟨hrange, rfl⟩ := check_eq_ok_iff.1 h
  exact hrange

theorem eq_of_add_eq_ok {a b n : Int} (h : add a b = .ok n) : n = a + b := eq_of_check_eq_ok h

theorem eq_of_sub_eq_ok {a b n : Int} (h : sub a b = .ok n) : n = a - b := eq_of_check_eq_ok h

/-- Two sums can be taken in either order, since they can only have the same fault. -/
theorem add_bind_comm (a b c d : Int) (f : Int → Int → Checked α) :
    (do let m ← add a b; let n ← add c d; f m n) =
      (do let n ← add c d; let m ← add a b; f m n) := by
  unfold add check
  split <;> split <;> rfl

/-- A distance between two coordinates can be formed if the difference and its opposite are both
    coordinates. -/
theorem abs_sub_eq_ok_iff {a b n : Int} :
    (sub a b >>= abs) = .ok n ↔ InRange (a - b) ∧ InRange (b - a) ∧ n = (a - b).natAbs := by
  simp only [bind_eq_ok_iff, sub, check_eq_ok_iff, abs]
  constructor
  · rintro ⟨_, ⟨hrange, rfl⟩, habs⟩
    split at habs
    · obtain ⟨hneg, hn⟩ := check_eq_ok_iff.1 habs
      rw [Int.neg_sub] at hneg hn
      exact ⟨hrange, hneg, by omega⟩
    · cases habs
      unfold InRange least greatest at *
      omega
  · rintro ⟨hrange, hneg, hn⟩
    refine ⟨a - b, ⟨hrange, rfl⟩, ?_⟩
    split
    · exact check_eq_ok_iff.2 ⟨by rwa [Int.neg_sub], by omega⟩
    · rw [pure_eq_ok, Except.ok.injEq]
      omega

end Coordinate

end ScoreOverlay
