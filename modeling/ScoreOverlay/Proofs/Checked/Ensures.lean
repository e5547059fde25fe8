import ScoreOverlay.Proofs.Checked.Bounds

namespace ScoreOverlay

variable {α β : Type}

/-- The computation uses no position outside its list, and its value has the property unless a
    coordinate overflows. -/
def Ensures (x : Checked α) (P : α → Prop) : Prop := InBounds x ∧ ∀ a, x = .ok a → P a

theorem Ensures.exists_ok {x : Checked α} {P : α → Prop} (h : Ensures x P) (hfits : NoOverflow x) :
    ∃ a, x = .ok a ∧ P a := by
  obtain ⟨a, ha⟩ := h.1.exists_ok hfits
  exact ⟨a, ha, h.2 a ha⟩

theorem InBounds.ensures {x : Checked α} (h : InBounds x) : Ensures x fun _ => True :=
  ⟨h, fun _ _ => trivial⟩

theorem Ensures.of_ok {x : Checked α} {P : α → Prop} {a : α} (h : x = .ok a) (ha : P a) :
    Ensures x P := by
  refine ⟨InBounds.of_ok h, ?_⟩
  rintro b hb
  rw [h] at hb
  cases hb
  exact ha

theorem Ensures.pure {P : α → Prop} {a : α} (ha : P a) : Ensures (pure a) P :=
  Ensures.of_ok rfl ha

theorem Ensures.imp {x : Checked α} {P Q : α → Prop} (h : Ensures x P) (himp : ∀ a, P a → Q a) :
    Ensures x Q :=
  ⟨h.1, fun a ha => himp a (h.2 a ha)⟩

theorem Ensures.with_ok {x : Checked α} {P : α → Prop} (h : Ensures x P) :
    Ensures x fun a => x = .ok a ∧ P a :=
  ⟨h.1, fun a ha => ⟨ha, h.2 a ha⟩⟩

theorem Ensures.bind {x : Checked α} {f : α → Checked β} {P : α → Prop} {Q : β → Prop}
    (hx : Ensures x P) (hf : ∀ a, P a → Ensures (f a) Q) : Ensures (x >>= f) Q := by
  refine ⟨hx.1.bind fun a ha => (hf a (hx.2 a ha)).1, ?_⟩
  intro b hb
  obtain ⟨a, ha, hb⟩ := bind_eq_ok_iff.1 hb
  exact (hf a (hx.2 a ha)).2 b hb

theorem Ensures.ite {condition : Prop} [Decidable condition] {x y : Checked α} {P : α → Prop}
    (hx : condition → Ensures x P) (hy : ¬ condition → Ensures y P) :
    Ensures (if condition then x else y) P := by
  split
  · exact hx ‹_›
  · exact hy ‹_›

/-- What every step of a loop keeps, the loop keeps. -/
theorem Ensures.foldlM {f : β → α → Checked β} {P : β → Prop} {l : List α} {b : β} (hb : P b)
    (hf : ∀ b, P b → ∀ a ∈ l, Ensures (f b a) P) : Ensures (l.foldlM f b) P := by
  induction l generalizing b with
  | nil => exact Ensures.pure hb
  | cons a rest ih =>
    rw [List.foldlM_cons]
    refine (hf b hb a List.mem_cons_self).bind fun b' hb' => ?_
    exact ih hb' fun b hb a ha => hf b hb a (List.mem_cons_of_mem _ ha)

/-- A loop over positions, where what holds before a turn may depend on its position. -/
theorem Ensures.foldlM_range {f : β → Nat → Checked β} {P : Nat → β → Prop} {n : Nat} {b : β}
    (hb : P 0 b) (hf : ∀ v < n, ∀ b, P v b → Ensures (f b v) (P (v + 1))) :
    Ensures ((List.range n).foldlM f b) (P n) := by
  induction n with
  | zero => exact Ensures.pure hb
  | succ n ih =>
    simp only [List.range_succ, List.foldlM_append, List.foldlM_cons, List.foldlM_nil, bind_pure]
    exact (ih fun v hv => hf v (by omega)).bind fun b hb => hf n (by omega) b hb

/-- A loop over positions succeeds if each turn does from what the turns before it give. -/
theorem foldlM_range_eq_ok {f : β → Nat → Checked β} {P : Nat → β → Prop} {n : Nat} {b : β}
    (hb : P 0 b) (hf : ∀ v < n, ∀ b, P v b → ∃ next, f b v = .ok next ∧ P (v + 1) next) :
    ∃ last, (List.range n).foldlM f b = .ok last ∧ P n last := by
  induction n with
  | zero => exact ⟨b, rfl, hb⟩
  | succ n ih =>
    obtain ⟨last, hlast, hP⟩ := ih fun v hv => hf v (by omega)
    obtain ⟨next, hnext, hP'⟩ := hf n (by omega) last hP
    refine ⟨next, ?_, hP'⟩
    rw [List.range_succ, List.foldlM_append, hlast, ok_bind, List.foldlM_cons, hnext]
    rfl

theorem Ensures.mapM {f : α → Checked β} {P : β → Prop} {l : List α}
    (hf : ∀ a ∈ l, Ensures (f a) P) :
    Ensures (l.mapM f) fun bs => bs.length = l.length ∧ ∀ b ∈ bs, P b := by
  induction l with
  | nil => exact Ensures.pure (by simp)
  | cons a rest ih =>
    rw [List.mapM_cons]
    refine (hf a List.mem_cons_self).bind fun b hb => ?_
    refine (ih fun a ha => hf a (List.mem_cons_of_mem _ ha)).bind fun bs hbs => Ensures.pure ?_
    exact ⟨by simp [hbs.1], List.forall_mem_cons.2 ⟨hb, hbs.2⟩⟩

theorem Ensures.elementAt {l : List α} {position : Nat} (h : position < l.length) :
    Ensures (elementAt l position) fun a => l[position]? = some a :=
  Ensures.of_ok (elementAt_of_lt h) (List.getElem?_eq_getElem h)

theorem exists_error_of_findM? {p : α → Checked Bool} {l : List α} {fault : Fault}
    (h : l.findM? p = .error fault) : ∃ a ∈ l, p a = .error fault := by
  induction l with
  | nil => cases h
  | cons a rest ih =>
    rcases bind_eq_error_iff.1 h with h | ⟨holds, -, h⟩
    · exact ⟨a, List.mem_cons_self, h⟩
    · cases holds with
      | true => cases h
      | false =>
        obtain ⟨a, ha, hfault⟩ := ih h
        exact ⟨a, List.mem_cons_of_mem _ ha, hfault⟩

theorem InBounds.findM? {p : α → Checked Bool} {l : List α} (hp : ∀ a ∈ l, InBounds (p a)) :
    InBounds (l.findM? p) := by
  intro h
  obtain ⟨a, ha, hfault⟩ := exists_error_of_findM? h
  exact hp a ha hfault

/-- A search finds the first element that passes, or none does. -/
theorem findM?_eq_ok {p : α → Checked Bool} {l : List α} {found : Option α}
    (h : l.findM? p = .ok found) :
    match found with
    | none => ∀ a ∈ l, p a = .ok false
    | some a => ∃ before after, l = before ++ a :: after ∧ (∀ b ∈ before, p b = .ok false) ∧
        p a = .ok true := by
  induction l with
  | nil =>
    cases h
    simp
  | cons a rest ih =>
    obtain ⟨answer, hanswer, h⟩ := bind_eq_ok_iff.1 h
    cases answer with
    | true =>
      cases h
      exact ⟨[], rest, rfl, by simp, hanswer⟩
    | false =>
      have hrest := ih h
      cases found with
      | none => exact List.forall_mem_cons.2 ⟨hanswer, hrest⟩
      | some b =>
        obtain ⟨before, after, rfl, hbefore, hb⟩ := hrest
        exact ⟨a :: before, after, rfl, List.forall_mem_cons.2 ⟨hanswer, hbefore⟩, hb⟩

theorem findM?_append {p : α → Checked Bool} {before : List α} (after : List α)
    (hbefore : ∀ b ∈ before, p b = .ok false) :
    (before ++ after).findM? p = after.findM? p := by
  induction before with
  | nil => rfl
  | cons b before ih =>
    obtain ⟨hb, hrest⟩ := List.forall_mem_cons.1 hbefore
    rw [List.cons_append, List.findM?, hb, ok_bind]
    exact ih hrest

theorem findM?_eq_none {p : α → Checked Bool} {l : List α} (h : ∀ a ∈ l, p a = .ok false) :
    l.findM? p = .ok none := by
  have hsearch := findM?_append [] h
  rw [List.append_nil] at hsearch
  exact hsearch

theorem findM?_eq_some {p : α → Checked Bool} {before after : List α} {a : α}
    (hbefore : ∀ b ∈ before, p b = .ok false) (ha : p a = .ok true) :
    (before ++ a :: after).findM? p = .ok (some a) := by
  rw [findM?_append _ hbefore, List.findM?, ha]
  rfl

end ScoreOverlay
