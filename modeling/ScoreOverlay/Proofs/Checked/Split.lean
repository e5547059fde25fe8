import ScoreOverlay.Proofs.Checked.Bounds

namespace ScoreOverlay

variable {α β : Type}

/-- The answer of a test that can fault, with a fault taken for a refusal. -/
def holds (p : α → Checked Bool) (a : α) : Bool :=
  match p a with
  | .ok answer => answer
  | .error _ => false

theorem holds_of_eq_ok {p : α → Checked Bool} {a : α} {answer : Bool} (h : p a = .ok answer) :
    holds p a = answer := by
  simp [holds, h]

/-- A test that answers for every element divides a list like a filter that cannot fault. -/
theorem split_eq_ok_iff {p : α → Checked Bool} {l : List α} {parts : List α × List α} :
    split p l = .ok parts ↔
      (∀ a ∈ l, p a = .ok (holds p a)) ∧
        parts = (l.filter (holds p), l.filter fun a => !holds p a) := by
  induction l generalizing parts with
  | nil => simp [split, eq_comm]
  | cons a rest ih =>
    simp only [split, bind_eq_ok_iff]
    constructor
    · rintro ⟨answer, hanswer, ⟨passed, failed⟩, hrest, hparts⟩
      obtain ⟨hall, heq⟩ := ih.1 hrest
      have hholds := holds_of_eq_ok hanswer
      cases heq
      cases answer <;> cases hparts <;> simp_all
    · rintro ⟨hall, rfl⟩
      refine ⟨holds p a, hall a List.mem_cons_self, _,
        ih.2 ⟨fun b hb => hall b (List.mem_cons_of_mem _ hb), rfl⟩, ?_⟩
      cases hholds : holds p a <;> simp [hholds]

/-- The two parts of a list that a test divides it into. Both keep the order of the list. -/
structure IsDivision (p : α → Checked Bool) (l passed failed : List α) : Prop where
  perm : (passed ++ failed).Perm l
  passed_sublist : passed.Sublist l
  failed_sublist : failed.Sublist l
  holds : ∀ a ∈ passed, p a = .ok true
  fails : ∀ a ∈ failed, p a = .ok false

theorem split_isDivision {p : α → Checked Bool} {l passed failed : List α}
    (h : split p l = .ok (passed, failed)) : IsDivision p l passed failed := by
  obtain ⟨hall, hparts⟩ := split_eq_ok_iff.1 h
  cases hparts
  constructor
  · exact List.filter_append_perm _ _
  · exact List.filter_sublist
  · exact List.filter_sublist
  · intro a ha
    obtain ⟨hmem, hholds⟩ := List.mem_filter.1 ha
    rw [hall a hmem, hholds]
  · intro a ha
    obtain ⟨hmem, hholds⟩ := List.mem_filter.1 ha
    rw [hall a hmem, Bool.not_eq_eq_eq_not.1 hholds]
    rfl

theorem split_append {p : α → Checked Bool} (l m : List α) :
    split p (l ++ m) = (do
      let (passed, failed) ← split p l
      let (passed', failed') ← split p m
      return (passed ++ passed', failed ++ failed')) := by
  induction l with
  | nil =>
    cases hm : split p m <;> simp [split, hm]
  | cons a rest ih =>
    simp only [List.cons_append, split, ih]
    cases p a with
    | error fault => rfl
    | ok answer =>
      cases split p rest with
      | error fault => rfl
      | ok parts =>
        cases split p m with
        | error fault => rfl
        | ok parts' => cases answer <;> rfl

theorem split_map {p : β → Checked Bool} (f : α → β) (l : List α) :
    split p (l.map f) = (do
      let (passed, failed) ← split (fun a => p (f a)) l
      return (passed.map f, failed.map f)) := by
  induction l with
  | nil => rfl
  | cons a rest ih =>
    simp only [List.map_cons, split, ih]
    cases p (f a) with
    | error fault => rfl
    | ok answer =>
      cases split (fun a => p (f a)) rest with
      | error fault => rfl
      | ok parts => cases answer <;> rfl

/-- Dividing the images of a list divides the list. -/
theorem split_map_isDivision {p : β → Checked Bool} {f : α → β} {l : List α}
    {passed failed : List β} (h : split p (l.map f) = .ok (passed, failed)) :
    ∃ passed' failed', passed = passed'.map f ∧ failed = failed'.map f ∧
      IsDivision (fun a => p (f a)) l passed' failed' := by
  rw [split_map] at h
  obtain ⟨⟨passed', failed'⟩, hsplit, hparts⟩ := bind_eq_ok_iff.1 h
  cases hparts
  exact ⟨passed', failed', rfl, rfl, split_isDivision hsplit⟩

theorem split_congr {p q : α → Checked Bool} {l : List α} (h : ∀ a ∈ l, p a = q a) :
    split p l = split q l := by
  induction l with
  | nil => rfl
  | cons a rest ih =>
    rw [split, split, h a List.mem_cons_self, ih fun b hb => h b (List.mem_cons_of_mem _ hb)]

theorem exists_error_of_split {p : α → Checked Bool} {l : List α} {fault : Fault}
    (h : split p l = .error fault) : ∃ a ∈ l, p a = .error fault := by
  induction l with
  | nil => cases h
  | cons a rest ih =>
    rcases bind_eq_error_iff.1 h with h | ⟨answer, -, h⟩
    · exact ⟨a, List.mem_cons_self, h⟩
    · rcases bind_eq_error_iff.1 h with h | ⟨parts, -, h⟩
      · obtain ⟨a, ha, hfault⟩ := ih h
        exact ⟨a, List.mem_cons_of_mem _ ha, hfault⟩
      · cases h

theorem InBounds.split {p : α → Checked Bool} {l : List α} (hp : ∀ a ∈ l, InBounds (p a)) :
    InBounds (split p l) := by
  intro h
  obtain ⟨a, ha, hfault⟩ := exists_error_of_split h
  exact hp a ha hfault

/-- Dividing a list with positions and then forgetting them is dividing the list. -/
theorem split_zipIdx {p : α → Checked Bool} (l : List α) (start : Nat) :
    split p l = (do
      let (passed, failed) ← split (fun (a, _) => p a) (l.zipIdx start)
      return (passed.map Prod.fst, failed.map Prod.fst)) := by
  conv => lhs; rw [← List.zipIdx_map_fst start l]
  exact split_map Prod.fst _

theorem extract_split_from {p : α × Nat → Checked Bool} (before : List α) {l : List α}
    {passed failed : List (α × Nat)}
    (h : split p (l.zipIdx before.length) = .ok (passed, failed)) :
    extract (before ++ l) (passed.map Prod.snd) =
      .ok (passed.map Prod.fst, before ++ failed.map Prod.fst) := by
  induction l generalizing before passed failed with
  | nil =>
    cases h
    rfl
  | cons a rest ih =>
    obtain ⟨hall, hparts⟩ := split_eq_ok_iff.1 h
    have hlater := ih (before ++ [a]) (split_eq_ok_iff.2 ⟨fun entry hentry =>
      hall entry (List.mem_cons_of_mem _ (by simpa using hentry)), rfl⟩)
    simp only [List.length_append, List.length_singleton, List.append_assoc,
      List.singleton_append] at hlater
    rw [List.zipIdx_cons, List.filter_cons, List.filter_cons] at hparts
    cases hfirst : holds p (a, before.length) with
    | true =>
      simp only [hfirst, if_true, Bool.not_true, Bool.false_eq_true, if_false] at hparts
      cases hparts
      simp only [List.map_cons, extract, hlater, ok_bind]
      rw [removeAt_of_lt (by simp)]
      simp [List.eraseIdx_append_of_length_le]
    | false =>
      simp only [hfirst, Bool.false_eq_true, if_false, Bool.not_false, if_true] at hparts
      cases hparts
      exact hlater

/-- Taking out what passes a test, by position and from the back, divides the list by the test. -/
theorem extract_split {p : α × Nat → Checked Bool} {l : List α} {passed failed : List (α × Nat)}
    (h : split p l.zipIdx = .ok (passed, failed)) :
    extract l (passed.map Prod.snd) = .ok (passed.map Prod.fst, failed.map Prod.fst) :=
  extract_split_from [] h

theorem split_eq_extract {p : α → Checked Bool} {l : List α} {places : List Nat}
    (h : positions (fun a _ => p a) l = .ok places) : split p l = extract l places := by
  obtain ⟨⟨passed, failed⟩, hsplit, hplaces⟩ := bind_eq_ok_iff.1 h
  cases hplaces
  rw [split_zipIdx l 0, hsplit, extract_split hsplit]
  rfl

theorem split_eq_error {p : α → Checked Bool} {l : List α} {fault : Fault}
    (h : positions (fun a _ => p a) l = .error fault) : split p l = .error fault := by
  rw [split_zipIdx l 0]
  unfold positions at h
  cases hsplit : split (fun (a, _) => p a) l.zipIdx with
  | error actual =>
    rw [hsplit] at h
    cases h
    rfl
  | ok parts =>
    rw [hsplit] at h
    cases h

theorem length_extract {l removed rest : List α} {places : List Nat}
    (h : extract l places = .ok (removed, rest)) : removed.length = places.length := by
  induction places generalizing removed rest with
  | nil =>
    cases h
    rfl
  | cons position later ih =>
    simp only [extract, bind_eq_ok_iff] at h
    obtain ⟨⟨removed', rest'⟩, hlater, ⟨a, rest''⟩, _, hparts⟩ := h
    cases hparts
    rw [List.length_cons, List.length_cons, ih hlater]

theorem anyM_eq_ok_true {p : α → Checked Bool} {l : List α} (h : l.anyM p = .ok true) :
    ∃ a ∈ l, p a = .ok true := by
  induction l with
  | nil => cases h
  | cons a rest ih =>
    obtain ⟨answer, hanswer, h⟩ := bind_eq_ok_iff.1 h
    cases answer with
    | true => exact ⟨a, List.mem_cons_self, hanswer⟩
    | false =>
      obtain ⟨b, hb, hpass⟩ := ih h
      exact ⟨b, List.mem_cons_of_mem _ hb, hpass⟩

theorem anyM_eq_ok_false {p : α → Checked Bool} {l : List α} (h : l.anyM p = .ok false) :
    ∀ a ∈ l, p a = .ok false := by
  induction l with
  | nil => simp
  | cons a rest ih =>
    obtain ⟨answer, hanswer, h⟩ := bind_eq_ok_iff.1 h
    cases answer with
    | true => cases h
    | false =>
      intro b hb
      rcases List.mem_cons.1 hb with rfl | hb
      · exact hanswer
      · exact ih h b hb

end ScoreOverlay
