import Mathlib.Data.List.Nodup
import Mathlib.Data.List.Sort
import ScoreOverlay.Word

namespace ScoreOverlay

variable {α β : Type}

/-- Sorts by a coordinate. What has the same one keeps its order. -/
def sortOn (key : α → Int) (l : List α) : List α := l.mergeSort fun a b => key a ≤ key b

variable (key : α → Int)

private theorem le_trans_key (a b c : α) (hab : decide (key a ≤ key b) = true)
    (hbc : decide (key b ≤ key c) = true) : decide (key a ≤ key c) = true := by
  simp only [decide_eq_true_eq] at *
  omega

private theorem le_total_key (a b : α) :
    (decide (key a ≤ key b) || decide (key b ≤ key a)) = true := by
  simp only [Bool.or_eq_true, decide_eq_true_eq]
  omega

theorem sortOn_perm (l : List α) : (sortOn key l).Perm l := List.mergeSort_perm _ _

theorem sortOn_pairwise (l : List α) : (sortOn key l).Pairwise fun a b => key a ≤ key b := by
  have hsorted := List.pairwise_mergeSort (le_trans_key key) (le_total_key key) l
  exact hsorted.imp fun hle => of_decide_eq_true hle

/-- Sorting by coordinates that are all different forgets the order of a list. -/
theorem sortOn_eq_of_perm {l m : List α} (h : l.Perm m) (hkeys : (l.map key).Nodup) :
    sortOn key l = sortOn key m := by
  apply List.Perm.eq_of_pairwise _ (sortOn_pairwise key l) (sortOn_pairwise key m)
  · exact (sortOn_perm key l).trans (h.trans (sortOn_perm key m).symm)
  · intro a b ha hb hab hba
    have hl := (sortOn_perm key l).mem_iff.1 ha
    have hm := h.mem_iff.2 ((sortOn_perm key m).mem_iff.1 hb)
    exact List.inj_on_of_nodup_map hkeys hl hm (Int.le_antisymm hab hba)

theorem sortOn_pairwise_lt {l : List α} (hkeys : (l.map key).Nodup) :
    (sortOn key l).Pairwise fun a b => key a < key b := by
  have hnodup := ((sortOn_perm key l).map key).nodup_iff.2 hkeys
  have hne := List.pairwise_map.1 hnodup
  apply ((sortOn_pairwise key l).and hne).imp
  intro a b hab
  omega

theorem min?_map_of_sortOn {l rest : List α} {first : α} (h : sortOn key l = first :: rest) :
    (l.map key).min? = some (key first) := by
  have hperm := sortOn_perm key l
  have hsorted := sortOn_pairwise key l
  rw [h] at hperm hsorted
  rw [List.min?_eq_some_iff]
  constructor
  · exact List.mem_map_of_mem (hperm.subset List.mem_cons_self)
  · intro n hn
    obtain ⟨a, ha, rfl⟩ := List.mem_map.1 hn
    rcases List.mem_cons.1 (hperm.mem_iff.2 ha) with rfl | hrest
    · exact Int.le_refl _
    · exact (List.pairwise_cons.1 hsorted).1 a hrest

theorem sortOn_singleton (a : α) : sortOn key [a] = [a] := List.mergeSort_singleton a

/-- A first element goes in front of all that are not less and behind all that are. -/
theorem exists_sortOn_cons (a : α) (l : List α) :
    ∃ before after, sortOn key (a :: l) = before ++ a :: after ∧
      sortOn key l = before ++ after ∧ (∀ b ∈ before, key b < key a) ∧
      ∀ b ∈ after, key a ≤ key b := by
  obtain ⟨before, after, hcons, hrest, hbefore⟩ :=
    List.mergeSort_cons (le_trans_key key) (le_total_key key) a l
  refine ⟨before, after, hcons, hrest, fun b hb => ?_, ?_⟩
  · simpa using hbefore b hb
  · have hsorted : (before ++ a :: after).Pairwise fun b c => key b ≤ key c :=
      hcons ▸ sortOn_pairwise key (a :: l)
    exact (List.pairwise_cons.1 (List.pairwise_append.1 hsorted).2.1).1

theorem sortOn_cons (a : α) (l : List α) :
    sortOn key (a :: l) =
      (sortOn key l).filter (fun b => key b < key a) ++
        a :: (sortOn key l).filter fun b => key a ≤ key b := by
  obtain ⟨before, after, hcons, hrest, hbefore, hafter⟩ := exists_sortOn_cons key a l
  have hless : before.filter (fun b => key b < key a) = before :=
    List.filter_eq_self.2 fun b hb => decide_eq_true (hbefore b hb)
  have hnotLess : after.filter (fun b => key b < key a) = [] :=
    List.filter_eq_nil_iff.2 fun b hb => by simpa using hafter b hb
  have hnotLe : before.filter (fun b => key a ≤ key b) = [] :=
    List.filter_eq_nil_iff.2 fun b hb => by simpa using hbefore b hb
  have hle : after.filter (fun b => key a ≤ key b) = after :=
    List.filter_eq_self.2 fun b hb => decide_eq_true (hafter b hb)
  rw [hcons, hrest, List.filter_append, List.filter_append, hless, hnotLess, hnotLe, hle,
    List.append_nil, List.nil_append]

/-- Leaving elements out before sorting is the same as leaving them out afterwards, even if others
    have the same coordinate. -/
theorem sortOn_sublist {l m : List α} (h : l.Sublist m) :
    (sortOn key l).Sublist (sortOn key m) := by
  induction h with
  | slnil => exact List.Sublist.refl _
  | @cons l m a _ ih =>
    obtain ⟨before, after, hcons, hrest, -⟩ := exists_sortOn_cons key a m
    rw [hrest] at ih
    rw [hcons]
    exact ih.trans ((List.sublist_cons_self a after).append_left before)
  | cons_cons a _ ih =>
    rw [sortOn_cons, sortOn_cons]
    exact (ih.filter _).append ((ih.filter _).cons_cons a)

/-- Inserting one element after the other gives the same, also for those with the same coordinate.
    Unlike merging, that evaluates inside a proof. -/
theorem sortOn_eq_insertionSort (l : List α) :
    sortOn key l = l.insertionSort fun a b => key a ≤ key b := by
  induction l with
  | nil => exact List.mergeSort_nil
  | cons a rest ih =>
    obtain ⟨before, after, hcons, hrest, hbefore, hafter⟩ := exists_sortOn_cons key a rest
    have hpassed : ∀ b ∈ before, decide (¬ key a ≤ key b) = true :=
      fun b hb => decide_eq_true (Int.not_le.2 (hbefore b hb))
    have hstop : after.takeWhile (fun b => ¬ key a ≤ key b) = [] ∧
        after.dropWhile (fun b => ¬ key a ≤ key b) = after := by
      cases after with
      | nil => exact ⟨rfl, rfl⟩
      | cons b after => simp [hafter b List.mem_cons_self]
    rw [List.insertionSort_cons, ← ih, hcons, hrest, List.orderedInsert_eq_take_drop,
      List.takeWhile_append_of_pos hpassed, List.dropWhile_append_of_pos hpassed, hstop.1, hstop.2,
      List.append_nil]

theorem Word.sortByX_eq_insertionSort (items : List (Point × α)) :
    sortByX items = items.insertionSort fun a b => a.1.x ≤ b.1.x :=
  sortOn_eq_insertionSort (fun item : Point × α => item.1.x) items

theorem sortOn_map (f : α → β) (key : β → Int) (l : List α) :
    (sortOn (fun a => key (f a)) l).map f = sortOn key (l.map f) :=
  List.map_mergeSort fun _ _ _ _ => rfl

end ScoreOverlay
