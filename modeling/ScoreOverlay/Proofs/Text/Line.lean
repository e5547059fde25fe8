import Mathlib.Data.List.Basic
import ScoreOverlay.Text.Line

namespace ScoreOverlay.Text

/-- The text begins with the line. It goes on with a line break, that is a line feed with or without
    one carriage return in front of it, or ends with the line. -/
inductive IsFirstLine : List Char → List Char → Prop
  | whole {line : List Char} (hne : line ≠ []) (hline : '\n' ∉ line) : IsFirstLine line line
  | feed {line rest : List Char} (hline : '\n' ∉ line) (hend : line.getLast? ≠ some '\r') :
      IsFirstLine line (line ++ '\n' :: rest)
  | returnFeed {line rest : List Char} (hline : '\n' ∉ line) :
      IsFirstLine line (line ++ '\r' :: '\n' :: rest)

variable {line text : List Char}

theorem IsFirstLine.eq_of_not_mem (h : IsFirstLine line text) (htext : '\n' ∉ text) :
    line = text := by
  cases h with
  | whole _ _ => rfl
  | feed _ _ => exact absurd (by simp) htext
  | returnFeed _ => exact absurd (by simp) htext

theorem IsFirstLine.not_mem (h : IsFirstLine line text) : '\n' ∉ line := by
  cases h with
  | whole _ hline => exact hline
  | feed hline _ => exact hline
  | returnFeed hline => exact hline

/-- A character that neither is a line break nor begins one belongs to the first line. -/
theorem lines_cons {c : Char} {rest : List Char} (hfeed : c ≠ '\n')
    (hreturn : c = '\r' → rest.head? ≠ some '\n') :
    lines (c :: rest) = (c :: (lines rest).headD []) :: (lines rest).tail := by
  rw [lines]
  · cases lines rest <;> rfl
  · exact hfeed
  · rintro rest' rfl rfl
    exact hreturn rfl rfl

theorem eq_nil_of_head?_append {rest : List Char} (hline : '\n' ∉ line)
    (h : (line ++ rest).head? = some '\n') : line = [] ∧ rest.head? = some '\n' := by
  cases line with
  | nil => exact ⟨rfl, h⟩
  | cons c line =>
    cases h
    exact absurd List.mem_cons_self hline

theorem lines_append_feed (hline : '\n' ∉ line) (hend : line.getLast? ≠ some '\r')
    (rest : List Char) : lines (line ++ '\n' :: rest) = line :: lines rest := by
  induction line with
  | nil => rw [List.nil_append, lines]
  | cons c line ih =>
    obtain ⟨hc, hbehind⟩ := List.ne_and_not_mem_of_not_mem_cons hline
    have hreturn : c = '\r' → (line ++ '\n' :: rest).head? ≠ some '\n' := by
      rintro rfl hhead
      obtain ⟨rfl, -⟩ := eq_nil_of_head?_append hbehind hhead
      exact hend rfl
    have hend : line.getLast? ≠ some '\r' := by
      intro hlast
      rw [List.getLast?_cons, hlast] at hend
      exact hend rfl
    rw [List.cons_append, lines_cons hc.symm hreturn, ih hbehind hend]
    rfl

theorem lines_append_returnFeed (hline : '\n' ∉ line) (rest : List Char) :
    lines (line ++ '\r' :: '\n' :: rest) = line :: lines rest := by
  induction line with
  | nil => rw [List.nil_append, lines]
  | cons c line ih =>
    obtain ⟨hc, hbehind⟩ := List.ne_and_not_mem_of_not_mem_cons hline
    have hreturn : c = '\r' → (line ++ '\r' :: '\n' :: rest).head? ≠ some '\n' := by
      intro _ hhead
      exact absurd (eq_nil_of_head?_append hbehind hhead).2 (by simp)
    rw [List.cons_append, lines_cons hc.symm hreturn, ih hbehind]
    rfl

theorem lines_of_not_mem (hne : line ≠ []) (hline : '\n' ∉ line) : lines line = [line] := by
  induction line with
  | nil => exact absurd rfl hne
  | cons c line ih =>
    obtain ⟨hc, hbehind⟩ := List.ne_and_not_mem_of_not_mem_cons hline
    have hreturn : c = '\r' → line.head? ≠ some '\n' :=
      fun _ hhead => hbehind (List.mem_of_mem_head? hhead)
    rw [lines_cons hc.symm hreturn]
    cases line with
    | nil => rfl
    | cons next line =>
      rw [ih (List.cons_ne_nil _ _) hbehind]
      rfl

/-- No line goes on behind a line feed. -/
theorem not_mem_of_mem_lines (h : line ∈ lines text) : '\n' ∉ line := by
  fun_induction lines text generalizing line with
  | case1 => cases h
  | case2 rest ih =>
    rcases List.mem_cons.1 h with rfl | h
    · exact List.not_mem_nil
    · exact ih h
  | case3 rest ih =>
    rcases List.mem_cons.1 h with rfl | h
    · exact List.not_mem_nil
    · exact ih h
  | case4 c rest hfeed hreturn hrest ih =>
    obtain rfl := List.mem_singleton.1 h
    simpa using Ne.symm hfeed
  | case5 c rest hfeed hreturn first others hrest ih =>
    rcases List.mem_cons.1 h with rfl | h
    · have hfirst : '\n' ∉ first := ih (by rw [hrest]; exact List.mem_cons_self)
      simpa [hfirst] using Ne.symm hfeed
    · exact ih (by rw [hrest]; exact List.mem_cons_of_mem _ h)

theorem IsFirstLine.firstLine?_eq (h : IsFirstLine line text) : firstLine? text = some line := by
  unfold firstLine?
  cases h with
  | whole hne hline => rw [lines_of_not_mem hne hline, List.head?_cons]
  | feed hline hend => rw [lines_append_feed hline hend, List.head?_cons]
  | returnFeed hline => rw [lines_append_returnFeed hline, List.head?_cons]

/-- Only the empty text has no line. -/
theorem exists_isFirstLine (h : text ≠ []) : ∃ line, IsFirstLine line text := by
  by_cases hfeed : '\n' ∈ text
  · obtain ⟨before, rest, rfl, hbefore⟩ := List.eq_append_cons_of_mem hfeed
    by_cases hend : before.getLast? = some '\r'
    · obtain ⟨line, rfl⟩ := List.getLast?_eq_some_iff.1 hend
      rw [List.append_assoc, List.singleton_append]
      exact ⟨line, .returnFeed fun hline => hbefore (List.mem_append_left _ hline)⟩
    · exact ⟨before, .feed hbefore hend⟩
  · exact ⟨text, .whole h hfeed⟩

theorem firstLine?_eq_some_iff : firstLine? text = some line ↔ IsFirstLine line text := by
  constructor
  · intro h
    have hne : text ≠ [] := by
      rintro rfl
      cases h
    obtain ⟨line', hline'⟩ := exists_isFirstLine hne
    obtain rfl := Option.some.inj (hline'.firstLine?_eq.symm.trans h)
    exact hline'
  · exact IsFirstLine.firstLine?_eq

end ScoreOverlay.Text
