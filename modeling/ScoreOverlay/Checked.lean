namespace ScoreOverlay

/-- The operations on pixel coordinates whose result can leave the coordinate range. -/
inductive Operation where
  | addition
  | subtraction
  | multiplication
  | negation
deriving DecidableEq, Repr

/-- Why a computation on coordinates stops. -/
inductive Fault where
  /-- A result lies outside the coordinate range. -/
  | overflow (operation : Operation)
  /-- A position lies outside the list it points into. -/
  | outOfRange
deriving DecidableEq, Repr

/-- The verb an overflow message uses for the operation. -/
def Operation.verb : Operation → String
  | addition => "add"
  | subtraction => "subtract"
  | multiplication => "multiply"
  | negation => "negate"

def Fault.message : Fault → String
  | overflow operation => "attempt to " ++ operation.verb ++ " with overflow"
  | outOfRange => "position out of range"

/-- A computation that gives a value or stops at its first fault. -/
abbrev Checked := Except Fault

/-- The element at a position that the caller expects to be inside the list. -/
def elementAt {α : Type} (l : List α) (position : Nat) : Checked α :=
  match l[position]? with
  | some a => pure a
  | none => throw .outOfRange

/-- Takes the element at a position out of the list and returns it with the rest. -/
def removeAt {α : Type} (l : List α) (position : Nat) : Checked (α × List α) := do
  return (← elementAt l position, l.eraseIdx position)

/-- Moves a position towards the start of a list. It must not move past the start. -/
def stepBack (position count : Nat) : Checked Nat :=
  if count ≤ position then pure (position - count) else throw .outOfRange

/-- Divides a list by a test that can fault. Both parts keep their order. -/
def split {α : Type} (p : α → Checked Bool) : List α → Checked (List α × List α)
  | [] => return ([], [])
  | a :: rest => do
    let holds ← p a
    let (passed, failed) ← split p rest
    return if holds then (a :: passed, failed) else (passed, a :: failed)

/-- The positions of the elements that pass a test. It sees the position as well and can fault. -/
def positions {α : Type} (p : α → Nat → Checked Bool) (l : List α) : Checked (List Nat) := do
  let (entries, _) ← split (fun (a, position) => p a position) l.zipIdx
  return entries.map Prod.snd

/-- Takes the elements at ascending positions out of the list, the last one first, so that the
    remaining positions stay valid. The elements taken out keep their order. -/
def extract {α : Type} (l : List α) : List Nat → Checked (List α × List α)
  | [] => return ([], l)
  | position :: later => do
    let (removed, rest) ← extract l later
    let (a, rest) ← removeAt rest position
    return (a :: removed, rest)

theorem split_length {α : Type} {p : α → Checked Bool} {l passed failed : List α}
    (h : split p l = .ok (passed, failed)) : passed.length + failed.length = l.length := by
  induction l generalizing passed failed with
  | nil =>
    cases h
    rfl
  | cons a rest ih =>
    simp only [split, bind, Except.bind] at h
    split at h
    · cases h
    · split at h
      · cases h
      · rename_i parts hrest
        have hlength := ih hrest
        split at h <;> cases h <;> simp only [List.length_cons] <;> omega

theorem removeAt_length {α : Type} {l rest : List α} {position : Nat} {a : α}
    (h : removeAt l position = .ok (a, rest)) : rest.length + 1 = l.length := by
  unfold removeAt elementAt at h
  split at h
  · rename_i found hfound
    cases h
    have hposition := (List.getElem?_eq_some_iff.1 hfound).1
    rw [List.length_eraseIdx_of_lt hposition]
    omega
  · cases h

theorem extract_length {α : Type} {l removed rest : List α} {places : List Nat}
    (h : extract l places = .ok (removed, rest)) : rest.length + places.length = l.length := by
  induction places generalizing removed rest with
  | nil =>
    cases h
    rfl
  | cons position later ih =>
    simp only [extract, bind, Except.bind] at h
    split at h
    · cases h
    · rename_i parts hparts
      split at h
      · cases h
      · rename_i taken htaken
        cases h
        have hlater := ih hparts
        have hrest := removeAt_length htaken
        simp only [List.length_cons]
        omega

end ScoreOverlay
