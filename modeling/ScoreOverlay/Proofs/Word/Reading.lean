import Mathlib.Data.List.Perm.Basic
import ScoreOverlay.Labeling
import ScoreOverlay.Proofs.Text.Line
import ScoreOverlay.Proofs.Word.Assembly

namespace ScoreOverlay

theorem Text.firstLine?_singleton {c : Char} (h : c ≠ '\n') : firstLine? [c] = some [c] :=
  (IsFirstLine.whole (List.cons_ne_nil c []) (by simpa using h.symm)).firstLine?_eq

/-- A single character that can start a line goes into a word as it is. -/
theorem Glyph.label_withCharacter (g : Glyph) {c : Char} (h : c ≠ '\n') :
    (g.withCharacter c).label = [c] := by
  rw [label, withCharacter, String.toList_singleton, Text.firstLine?_singleton h]
  rfl

/-- A glyph of a list, by its position, and the character that was seen in it. -/
abbrev Sight (glyphs : List Glyph) := Fin glyphs.length × Char

/-- The glyph labeled with the character. -/
def Sight.labeled {glyphs : List Glyph} (sight : Sight glyphs) : Glyph :=
  (glyphs.get sight.1).withCharacter sight.2

namespace Word

variable {glyphs : List Glyph} {ratio : Binary.Scalar}

/-- The text has the characters of the glyphs, with the space between any two neighbours and nothing
    else. -/
inductive Spelled (ratio : Binary.Scalar) : List (Sight glyphs) → List Char → Prop
  | last (i : Fin glyphs.length) (c : Char) : Spelled ratio [(i, c)] [c]
  | next {i j : Fin glyphs.length} {c d : Char} {rest : List (Sight glyphs)}
      {space text : List Char}
      (hspace : (glyphs.get i).spaceBetween (glyphs.get j) ratio = .ok space)
      (hrest : Spelled ratio ((j, d) :: rest) text) :
      Spelled ratio ((i, c) :: (j, d) :: rest) (c :: (space ++ text))

/-- The word is what the glyphs read as from left to right, at the place of the first one. -/
structure IsReading (ratio : Binary.Scalar) (members : List (Sight glyphs)) (word : Word) :
    Prop where
  nonempty : members ≠ []
  spelled : ∃ text, Spelled ratio members text ∧ word.text = String.ofList (Text.uppercase text)
  placed : ∃ centers : List Point,
    List.Forall₂ (fun sight center => (glyphs.get sight.1).center = .ok center) members centers ∧
      centers.Pairwise (fun p q => p.x ≤ q.x) ∧ centers.head? = some word.center

theorem spelled_of_spell {members : List (Sight glyphs)} {text : List Char}
    (hne : members ≠ []) (hline : ∀ sight ∈ members, sight.2 ≠ '\n')
    (h : spell ratio (members.map Sight.labeled) = .ok text) : Spelled ratio members text := by
  induction members generalizing text with
  | nil => exact absurd rfl hne
  | cons sight rest ih =>
    obtain ⟨i, c⟩ := sight
    obtain ⟨hc, hrest⟩ := List.forall_mem_cons.1 hline
    have hlabel : (Sight.labeled (i, c)).label = [c] := Glyph.label_withCharacter _ hc
    cases rest with
    | nil =>
      cases h
      rw [hlabel]
      exact Spelled.last i c
    | cons next rest =>
      obtain ⟨space, hspace, h⟩ := bind_eq_ok_iff.1 h
      obtain ⟨text, htext, h⟩ := bind_eq_ok_iff.1 h
      cases h
      rw [hlabel]
      exact Spelled.next hspace (ih (List.cons_ne_nil _ _) hrest htext)

/-- The centers of glyphs that stand in the order of their columns. -/
theorem pairwise_centers {members : List (Sight glyphs)} {centers : List Point}
    (hsorted : members.Pairwise fun a b => a.labeled.middleX ≤ b.labeled.middleX)
    (hcenters : List.Forall₂ (fun sight center => sight.labeled.center = .ok center)
      members centers) : centers.Pairwise fun p q => p.x ≤ q.x := by
  have hx : members.map (·.labeled.middleX) = centers.map Point.x := by
    rw [← List.forall₂_eq_eq_eq, List.forall₂_map_left_iff, List.forall₂_map_right_iff]
    exact hcenters.imp fun _ _ hcenter => (Glyph.x_of_center_eq_ok hcenter).symm
  have hpairwise := List.pairwise_map.2 hsorted
  rw [hx] at hpairwise
  exact List.pairwise_map.1 hpairwise

/-- A cluster is read by taking its glyphs in the order of their columns. -/
theorem exists_isReading {group : List (Sight glyphs)} {word? : Option Word} (hne : group ≠ [])
    (hline : ∀ sight ∈ group, sight.2 ≠ '\n')
    (h : ofCluster? (group.map Sight.labeled) ratio = .ok word?) :
    ∃ word, word? = some word ∧ ∃ members, members.Perm group ∧ IsReading ratio members word := by
  have hread := ofCluster?_eq_ok h
  rw [← sortOn_map Sight.labeled] at hread
  have hperm := sortOn_perm (fun sight : Sight glyphs => sight.labeled.middleX) group
  have hsorted := sortOn_pairwise (fun sight : Sight glyphs => sight.labeled.middleX) group
  obtain ⟨centers, hcenters⟩ := exists_centers h
  obtain ⟨centers, hcenters, -⟩ :=
    List.perm_comp_forall₂ hperm (List.forall₂_map_left_iff.1 hcenters)
  cases hmembers : sortOn (fun sight : Sight glyphs => sight.labeled.middleX) group with
  | nil =>
    rw [hmembers] at hperm
    exact absurd hperm.nil_eq.symm hne
  | cons first rest =>
    rw [hmembers] at hread hperm hsorted hcenters
    obtain ⟨text, center, htext, hcenter, rfl⟩ := hread
    refine ⟨_, rfl, first :: rest, hperm, List.cons_ne_nil _ _, ⟨text, ?_, rfl⟩, centers, hcenters,
      pairwise_centers hsorted hcenters, ?_⟩
    · refine spelled_of_spell (List.cons_ne_nil _ _) (fun sight hsight => ?_) htext
      exact hline sight (hperm.mem_iff.1 hsight)
    · cases hcenters with
      | cons hfirst _ => exact congrArg some (Except.ok.inj (hfirst.symm.trans hcenter))

/-- The glyphs of each word, in the order in which they are read. -/
theorem exists_members {groups : List (List (Sight glyphs))} {words : List Word}
    (h : List.Forall₂ (fun group word => ∃ members, members.Perm group ∧
      IsReading ratio members word) groups words) :
    ∃ members : List (List (Sight glyphs)), members.flatten.Perm groups.flatten ∧
      List.Forall₂ (IsReading ratio) members words := by
  induction h with
  | nil => exact ⟨[], List.Perm.refl _, List.Forall₂.nil⟩
  | cons hfirst _ ih =>
    obtain ⟨members, hperm, hreading⟩ := hfirst
    obtain ⟨others, hflatten, hreadings⟩ := ih
    exact ⟨members :: others, hperm.append hflatten, List.Forall₂.cons hreading hreadings⟩

/-- From left to right, the words have exactly the glyphs of the clusters. -/
theorem ofClusters_isReading {groups : List (List (Sight glyphs))} {words : List Word}
    (hne : ∀ group ∈ groups, group ≠ []) (hline : ∀ group ∈ groups, ∀ sight ∈ group, sight.2 ≠ '\n')
    (h : ofClusters (groups.map (·.map Sight.labeled)) ratio = .ok words) :
    ∃ members : List (List (Sight glyphs)), members.flatten.Perm groups.flatten ∧
      List.Forall₂ (IsReading ratio) members words := by
  obtain ⟨read, hread, hwords⟩ := exists_forall₂_of_ofClusters
    (R := fun group word => ∃ members, members.Perm group ∧ IsReading ratio members word)
    (fun group hgroup word? hword => exists_isReading (hne group hgroup) (hline group hgroup) hword)
    h
  -- The clusters follow their words into the order of the columns.
  obtain ⟨order, horder, hperm⟩ := List.perm_comp_forall₂ hwords hread.flip
  obtain ⟨members, hmembers, hreadings⟩ := exists_members horder.flip
  exact ⟨members, hmembers.trans hperm.flatten, hreadings⟩

end Word

end ScoreOverlay
