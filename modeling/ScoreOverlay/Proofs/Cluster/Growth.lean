import Mathlib.Logic.Relation
import ScoreOverlay.Cluster.Grouping
import ScoreOverlay.Proofs.Checked.Split
import ScoreOverlay.Proofs.Geometry.Hull

namespace ScoreOverlay

theorem Glyph.neighbours_inBounds (member candidate : Glyph) :
    InBounds (member.neighbours candidate) := by
  refine (Rect.bottom_inBounds _).bind fun _ _ => (Rect.right_inBounds _).bind fun _ _ => ?_
  refine (Rect.bottom_inBounds _).bind fun _ _ => (Rect.right_inBounds _).bind fun _ _ => ?_
  refine (Rect.bottom_inBounds _).bind fun _ _ => (Rect.bottom_inBounds _).bind fun _ _ => ?_
  refine InBounds.ite (fun _ => ?_) fun _ => InBounds.pure _
  refine (Coordinate.sub_inBounds _ _).bind fun _ _ => ?_
  exact (Coordinate.abs_inBounds _).bind fun _ _ => InBounds.pure _

namespace Cluster

/-- A pass that takes the admitted glyphs out by position divides what remains by the test. -/
theorem grow_eq (searched frontier remaining : List Glyph) :
    grow searched frontier remaining = (do
      let (admitted, rest) ← split (fun g => frontier.anyM (·.neighbours g)) remaining
      if admitted = [] then return (searched ++ frontier, remaining)
      grow (searched ++ frontier) admitted.reverse rest) := by
  rw [grow]
  cases hplaces : positions (fun g _ => frontier.anyM (·.neighbours g)) remaining with
  | error fault =>
    rw [split_eq_error hplaces]
    rfl
  | ok places =>
    rw [split_eq_extract hplaces]
    cases places with
    | nil => rfl
    | cons position later =>
      dsimp only
      split
      · rename_i fault hextract
        rw [hextract]
        rfl
      · rename_i admitted rest hextract
        have hne : admitted ≠ [] := by
          rintro rfl
          cases length_extract hextract
        rw [hextract, ok_bind, if_neg hne]

theorem grow_inBounds (searched frontier remaining : List Glyph) :
    InBounds (grow searched frontier remaining) := by
  induction hcount : remaining.length using Nat.strong_induction_on
    generalizing searched frontier remaining with
  | _ count ih =>
    have hsplit : InBounds (split (fun g => frontier.anyM (·.neighbours g)) remaining) :=
      InBounds.split fun g _ => InBounds.anyM fun member _ => Glyph.neighbours_inBounds member g
    rw [grow_eq]
    refine hsplit.bind fun parts hparts => ?_
    refine InBounds.ite (fun _ => InBounds.pure _) fun hadmitted => ?_
    have hlength := split_length hparts
    have hpos := List.length_pos_iff.2 hadmitted
    exact ih parts.2.length (by omega) _ _ _ rfl

variable {glyphs : List Glyph}

/-- The glyph at the first position is near enough to one at the second for it to join. -/
def Near (glyphs : List Glyph) (i j : Fin glyphs.length) : Prop :=
  (glyphs.get i).neighbours (glyphs.get j) = .ok true

/-- The glyph at the second position was found not to be near the one at the first. -/
def Far (glyphs : List Glyph) (i j : Fin glyphs.length) : Prop :=
  (glyphs.get i).neighbours (glyphs.get j) = .ok false

theorem Far.not_near {i j : Fin glyphs.length} (h : Far glyphs i j) : ¬ Near glyphs i j := by
  intro hnear
  cases (Eq.symm h).trans hnear

/-- Each member but the first joined because of one before it. -/
def Supported (glyphs : List Glyph) (members : List (Fin glyphs.length)) : Prop :=
  ∀ before j after, members = before ++ j :: after → before ≠ [] → ∃ i ∈ before, Near glyphs i j

theorem Supported.singleton (seed : Fin glyphs.length) : Supported glyphs [seed] := by
  intro before j after h hne
  have hlength := congrArg List.length h
  have hpos := List.length_pos_iff.2 hne
  simp only [List.length_append, List.length_cons, List.length_nil] at hlength
  omega

theorem Supported.append {members admitted : List (Fin glyphs.length)}
    (h : Supported glyphs members) (hadmitted : ∀ j ∈ admitted, ∃ i ∈ members, Near glyphs i j) :
    Supported glyphs (members ++ admitted) := by
  intro before j after heq hne
  rcases List.append_eq_append_iff.1 heq with ⟨more, rfl, hmore⟩ | ⟨more, hmembers, hmore⟩
  · obtain ⟨i, hi, hnear⟩ := hadmitted j (by simp [hmore])
    exact ⟨i, List.mem_append_left _ hi, hnear⟩
  · cases more with
    | nil =>
      rw [List.append_nil] at hmembers
      rw [List.nil_append] at hmore
      exact hmembers ▸ hadmitted j (by simp [← hmore])
    | cons first rest =>
      obtain ⟨rfl, _⟩ := List.cons.inj hmore
      exact h before j rest hmembers hne

/-- What holds between two passes. The members and what remains make up the pool, each member but
    the seed has a reason to be one, and nothing that remains is near a searched member. -/
structure Growth (glyphs : List Glyph)
    (pool searched frontier remaining : List (Fin glyphs.length)) : Prop where
  partition : (searched ++ frontier ++ remaining).Perm pool
  ordered : remaining.Sublist pool
  supported : Supported glyphs (searched ++ frontier)
  closed : ∀ i ∈ searched, ∀ j ∈ remaining, Far glyphs i j

theorem Growth.start (seed : Fin glyphs.length) (rest : List (Fin glyphs.length)) :
    Growth glyphs (rest ++ [seed]) [] [seed] rest where
  partition := List.perm_append_comm
  ordered := List.sublist_append_left _ _
  supported := Supported.singleton seed
  closed := by simp

/-- One pass keeps the invariant. -/
theorem Growth.pass {pool searched frontier remaining admitted rest : List (Fin glyphs.length)}
    (h : Growth glyphs pool searched frontier remaining)
    (hpass : IsDivision (fun j => (frontier.map glyphs.get).anyM (·.neighbours (glyphs.get j)))
      remaining admitted rest) :
    Growth glyphs pool (searched ++ frontier) admitted.reverse rest := by
  constructor
  · have hperm : (admitted.reverse ++ rest).Perm remaining :=
      ((List.reverse_perm admitted).append_right rest).trans hpass.perm
    rw [List.append_assoc]
    exact (hperm.append_left _).trans h.partition
  · exact hpass.failed_sublist.trans h.ordered
  · refine h.supported.append fun j hj => ?_
    obtain ⟨member, hmember, hnear⟩ := anyM_eq_ok_true (hpass.holds j (List.mem_reverse.1 hj))
    obtain ⟨i, hi, rfl⟩ := List.mem_map.1 hmember
    exact ⟨i, List.mem_append_right _ hi, hnear⟩
  · intro i hi j hj
    rcases List.mem_append.1 hi with hi | hi
    · exact h.closed i hi j (hpass.failed_sublist.subset hj)
    · exact anyM_eq_ok_false (hpass.fails j hj) _ (List.mem_map_of_mem hi)

/-- The passes end in a state without a frontier that starts with the members there were. -/
theorem Growth.grow {pool searched frontier remaining : List (Fin glyphs.length)}
    {cluster : Cluster} {left : List Glyph} (h : Growth glyphs pool searched frontier remaining)
    (hgrow : grow (searched.map glyphs.get) (frontier.map glyphs.get) (remaining.map glyphs.get) =
      .ok (cluster, left)) :
    ∃ members left', cluster = members.map glyphs.get ∧ left = left'.map glyphs.get ∧
      (searched ++ frontier) <+: members ∧ Growth glyphs pool members [] left' := by
  induction hcount : remaining.length using Nat.strong_induction_on
    generalizing searched frontier remaining with
  | _ count ih =>
    rw [grow_eq] at hgrow
    obtain ⟨⟨_, _⟩, hparts, hgrow⟩ := bind_eq_ok_iff.1 hgrow
    obtain ⟨admitted, rest, rfl, rfl, hpass⟩ := split_map_isDivision hparts
    simp only [List.map_eq_nil_iff] at hgrow
    split at hgrow
    · rename_i hnone
      cases hgrow
      subst hnone
      have hrest : rest = remaining := hpass.failed_sublist.eq_of_length hpass.perm.length_eq
      subst hrest
      refine ⟨searched ++ frontier, rest, by rw [List.map_append], rfl, List.prefix_refl _, ?_⟩
      exact h.pass hpass
    · rename_i hadmitted
      have hlength := split_length hparts
      have hpos := List.length_pos_iff.2 hadmitted
      simp only [List.length_map] at hlength
      rw [← List.map_append, ← List.map_reverse] at hgrow
      obtain ⟨members, left', hcluster, hleft, hprefix, hfinal⟩ :=
        ih rest.length (by omega) (h.pass hpass) hgrow rfl
      exact ⟨members, left', hcluster, hleft, (List.prefix_append _ _).trans hprefix, hfinal⟩

end Cluster

end ScoreOverlay
