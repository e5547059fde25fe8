import ScoreOverlay.Proofs.Cluster.Growth

namespace ScoreOverlay

variable {searched frontier remaining : List Glyph}

/-- Members that a candidate was found not to be near leave the answer to those behind them. -/
theorem Glyph.anyM_neighbours_append {candidate : Glyph}
    (hfar : ∀ member ∈ searched, member.neighbours candidate = .ok false) :
    (searched ++ frontier).anyM (·.neighbours candidate) =
      frontier.anyM (·.neighbours candidate) := by
  induction searched with
  | nil => rfl
  | cons member rest ih =>
    have hmember : member.neighbours candidate = .ok false := hfar member List.mem_cons_self
    have hrest := ih fun other hother => hfar other (List.mem_cons_of_mem member hother)
    rw [List.cons_append, List.anyM_cons, hmember]
    exact hrest

namespace Cluster

/-- Nothing that remains is near a member that was searched, and finding that out does not fault. -/
def Exhausted (searched remaining : List Glyph) : Prop :=
  ∀ member ∈ searched, ∀ g ∈ remaining, member.neighbours g = .ok false

/-- A pass that tests all members finds the same glyphs, or the same fault, as one that tests the
    frontier only. -/
theorem Exhausted.positions_eq (h : Exhausted searched remaining) :
    positions (fun g _ => (searched ++ frontier).anyM (·.neighbours g)) remaining =
      positions (fun g _ => frontier.anyM (·.neighbours g)) remaining := by
  unfold positions
  rw [split_congr]
  rintro ⟨g, position⟩ hentry
  apply Glyph.anyM_neighbours_append
  intro member hmember
  exact h member hmember g (List.fst_mem_of_mem_zipIdx hentry)

/-- After a pass the frontier counts as searched: what is near one of its members was admitted, and
    what remains was tested against all of them. -/
theorem Exhausted.pass {admitted rest : List Glyph} (h : Exhausted searched remaining)
    (hpass : IsDivision (fun g => frontier.anyM (·.neighbours g)) remaining admitted rest) :
    Exhausted (searched ++ frontier) rest := by
  intro member hmember g hg
  rcases List.mem_append.1 hmember with hsearched | hfrontier
  · exact h member hsearched g (hpass.failed_sublist.subset hg)
  · exact anyM_eq_ok_false (hpass.fails g hg) member hfrontier

/-- Extends a cluster like `grow`, but tests what remains against all members in every pass. -/
def growByAll (members remaining : List Glyph) : Checked (Cluster × List Glyph) :=
  match positions (fun g _ => members.anyM (·.neighbours g)) remaining with
  | .error fault => .error fault
  | .ok [] => .ok (members, remaining)
  | .ok (first :: more) =>
    match _ : extract remaining (first :: more) with
    | .error fault => .error fault
    | .ok (admitted, rest) => growByAll (members ++ admitted.reverse) rest
termination_by remaining.length
decreasing_by
  have hlength := extract_length ‹extract remaining (first :: more) = .ok (admitted, rest)›
  simp only [List.length_cons] at hlength
  omega

theorem grow_eq_growByAll (h : Exhausted searched remaining) :
    grow searched frontier remaining = growByAll (searched ++ frontier) remaining := by
  fun_induction grow searched frontier remaining with
  | case1 searched frontier remaining fault hplaces =>
    rw [growByAll, h.positions_eq, hplaces]
  | case2 searched frontier remaining hplaces =>
    rw [growByAll, h.positions_eq, hplaces]
  | case3 searched frontier remaining first more hplaces fault hextract =>
    rw [growByAll, h.positions_eq, hplaces]
    dsimp only
    split <;> rename_i hextract' <;> rw [hextract] at hextract' <;> cases hextract'
    rfl
  | case4 searched frontier remaining first more hplaces admitted rest hextract ih =>
    rw [growByAll, h.positions_eq, hplaces]
    dsimp only
    split <;> rename_i hextract' <;> rw [hextract] at hextract' <;> cases hextract'
    have hsplit := split_eq_extract hplaces
    rw [hextract] at hsplit
    exact ih (h.pass (split_isDivision hsplit))

theorem growByAll_eq_grow (members remaining : List Glyph) :
    growByAll members remaining = grow [] members remaining := by
  have hnone : Exhausted [] remaining := by simp [Exhausted]
  exact (grow_eq_growByAll hnone).symm

theorem growByAll_length {members remaining rest : List Glyph} {cluster : Cluster}
    (h : growByAll members remaining = .ok (cluster, rest)) : rest.length ≤ remaining.length := by
  rw [growByAll_eq_grow] at h
  exact grow_length h

/-- Starts clusters like `collect` and extends each of them with all its members. -/
def collectByAll (remaining : List Glyph) : Checked (List Cluster) :=
  if h : remaining = [] then .ok []
  else
    match _ : growByAll [remaining.getLast h] remaining.dropLast with
    | .error fault => .error fault
    | .ok (cluster, rest) => do return cluster :: (← collectByAll rest)
termination_by remaining.length
decreasing_by
  have hlength := growByAll_length ‹growByAll _ _ = .ok (cluster, rest)›
  have hpos := List.length_pos_iff.2 h
  rw [List.length_dropLast] at hlength
  omega

theorem collect_eq_collectByAll (remaining : List Glyph) :
    collect remaining = collectByAll remaining := by
  fun_induction collectByAll remaining with
  | case1 =>
    rw [collect]
    rfl
  | case2 remaining hne fault hgrow =>
    rw [growByAll_eq_grow] at hgrow
    rw [collect, dif_neg hne]
    split <;> rename_i hgrow' <;> rw [hgrow] at hgrow' <;> cases hgrow'
    rfl
  | case3 remaining hne cluster rest hgrow ih =>
    rw [growByAll_eq_grow] at hgrow
    rw [collect, dif_neg hne]
    split <;> rename_i hgrow' <;> rw [hgrow] at hgrow' <;> cases hgrow'
    rw [ih]

end Cluster

/-- Groups glyphs like `group`, but every pass tests each glyph that remains against all members of
    the current cluster, also against those that were searched before. -/
def Glyph.groupByAll (glyphs : List Glyph) : Checked (List Cluster) :=
  Cluster.collectByAll (glyphs.filter fun g => ¬ g.rect.IsEmpty)

/-- Searching each member only once is exact. Both ways of grouping give the same clusters in the
    same order, with the members in the same order, and where one stops at a fault the other stops
    at the same one. -/
theorem Cluster.group_eq_groupByAll (glyphs : List Glyph) :
    Glyph.group glyphs = Glyph.groupByAll glyphs :=
  Cluster.collect_eq_collectByAll _

end ScoreOverlay
