import Mathlib.Data.List.Chain
import ScoreOverlay.Proofs.Cluster.Reordering

namespace ScoreOverlay.Cluster

variable {glyphs : List Glyph}

/-- A path through the list leads from the first position to the second. Each glyph on it is near
    enough to the one before it to join. -/
def Connected (glyphs : List Glyph) (i j : Fin glyphs.length) : Prop :=
  ∃ path : List (Fin glyphs.length),
    path.head? = some i ∧ path.getLast? = some j ∧ path.IsChain (Near glyphs)

/-- Where every glyph is in the pool, a path through the list is a chain through the pool. -/
theorem connected_iff_reaches {pool : List (Fin glyphs.length)} (hpool : ∀ i, i ∈ pool)
    {i j : Fin glyphs.length} : Connected glyphs i j ↔ Reaches glyphs pool i j := by
  have hreaches : Reaches glyphs pool i j ↔ Relation.ReflTransGen (Near glyphs) i j := by
    unfold Reaches
    simp only [hpool, true_and]
  rw [hreaches]
  constructor
  · rintro ⟨path, hfirst, hlast, hchain⟩
    obtain ⟨others, rfl⟩ := List.head?_eq_some_iff.1 hfirst
    apply List.relationReflTransGen_of_exists_isChain_cons others hchain
    rwa [List.getLast?_eq_some_getLast (List.cons_ne_nil _ _), Option.some.injEq] at hlast
  · intro hreach
    obtain ⟨others, hchain, hlast⟩ := List.exists_isChain_cons_of_relationReflTransGen hreach
    refine ⟨i :: others, rfl, ?_, hchain⟩
    rw [List.getLast?_eq_some_getLast (List.cons_ne_nil _ _), hlast]

theorem candidates_eq_finRange (hsolid : ∀ g ∈ glyphs, ¬ g.rect.IsEmpty) :
    candidates glyphs = List.finRange glyphs.length := by
  apply List.filter_eq_self.2
  intro i _
  simpa using hsolid (glyphs.get i) (List.get_mem glyphs i)

/-- Glyphs of one height are grouped by what is connected. A glyph near enough to join another one
    could as well have been joined by it, so a path can be walked in both directions and it makes no
    difference from which of its glyphs the cluster was started. -/
theorem together_iff_connected (hsolid : ∀ g ∈ glyphs, ¬ g.rect.IsEmpty)
    (hheight : ∀ g ∈ glyphs, ∀ h ∈ glyphs, g.height = h.height)
    (hfits : NoOverflow (Glyph.group glyphs)) :
    ∃ groups : List (List (Fin glyphs.length)),
      Glyph.group glyphs = .ok (groups.map (·.map glyphs.get)) ∧
        groups.flatten.Perm (List.finRange glyphs.length) ∧
        ∀ i j, (∃ members ∈ groups, i ∈ members ∧ j ∈ members) ↔ Connected glyphs i j := by
  have hpool : ∀ i, i ∈ candidates glyphs := by simp [candidates_eq_finRange hsolid]
  have hmutual : Mutual glyphs (candidates glyphs) := by
    apply mutual_of_height_eq
    intro i _ j _
    exact hheight _ (List.get_mem glyphs i) _ (List.get_mem glyphs j)
  obtain ⟨clusters, hclusters⟩ := (group_inBounds glyphs).exists_ok hfits
  rw [group_eq_collect] at hclusters ⊢
  obtain ⟨groups, rfl, hclasses⟩ := collect_isClasses (candidates_nodup glyphs) hmutual hclusters
  refine ⟨groups, hclusters, ?_, fun i j => ?_⟩
  · rw [← candidates_eq_finRange hsolid]
    exact hclasses.partition
  · rw [connected_iff_reaches hpool, hclasses.together_iff (hpool i)]

/-- Two lines of three glyphs each, listed in turns. On each line the glyph listed last stands
    between the other two, which are too far apart to be neighbours. -/
private def twoLines : List Glyph :=
  [⟨[], [], ⟨0, 0, 8, 12⟩, "a"⟩, ⟨[], [], ⟨0, 40, 8, 12⟩, "d"⟩,
    ⟨[], [], ⟨20, 0, 8, 12⟩, "c"⟩, ⟨[], [], ⟨20, 40, 8, 12⟩, "f"⟩,
    ⟨[], [], ⟨10, 1, 8, 12⟩, "b"⟩, ⟨[], [], ⟨10, 39, 8, 12⟩, "e"⟩]

theorem together_iff_connected_twoLines :
    (twoLines.get (0 : Fin 6)).neighbours (twoLines.get (2 : Fin 6)) = .ok false ∧
      Connected twoLines (0 : Fin 6) (2 : Fin 6) ∧
        ¬ Connected twoLines (0 : Fin 6) (1 : Fin 6) := by
  let lines : List (List (Fin 6)) := [[5, 3, 1], [4, 2, 0]]
  have hsolid : ∀ g ∈ twoLines, ¬ g.rect.IsEmpty := by decide
  have hheight : ∀ g ∈ twoLines, ∀ h ∈ twoLines, g.height = h.height := by decide
  have hrun : Glyph.group twoLines = .ok (lines.map (·.map twoLines.get)) := by decide +kernel
  have hfits : NoOverflow (Glyph.group twoLines) := by decide +kernel
  obtain ⟨groups, hgroups, -, hconnected⟩ := together_iff_connected hsolid hheight hfits
  have hget : Function.Injective twoLines.get := by
    unfold Function.Injective
    decide
  obtain rfl : groups = lines := by
    apply List.map_injective_iff.2 (List.map_injective_iff.2 hget)
    exact Except.ok.inj (hgroups.symm.trans hrun)
  have hjoined : ∃ members ∈ lines, (0 : Fin 6) ∈ members ∧ (2 : Fin 6) ∈ members := by decide
  have happart : ¬ ∃ members ∈ lines, (0 : Fin 6) ∈ members ∧ (1 : Fin 6) ∈ members := by decide
  refine ⟨by decide +kernel, (hconnected _ _).1 hjoined, ?_⟩
  intro hpath
  exact happart ((hconnected _ _).2 hpath)

end ScoreOverlay.Cluster
