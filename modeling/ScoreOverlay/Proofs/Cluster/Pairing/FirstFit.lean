import ScoreOverlay.Proofs.Checked.Overflow
import ScoreOverlay.Proofs.Cluster.Pairing.Matching

namespace ScoreOverlay

namespace Profile

/-- The profiles at two positions can be compared, and they are not symmetric. -/
def AsymmetricAt (profiles : List Profile) (threshold : Binary.Scalar) (i j : Nat) : Prop :=
  ∃ p q, profiles[i]? = some p ∧ profiles[j]? = some q ∧ p.symmetricTo q threshold = .ok false

end Profile

namespace Pairing

/-- Whoever looks for a partner of `i` has to leave out `k`: it belongs to a position in front of
    `i`, or the two are not symmetric. -/
def PassesOver (profiles : List Profile) (threshold : Binary.Scalar) (pairing : Pairing)
    (i k : Nat) : Prop :=
  (∃ l < i, pairing.Pairs k l) ∨ Profile.AsymmetricAt profiles threshold i k

/-- Each position in turn has taken the first one behind it that it could take. Nothing that it
    could take stands in front of its partner, and nothing at all behind a position without a
    partner. -/
structure IsFirstFit (profiles : List Profile) (threshold : Binary.Scalar) (pairing : Pairing) :
    Prop extends Matches profiles threshold pairing where
  between : ∀ {i j k}, pairing.Pairs i j → i < k → k < j → PassesOver profiles threshold pairing i k
  behind : ∀ {i k}, pairing.Free i → i < k → k < profiles.length →
    PassesOver profiles threshold pairing i k

section

variable {profiles : List Profile} {threshold : Binary.Scalar} {pairing table : Pairing}
  {i j k v : Nat}

theorem PassesOver.mono (h : PassesOver profiles threshold pairing i k)
    (hkept : ∀ a b, pairing.Pairs a b → table.Pairs a b) :
    PassesOver profiles threshold table i k := by
  rcases h with ⟨l, hl, hpairs⟩ | hasymmetric
  · exact .inl ⟨l, hl, hkept k l hpairs⟩
  · exact .inr hasymmetric

/-- Two positions without a partner are not symmetric, or they would have found each other. -/
theorem IsFirstFit.asymmetricAt (h : IsFirstFit profiles threshold pairing) (hi : pairing.Free i)
    (hj : pairing.Free j) (hij : i < j) : Profile.AsymmetricAt profiles threshold i j := by
  have hinside : j < profiles.length := h.length ▸ hj.lt_length
  rcases h.behind hi hij hinside with ⟨l, -, hpairs⟩ | hasymmetric
  · exact absurd hpairs hj.not_pairs
  · exact hasymmetric

/-- What the turns before position `v` have made of the table. -/
structure IsFirstFitBefore (profiles : List Profile) (threshold : Binary.Scalar) (v : Nat)
    (pairing : Pairing) : Prop extends Matches profiles threshold pairing where
  early : ∀ {i j}, pairing.Pairs i j → i < v ∨ j < v
  between : ∀ {i j k}, i < v → pairing.Pairs i j → i < k → k < j →
    PassesOver profiles threshold pairing i k
  behind : ∀ {i k}, i < v → pairing.Free i → i < k → k < profiles.length →
    PassesOver profiles threshold pairing i k

namespace IsFirstFitBefore

theorem start (profiles : List Profile) (threshold : Binary.Scalar) :
    IsFirstFitBefore profiles threshold 0 (List.replicate profiles.length none) where
  toMatches := Matches.start profiles threshold
  early hpairs := absurd hpairs (replicate_not_pairs _)
  between hv := absurd hv (Nat.not_lt_zero _)
  behind hv := absurd hv (Nat.not_lt_zero _)

/-- Before the turn of `v`, a position behind `v` that has a partner got it from one in front. -/
theorem passesOver (h : IsFirstFitBefore profiles threshold v pairing) (hvk : v < k)
    (hskips : Skips profiles threshold pairing v k) :
    PassesOver profiles threshold pairing v k := by
  rcases hskips with ⟨l, hpairs⟩ | hasymmetric
  · rcases h.early hpairs with hk | hl
    · omega
    · exact .inl ⟨l, hl, hpairs⟩
  · exact .inr hasymmetric

theorem keep_paired (h : IsFirstFitBefore profiles threshold v pairing) (hv : pairing.Pairs v j) :
    IsFirstFitBefore profiles threshold (v + 1) pairing where
  toMatches := h.toMatches
  early hpairs := by
    rcases h.early hpairs with hi | hj <;> omega
  between := by
    intro i j' k hi hpairs hik hkj
    rcases Nat.lt_succ_iff_lt_or_eq.1 hi with hi | rfl
    · exact h.between hi hpairs hik hkj
    · -- The partner of a position that was taken stands in front of it.
      obtain rfl := hpairs.unique hv
      rcases h.early hpairs with hlt | hlt <;> omega
  behind := by
    intro i k hi hfree hik hk
    rcases Nat.lt_succ_iff_lt_or_eq.1 hi with hi | rfl
    · exact h.behind hi hfree hik hk
    · exact absurd hv hfree.not_pairs

theorem keep_free (h : IsFirstFitBefore profiles threshold v pairing) (hv : pairing.Free v)
    (hskips : ∀ k, v < k → k < profiles.length → Skips profiles threshold pairing v k) :
    IsFirstFitBefore profiles threshold (v + 1) pairing where
  toMatches := h.toMatches
  early hpairs := by
    rcases h.early hpairs with hi | hj <;> omega
  between := by
    intro i j k hi hpairs hik hkj
    rcases Nat.lt_succ_iff_lt_or_eq.1 hi with hi | rfl
    · exact h.between hi hpairs hik hkj
    · exact absurd hpairs hv.not_pairs
  behind := by
    intro i k hi hfree hik hk
    rcases Nat.lt_succ_iff_lt_or_eq.1 hi with hi | rfl
    · exact h.behind hi hfree hik hk
    · exact h.passesOver hik (hskips k hik hk)

theorem join (h : IsFirstFitBefore profiles threshold v pairing)
    (hmatches : Matches profiles threshold (pairing.join v j)) (hvj : v < j) (hv : pairing.Free v)
    (hj : pairing.Free j)
    (hskips : ∀ k, v < k → k < j → Skips profiles threshold pairing v k) :
    IsFirstFitBefore profiles threshold (v + 1) (pairing.join v j) := by
  have hpairs {a b : Nat} := join_pairs_iff (a := a) (b := b) hv hj (by omega)
  have hkept : ∀ a b, pairing.Pairs a b → (pairing.join v j).Pairs a b :=
    fun _ _ hold => hpairs.2 (.inr (.inr hold))
  refine ⟨hmatches, ?_, ?_, ?_⟩
  · intro a b hab
    rcases hpairs.1 hab with ⟨rfl, -⟩ | ⟨-, rfl⟩ | hold
    · omega
    · omega
    · rcases h.early hold with ha | hb <;> omega
  · intro a b k ha hab hak hkb
    rcases hpairs.1 hab with ⟨rfl, rfl⟩ | ⟨rfl, rfl⟩ | hold
    · exact (h.passesOver hak (hskips k hak hkb)).mono hkept
    · omega
    · have hne : a ≠ v := by
        rintro rfl
        exact hv.not_pairs hold
      exact (h.between (by omega) hold hak hkb).mono hkept
  · intro a k ha hfree hak hk
    have hne : a ≠ v := by
      rintro rfl
      exact hfree.not_pairs (hpairs.2 (.inl ⟨rfl, rfl⟩))
    have hbefore : pairing.Free a := by
      have hinside : a < pairing.length := by simpa using hfree.lt_length
      rcases free_or_pairs pairing hinside with hfree' | ⟨b, hab⟩
      · exact hfree'
      · exact absurd (hkept a b hab) hfree.not_pairs
    exact (h.behind (by omega) hbefore hak hk).mono hkept

theorem matchAt (h : IsFirstFitBefore profiles threshold v pairing) (hv : v < profiles.length) :
    Ensures (matchAt profiles threshold pairing v)
      (IsFirstFitBefore profiles threshold (v + 1)) := by
  refine ⟨(matchAt_ensures h.length hv).1, fun next hnext => ?_⟩
  have hmatches := (h.toMatches.matchAt hv).2 next hnext
  rcases (matchAt_ensures h.length hv).2 next hnext with
    ⟨rfl, k, hpairs⟩ | ⟨rfl, hfree, hskips⟩ | ⟨j, rfl, hvj, hfree, hj, -, hskips⟩
  · exact h.keep_paired hpairs
  · exact h.keep_free hfree hskips
  · exact h.join hmatches hvj hfree hj hskips

theorem isFirstFit (h : IsFirstFitBefore profiles threshold profiles.length pairing) :
    IsFirstFit profiles threshold pairing where
  toMatches := h.toMatches
  between hpairs := h.between (h.length ▸ hpairs.lt_length) hpairs
  behind hfree := h.behind (h.length ▸ hfree.lt_length) hfree

end IsFirstFitBefore

/-- The loop over the positions gives a first fit. -/
theorem ofProfiles_ensures_isFirstFit (profiles : List Profile) (threshold : Binary.Scalar) :
    Ensures (ofProfiles profiles threshold) (IsFirstFit profiles threshold) := by
  refine Ensures.imp ?_ fun _ => IsFirstFitBefore.isFirstFit
  exact Ensures.foldlM_range (IsFirstFitBefore.start profiles threshold)
    fun v hv table htable => htable.matchAt hv

/-- The table has those pairs of a matching that have a member before `v`. -/
structure IsStartOf (pairing : Pairing) (v : Nat) (table : Pairing) : Prop where
  length : table.length = pairing.length
  pairs : ∀ {i j}, table.Pairs i j ↔ pairing.Pairs i j ∧ (i < v ∨ j < v)

namespace IsStartOf

variable {profile : Profile}

theorem free_of_not_pairs (h : IsStartOf pairing v table) (hk : k < pairing.length)
    (hnot : ∀ l, pairing.Pairs k l → ¬ (k < v ∨ l < v)) : table.Free k := by
  rcases free_or_pairs table (h.length.symm ▸ hk) with hfree | ⟨l, hpairs⟩
  · exact hfree
  · obtain ⟨hold, hearly⟩ := h.pairs.1 hpairs
    exact absurd hearly (hnot l hold)

theorem free_of_free (h : IsStartOf pairing v table) (hk : pairing.Free k) : table.Free k :=
  h.free_of_not_pairs hk.lt_length fun _ hpairs => absurd hpairs hk.not_pairs

/-- Members of a pair are free until the turn of the first of them. -/
theorem free_of_pairs (h : IsStartOf pairing v table) (hpairs : pairing.Pairs k j) (hk : v ≤ k)
    (hj : v ≤ j) : table.Free k := by
  apply h.free_of_not_pairs hpairs.lt_length
  intro l hl
  obtain rfl := hl.unique hpairs
  omega

/-- What a search has to leave out fails its test: either it is taken by then, or the comparison is
    made and says no. -/
theorem test_eq_false (h : IsStartOf pairing v table) (hk : k < pairing.length)
    (hprofile : profiles[v]? = some profile)
    (hpasses : PassesOver profiles threshold pairing v k) :
    (do
      if (← elementAt table k).isSome then return false
      profile.symmetricTo (← elementAt profiles k) threshold) = .ok false := by
  rcases free_or_pairs table (h.length.symm ▸ hk) with hfree | ⟨l, hpairs⟩
  · rcases hpasses with ⟨l, hl, hpairs⟩ | ⟨p, q, hp, hq, hpq⟩
    · exact absurd (h.pairs.2 ⟨hpairs, .inr hl⟩) hfree.not_pairs
    · obtain rfl := Option.some.inj (hp.symm.trans hprofile)
      simp [elementAt_eq_ok_iff.2 hfree, elementAt_eq_ok_iff.2 hq, hpq]
  · simp [elementAt_eq_ok_iff.2 hpairs]

theorem findPartner?_eq_none (h : IsStartOf pairing v table)
    (hlength : pairing.length = profiles.length) (hprofile : profiles[v]? = some profile)
    (hpasses : ∀ k, v < k → k < profiles.length → PassesOver profiles threshold pairing v k) :
    table.findPartner? profiles threshold profile
      (List.range' (v + 1) (profiles.length - (v + 1))) = .ok none := by
  apply findM?_eq_none
  intro k hk
  rw [List.mem_range'_1] at hk
  exact h.test_eq_false (by omega) hprofile (hpasses k (by omega) (by omega))

theorem findPartner?_eq_some (h : IsStartOf pairing v table)
    (hlength : pairing.length = profiles.length) (hprofile : profiles[v]? = some profile)
    (hpasses : ∀ k, v < k → k < j → PassesOver profiles threshold pairing v k) (hvj : v < j)
    (hfree : table.Free j) (hsymmetric : Profile.SymmetricAt profiles threshold v j) :
    table.findPartner? profiles threshold profile
      (List.range' (v + 1) (profiles.length - (v + 1))) = .ok (some j) := by
  obtain ⟨p, q, hp, hq, hpq⟩ := hsymmetric
  obtain rfl := Option.some.inj (hp.symm.trans hprofile)
  have hj : j < profiles.length := (List.getElem?_eq_some_iff.1 hq).1
  have hrange : List.range' (v + 1) (profiles.length - (v + 1)) =
      List.range' (v + 1) (j - (v + 1)) ++
        j :: List.range' (j + 1) (profiles.length - (j + 1)) := by
    rw [show profiles.length - (v + 1) = (j - (v + 1)) + (profiles.length - (j + 1) + 1) by omega,
      ← List.range'_append_1, List.range'_succ, show v + 1 + (j - (v + 1)) = j by omega]
  rw [hrange]
  apply findM?_eq_some
  · intro k hk
    rw [List.mem_range'_1] at hk
    exact h.test_eq_false (by omega) hprofile (hpasses k (by omega) (by omega))
  · simp [elementAt_eq_ok_iff.2 hfree, elementAt_eq_ok_iff.2 hq, hpq]

/-- The turn of a position that the first fit leaves alone, or that is taken already. -/
theorem succ (h : IsStartOf pairing v table) (hmatching : pairing.IsMatching)
    (hnone : ∀ j, pairing.Pairs v j → j < v) : IsStartOf pairing (v + 1) table := by
  refine ⟨h.length, fun {i j} => ?_⟩
  rw [h.pairs]
  constructor
  · rintro ⟨hpairs, hearly⟩
    exact ⟨hpairs, by omega⟩
  · rintro ⟨hpairs, hearly⟩
    refine ⟨hpairs, ?_⟩
    by_cases hi : i = v
    · subst hi
      exact .inr (hnone j hpairs)
    · by_cases hj : j = v
      · subst hj
        exact .inl (hnone i (hmatching.symm hpairs))
      · omega

theorem join (h : IsStartOf pairing v table) (hmatching : pairing.IsMatching)
    (hpairs : pairing.Pairs v j) (hv : table.Free v) (hj : table.Free j) :
    IsStartOf pairing (v + 1) (table.join v j) := by
  refine ⟨(join_length table v j).trans h.length, fun {a b} => ?_⟩
  rw [join_pairs_iff hv hj (hmatching.ne hpairs), h.pairs]
  constructor
  · rintro (⟨rfl, rfl⟩ | ⟨rfl, rfl⟩ | ⟨hold, hearly⟩)
    · exact ⟨hpairs, by omega⟩
    · exact ⟨hmatching.symm hpairs, by omega⟩
    · exact ⟨hold, by omega⟩
  · rintro ⟨hold, hearly⟩
    by_cases ha : a = v
    · subst ha
      exact .inl ⟨rfl, hold.unique hpairs⟩
    · by_cases hb : b = v
      · subst hb
        exact .inr (.inl ⟨(hmatching.symm hold).unique hpairs, rfl⟩)
      · exact .inr (.inr ⟨hold, by omega⟩)

/-- The turn of a position makes exactly the choice that the first fit has for it. No comparison is
    made that the first fit does not know the outcome of. -/
theorem matchAt (h : IsFirstFit profiles threshold pairing) (hv : v < profiles.length)
    (hstart : IsStartOf pairing v table) :
    ∃ next, matchAt profiles threshold table v = .ok next ∧ IsStartOf pairing (v + 1) next := by
  have hprofile := List.getElem?_eq_getElem hv
  unfold Pairing.matchAt
  rcases free_or_pairs pairing (h.length.symm ▸ hv) with hfree | ⟨j, hpairs⟩
  · have hv' := hstart.free_of_free hfree
    have hsearch := hstart.findPartner?_eq_none h.length hprofile fun k => h.behind hfree
    refine ⟨table, ?_, hstart.succ h.matching fun j hpairs => absurd hpairs hfree.not_pairs⟩
    simp [elementAt_eq_ok_iff.2 hv', elementAt_eq_ok_iff.2 hprofile, hsearch]
  · by_cases hjv : j < v
    · refine ⟨table, ?_, hstart.succ h.matching fun k hk => hk.unique hpairs ▸ hjv⟩
      simp [elementAt_eq_ok_iff.2 (hstart.pairs.2 ⟨hpairs, .inr hjv⟩)]
    · have hvj : v < j := by
        have := h.matching.ne hpairs
        omega
      have hv' := hstart.free_of_pairs hpairs (Nat.le_refl v) hvj.le
      have hj' := hstart.free_of_pairs (h.matching.symm hpairs) hvj.le (Nat.le_refl v)
      have hsearch := hstart.findPartner?_eq_some h.length hprofile (fun k => h.between hpairs) hvj
        hj' (h.symmetric hpairs hvj)
      refine ⟨table.join v j, ?_, hstart.join h.matching hpairs hv' hj'⟩
      simp [elementAt_eq_ok_iff.2 hv', elementAt_eq_ok_iff.2 hprofile, hsearch, Pairing.join]

end IsStartOf

/-- The first fit is what the loop gives, and there is only one. -/
theorem ofProfiles_eq_ok_iff :
    ofProfiles profiles threshold = .ok pairing ↔ IsFirstFit profiles threshold pairing := by
  constructor
  · exact (ofProfiles_ensures_isFirstFit profiles threshold).2 pairing
  · intro h
    have hnone : IsStartOf pairing 0 (List.replicate profiles.length none) := by
      refine ⟨by simp [h.length], fun {i j} => ?_⟩
      simp [replicate_not_pairs]
    obtain ⟨table, htable, hstart⟩ := foldlM_range_eq_ok hnone fun v hv _ hstart =>
      IsStartOf.matchAt h hv hstart
    have heq : table = pairing := by
      apply ext_pairs hstart.length
      intro i j
      rw [hstart.pairs, and_iff_left_iff_imp]
      intro hpairs
      exact .inl (h.length ▸ hpairs.lt_length)
    rw [← heq]
    exact htable

/-- Matching in the order of the positions gives the first fit, which the profiles determine. No two
    clusters that are left without a partner are symmetric, though a cluster without a partner may
    well be symmetric to one that was taken before its turn. -/
theorem ofProfiles_isFirstFit (hfits : NoOverflow (ofProfiles profiles threshold)) :
    ∃ pairing, ofProfiles profiles threshold = .ok pairing ∧
      IsFirstFit profiles threshold pairing ∧
      (∀ i j, pairing.Free i → pairing.Free j → i < j →
        Profile.AsymmetricAt profiles threshold i j) ∧
      ∀ other, IsFirstFit profiles threshold other → other = pairing := by
  obtain ⟨pairing, hpairing, hfirst⟩ :=
    (ofProfiles_ensures_isFirstFit profiles threshold).exists_ok hfits
  refine ⟨pairing, hpairing, hfirst, fun i j => hfirst.asymmetricAt, fun other hother => ?_⟩
  have hsame := hpairing.symm.trans (ofProfiles_eq_ok_iff.2 hother)
  exact (Except.ok.inj hsame).symm

end

/-- Four clusters on one level. The third is as tall as the first and the second, within the
    tolerance, but these two are not as tall as each other. -/
private def staggered : List Profile :=
  [⟨10, 40, 10, 10, 100, .left, 60, 90, 0⟩, ⟨160, 190, 10, 10, 92, .right, 60, 90, 1⟩,
    ⟨160, 190, 10, 10, 96, .right, 60, 90, 2⟩, ⟨10, 40, 10, 10, 100, .left, 60, 90, 3⟩]

/-- The first cluster has to pass over the second and takes the third, so that the second, which
    could have had the third as well, is left alone. -/
theorem ofProfiles_isFirstFit_staggered :
    NoOverflow (ofProfiles staggered (.finite (mkRat 3 5))) ∧
      Profile.SymmetricAt staggered (.finite (mkRat 3 5)) 1 2 ∧
      ∃ pairing : Pairing, ofProfiles staggered (.finite (mkRat 3 5)) = .ok pairing ∧
        pairing = [some 2, none, some 0, none] ∧
        IsFirstFit staggered (.finite (mkRat 3 5)) pairing ∧
        Profile.AsymmetricAt staggered (.finite (mkRat 3 5)) 1 3 := by
  have hrun : ofProfiles staggered (.finite (mkRat 3 5)) = .ok [some 2, none, some 0, none] := by
    decide +kernel
  have hsymmetric : Profile.SymmetricAt staggered (.finite (mkRat 3 5)) 1 2 :=
    ⟨staggered[1], staggered[2], rfl, rfl, by decide +kernel⟩
  have hfits := NoOverflow.of_ok hrun
  obtain ⟨pairing, hpairing, hfirst, hmaximal, -⟩ := ofProfiles_isFirstFit hfits
  obtain rfl := Except.ok.inj (hrun.symm.trans hpairing)
  exact ⟨hfits, hsymmetric, _, hrun, rfl, hfirst, hmaximal 1 3 rfl rfl (by omega)⟩

end Pairing

end ScoreOverlay
