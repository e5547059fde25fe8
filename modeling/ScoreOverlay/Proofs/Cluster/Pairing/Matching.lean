import ScoreOverlay.Proofs.Cluster.Profile

namespace ScoreOverlay

namespace Profile

/-- The profiles at two positions are symmetric. -/
def SymmetricAt (profiles : List Profile) (threshold : Binary.Scalar) (i j : Nat) : Prop :=
  ∃ p q, profiles[i]? = some p ∧ profiles[j]? = some q ∧ p.symmetricTo q threshold = .ok true

end Profile

namespace Pairing

/-- The position `j` is the partner of `i`. -/
def Pairs (pairing : Pairing) (i j : Nat) : Prop := pairing[i]? = some (some j)

/-- The position has no partner. -/
def Free (pairing : Pairing) (i : Nat) : Prop := pairing[i]? = some none

/-- Partners are partners of each other, and nothing is its own partner. -/
structure IsMatching (pairing : Pairing) : Prop where
  ne : ∀ {i j}, pairing.Pairs i j → i ≠ j
  symm : ∀ {i j}, pairing.Pairs i j → pairing.Pairs j i

theorem Pairs.lt_length {pairing : Pairing} {i j : Nat} (h : pairing.Pairs i j) :
    i < pairing.length :=
  (List.getElem?_eq_some_iff.1 h).1

theorem Pairs.unique {pairing : Pairing} {i j k : Nat} (h : pairing.Pairs i j)
    (h' : pairing.Pairs i k) : j = k :=
  Option.some.inj (Option.some.inj ((Eq.symm h).trans h'))

theorem Free.lt_length {pairing : Pairing} {i : Nat} (h : pairing.Free i) : i < pairing.length :=
  (List.getElem?_eq_some_iff.1 h).1

theorem Free.not_pairs {pairing : Pairing} {i j : Nat} (h : pairing.Free i) :
    ¬ pairing.Pairs i j := by
  intro hpairs
  cases h.symm.trans hpairs

theorem free_or_pairs (pairing : Pairing) {i : Nat} (h : i < pairing.length) :
    pairing.Free i ∨ ∃ j, pairing.Pairs i j := by
  have hpartner := List.getElem?_eq_getElem h
  cases hcase : pairing[i] with
  | none => exact .inl (hpartner.trans (congrArg some hcase))
  | some j => exact .inr ⟨j, hpartner.trans (congrArg some hcase)⟩

/-- A table is known by its length and its pairs. -/
theorem ext_pairs {table pairing : Pairing} (hlength : table.length = pairing.length)
    (hpairs : ∀ i j, table.Pairs i j ↔ pairing.Pairs i j) : table = pairing := by
  apply List.ext_getElem hlength
  intro i hi hi'
  apply Option.ext
  intro j
  have hij := hpairs i j
  unfold Pairs at hij
  rw [List.getElem?_eq_getElem hi, List.getElem?_eq_getElem hi'] at hij
  simpa using hij

theorem replicate_not_pairs (n : Nat) {i j : Nat} : ¬ Pairs (List.replicate n none) i j := by
  unfold Pairs
  rw [List.getElem?_replicate]
  split <;> simp

theorem free_of_not_isSome {pairing : Pairing} {i : Nat} {partner? : Option Nat}
    (h : pairing[i]? = some partner?) (hnone : ¬ partner?.isSome = true) : pairing.Free i := by
  cases partner? with
  | none => exact h
  | some j => exact absurd rfl hnone

/-- The table after two free positions have become partners. -/
def join (pairing : Pairing) (i j : Nat) : Pairing := (pairing.set i (some j)).set j (some i)

@[simp] theorem join_length (pairing : Pairing) (i j : Nat) :
    (pairing.join i j).length = pairing.length := by
  simp [join]

/-- Joining two free positions adds one pair and keeps the others. -/
theorem join_pairs_iff {pairing : Pairing} {i j a b : Nat} (hi : pairing.Free i)
    (hj : pairing.Free j) (hne : i ≠ j) :
    (pairing.join i j).Pairs a b ↔
      (a = i ∧ b = j) ∨ (a = j ∧ b = i) ∨ pairing.Pairs a b := by
  have hi' := hi.lt_length
  have hj' := hj.lt_length
  unfold Pairs join
  unfold Free at hi hj
  rw [List.getElem?_set, List.getElem?_set, List.length_set]
  grind

theorem IsMatching.join {pairing : Pairing} {i j : Nat} (h : pairing.IsMatching)
    (hi : pairing.Free i) (hj : pairing.Free j) (hne : i ≠ j) : (pairing.join i j).IsMatching := by
  constructor
  · intro a b hpairs
    rcases (join_pairs_iff hi hj hne).1 hpairs with ⟨rfl, rfl⟩ | ⟨rfl, rfl⟩ | hold
    · exact hne
    · exact hne.symm
    · exact h.ne hold
  · intro a b hpairs
    refine (join_pairs_iff hi hj hne).2 ?_
    rcases (join_pairs_iff hi hj hne).1 hpairs with ⟨rfl, rfl⟩ | ⟨rfl, rfl⟩ | hold
    · exact .inr (.inl ⟨rfl, rfl⟩)
    · exact .inl ⟨rfl, rfl⟩
    · exact .inr (.inr (h.symm hold))

/-- The search for a partner of `i` passes over `j`: either it has a partner or the profiles are not
    symmetric. -/
def Skips (profiles : List Profile) (threshold : Binary.Scalar) (pairing : Pairing) (i j : Nat) :
    Prop :=
  (∃ k, pairing.Pairs j k) ∨
    ∃ p q, profiles[i]? = some p ∧ profiles[j]? = some q ∧ p.symmetricTo q threshold = .ok false

section Search

variable {profiles : List Profile} {threshold : Binary.Scalar} {pairing : Pairing}
  {profile : Profile} {i : Nat}

private theorem candidate_ensures (hlength : pairing.length = profiles.length)
    (hprofile : profiles[i]? = some profile) {j : Nat} (hj : j < profiles.length) :
    Ensures
      (do
        if (← elementAt pairing j).isSome then return false
        profile.symmetricTo (← elementAt profiles j) threshold)
      fun answer =>
        if answer then pairing.Free j ∧ Profile.SymmetricAt profiles threshold i j
        else Skips profiles threshold pairing i j := by
  refine (Ensures.elementAt (hlength ▸ hj)).bind fun partner? hpartner => ?_
  refine Ensures.ite (fun htaken => Ensures.pure ?_) fun hfree => ?_
  · obtain ⟨k, rfl⟩ := Option.isSome_iff_exists.1 htaken
    exact .inl ⟨k, hpartner⟩
  · refine (Ensures.elementAt hj).bind fun other hother => ?_
    refine ⟨Profile.symmetricTo_inBounds _ _ _, fun answer hanswer => ?_⟩
    cases answer with
    | true =>
      exact ⟨free_of_not_isSome hpartner hfree, profile, other, hprofile, hother, hanswer⟩
    | false => exact .inr ⟨profile, other, hprofile, hother, hanswer⟩

/-- The search finds the first free position behind `i` with a symmetric profile, or there is
    none. -/
theorem findPartner?_ensures (hlength : pairing.length = profiles.length)
    (hprofile : profiles[i]? = some profile) :
    Ensures (pairing.findPartner? profiles threshold profile
        (List.range' (i + 1) (profiles.length - (i + 1))))
      fun partner? => match partner? with
        | none => ∀ j, i < j → j < profiles.length → Skips profiles threshold pairing i j
        | some j => i < j ∧ pairing.Free j ∧ Profile.SymmetricAt profiles threshold i j ∧
            ∀ k, i < k → k < j → Skips profiles threshold pairing i k := by
  have hinside : ∀ j ∈ List.range' (i + 1) (profiles.length - (i + 1)), j < profiles.length := by
    intro j hj
    rw [List.mem_range'_1] at hj
    omega
  refine ⟨InBounds.findM? fun j hj => (candidate_ensures hlength hprofile (hinside j hj)).1, ?_⟩
  intro partner? hpartner
  have hsearch := findM?_eq_ok hpartner
  cases partner? with
  | none =>
    intro j hij hj
    exact (candidate_ensures hlength hprofile hj).2 false
      (hsearch j (List.mem_range'_1.2 ⟨by omega, by omega⟩))
  | some j =>
    obtain ⟨before, after, hrange, hbefore, hfound⟩ := hsearch
    have hmem : j ∈ List.range' (i + 1) (profiles.length - (i + 1)) := by simp [hrange]
    have hj := hinside j hmem
    obtain ⟨hfree, hsymmetric⟩ := (candidate_ensures hlength hprofile hj).2 true hfound
    refine ⟨by rw [List.mem_range'_1] at hmem; omega, hfree, hsymmetric, fun k hik hkj => ?_⟩
    have hk : k ∈ before ++ j :: after := by
      rw [← hrange]
      exact List.mem_range'_1.2 ⟨by omega, by omega⟩
    have hsorted : (before ++ j :: after).Pairwise (· < ·) := hrange ▸ List.pairwise_lt_range'
    rcases List.mem_append.1 hk with hk | hk
    · exact (candidate_ensures hlength hprofile (by omega)).2 false (hbefore k hk)
    · have hlater := List.pairwise_cons.1 (List.pairwise_append.1 hsorted).2.1
      rcases List.mem_cons.1 hk with rfl | hk
      · omega
      · have := hlater.1 k hk
        omega

/-- Everything that one turn of the matching can do. A position with a partner is passed over, and
    a free one is joined with the first free one behind it that is symmetric, if there is one. -/
theorem matchAt_ensures (hlength : pairing.length = profiles.length) (hi : i < profiles.length) :
    Ensures (matchAt profiles threshold pairing i) fun next =>
      (next = pairing ∧ ∃ k, pairing.Pairs i k) ∨
        (next = pairing ∧ pairing.Free i ∧
          ∀ j, i < j → j < profiles.length → Skips profiles threshold pairing i j) ∨
        ∃ j, next = pairing.join i j ∧ i < j ∧ pairing.Free i ∧ pairing.Free j ∧
          Profile.SymmetricAt profiles threshold i j ∧
          ∀ k, i < k → k < j → Skips profiles threshold pairing i k := by
  refine (Ensures.elementAt (hlength ▸ hi)).bind fun partner? hpartner => ?_
  refine Ensures.ite (fun htaken => Ensures.pure ?_) fun hfree => ?_
  · obtain ⟨k, rfl⟩ := Option.isSome_iff_exists.1 htaken
    exact .inl ⟨rfl, k, hpartner⟩
  · have hi' := free_of_not_isSome hpartner hfree
    refine (Ensures.elementAt hi).bind fun profile hprofile => ?_
    refine (findPartner?_ensures hlength hprofile).bind fun found hfound => ?_
    cases found with
    | none => exact Ensures.pure (.inr (.inl ⟨rfl, hi', hfound⟩))
    | some j =>
      obtain ⟨hij, hj, hsymmetric, hskips⟩ := hfound
      exact Ensures.pure (.inr (.inr ⟨j, rfl, hij, hi', hj, hsymmetric, hskips⟩))

end Search

/-- The table is a matching of the positions of the profiles, and each pair is symmetric as seen
    from its first position. -/
structure Matches (profiles : List Profile) (threshold : Binary.Scalar) (pairing : Pairing) :
    Prop where
  length : pairing.length = profiles.length
  matching : pairing.IsMatching
  symmetric : ∀ {i j}, pairing.Pairs i j → i < j → Profile.SymmetricAt profiles threshold i j

theorem Matches.start (profiles : List Profile) (threshold : Binary.Scalar) :
    Matches profiles threshold (List.replicate profiles.length none) where
  length := List.length_replicate
  matching.ne h := absurd h (replicate_not_pairs _)
  matching.symm h := absurd h (replicate_not_pairs _)
  symmetric h := absurd h (replicate_not_pairs _)

theorem Matches.matchAt {profiles : List Profile} {threshold : Binary.Scalar} {pairing : Pairing}
    {i : Nat} (h : Matches profiles threshold pairing) (hi : i < profiles.length) :
    Ensures (matchAt profiles threshold pairing i) (Matches profiles threshold) := by
  refine (matchAt_ensures h.length hi).imp ?_
  rintro next (⟨rfl, -⟩ | ⟨rfl, -, -⟩ | ⟨j, rfl, hij, hi', hj', hsymmetric, -⟩)
  · exact h
  · exact h
  · refine ⟨by simp [h.length], h.matching.join hi' hj' (by omega), ?_⟩
    intro a b hpairs hab
    rcases (join_pairs_iff hi' hj' (by omega)).1 hpairs with ⟨rfl, rfl⟩ | ⟨rfl, rfl⟩ | hold
    · exact hsymmetric
    · omega
    · exact h.symmetric hold hab

/-- Matching gives a partial involution without fixed points whose pairs are symmetric. -/
theorem ofProfiles_ensures (profiles : List Profile) (threshold : Binary.Scalar) :
    Ensures (ofProfiles profiles threshold) (Matches profiles threshold) :=
  Ensures.foldlM (Matches.start profiles threshold) fun _ h _ hi =>
    h.matchAt (List.mem_range.1 hi)

end Pairing

end ScoreOverlay
