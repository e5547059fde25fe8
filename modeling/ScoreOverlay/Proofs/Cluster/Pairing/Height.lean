import ScoreOverlay.Proofs.Cluster.Pairing.Refinement
import ScoreOverlay.Proofs.Cluster.Pairing.Safety

namespace ScoreOverlay.Pairing

/-- The state of the scan for tall pairs before it visits the position `v`. -/
def tallState (profiles : List Profile) (pairing : Pairing) (v : Nat) :
    Checked (Option Int × Pairing) :=
  (List.range v).foldlM (keepTallAt profiles) (none, pairing)

/-- The cluster at `w` still has its partner after the scan has visited it. -/
def Stays (profiles : List Profile) (pairing : Pairing) (w : Nat) : Prop :=
  ∃ state k, tallState profiles pairing (w + 1) = .ok state ∧ state.2.Pairs w k

/-- Of the clusters before `v` that still had their partner after their visit, the one at `w` is
    the last. -/
structure StaysLast (profiles : List Profile) (pairing : Pairing) (w v : Nat) : Prop where
  before : w < v
  stays : Stays profiles pairing w
  last : ∀ u, w < u → u < v → ¬ Stays profiles pairing u

/-- One of the clusters at `i` and `j` is at least as tall as the last cluster before `v` that still
    had its partner after its visit, if there is one. -/
def TallAt (profiles : List Profile) (pairing : Pairing) (i j v : Nat) : Prop :=
  ∀ w, StaysLast profiles pairing w v →
    heightAt profiles w ≤ max (heightAt profiles i) (heightAt profiles j)

/-- One of the clusters at `i` and `j` is at least as tall as every cluster before `v` that still
    had its partner after its visit. -/
def TallestAt (profiles : List Profile) (pairing : Pairing) (i j v : Nat) : Prop :=
  ∀ w < v, Stays profiles pairing w →
    heightAt profiles w ≤ max (heightAt profiles i) (heightAt profiles j)

/-- Partners are equally tall. -/
def LevelPairs (profiles : List Profile) (pairing : Pairing) : Prop :=
  ∀ i j, pairing.Pairs i j → heightAt profiles i = heightAt profiles j

variable {profiles : List Profile} {pairing : Pairing} {threshold : Binary.Scalar}

theorem IsMatching.lt_length_of_mem {i j v : Nat} (h : pairing.IsMatching)
    (hpairs : pairing.Pairs i j) (hv : v ∈ [i, j]) : v < pairing.length := by
  rcases List.mem_pair.1 hv with rfl | rfl
  · exact hpairs.lt_length
  · exact (h.symm hpairs).lt_length

theorem TallAt.symm {i j v : Nat} (h : TallAt profiles pairing i j v) :
    TallAt profiles pairing j i v := by
  intro w hw
  rw [Int.max_comm]
  exact h w hw

theorem tallState_succ (profiles : List Profile) (pairing : Pairing) (v : Nat) :
    tallState profiles pairing (v + 1) =
      tallState profiles pairing v >>= fun state => keepTallAt profiles state v := by
  unfold tallState
  simp only [List.range_succ, List.foldlM_append, List.foldlM_cons, List.foldlM_nil, bind_pure]

theorem stays_iff {state : Option Int × Pairing} {v : Nat}
    (h : tallState profiles pairing (v + 1) = .ok state) :
    Stays profiles pairing v ↔ ∃ k, state.2.Pairs v k := by
  constructor
  · rintro ⟨state', k, hstate, hpairs⟩
    rw [h] at hstate
    cases hstate
    exact ⟨k, hpairs⟩
  · rintro ⟨k, hpairs⟩
    exact ⟨state, k, h, hpairs⟩

theorem staysLast_succ_of_stays {v w : Nat} (h : Stays profiles pairing v) :
    StaysLast profiles pairing w (v + 1) ↔ w = v := by
  constructor
  · intro hlast
    by_contra hne
    exact hlast.last v (by have := hlast.before; omega) (by omega) h
  · rintro rfl
    exact ⟨by omega, h, fun u hlow hhigh => by omega⟩

theorem staysLast_succ_of_not_stays {v w : Nat} (h : ¬ Stays profiles pairing v) :
    StaysLast profiles pairing w (v + 1) ↔ StaysLast profiles pairing w v := by
  constructor
  · intro hlast
    have hne : w ≠ v := by
      rintro rfl
      exact h hlast.stays
    exact ⟨by have := hlast.before; omega, hlast.stays,
      fun u hlow hhigh => hlast.last u hlow (by omega)⟩
  · intro hlast
    refine ⟨by have := hlast.before; omega, hlast.stays, fun u hlow hhigh => ?_⟩
    by_cases hu : u = v
    · rwa [hu]
    · exact hlast.last u hlow (by omega)

/-- What holds before the scan visits `v`. The height kept is that of the last cluster that stayed,
    and a pair is left if it was tall enough at each of its positions before `v`. -/
structure Scanned (profiles : List Profile) (pairing : Pairing) (v : Nat)
    (state : Option Int × Pairing) : Prop where
  refines : pairing.Refines state.2
  height : ∀ kept, state.1 = some kept ↔
    ∃ w, StaysLast profiles pairing w v ∧ heightAt profiles w = kept
  pairs : ∀ i j, state.2.Pairs i j ↔
    pairing.Pairs i j ∧ ∀ x ∈ [i, j], x < v → TallAt profiles pairing i j x

theorem Scanned.start (profiles : List Profile) (h : pairing.IsMatching) :
    Scanned profiles pairing 0 (none, pairing) where
  refines := Refines.refl h
  height kept := by
    constructor
    · rintro ⟨⟩
    · rintro ⟨w, hlast, -⟩
      exact absurd hlast.before (Nat.not_lt_zero w)
  pairs i j := by simp

namespace Scanned

variable {v : Nat} {state next : Option Int × Pairing}

theorem isMatching (h : Scanned profiles pairing v state) : state.2.IsMatching :=
  h.refines.matching

/-- The height that is kept bounds that of the last cluster that stayed. -/
theorem tallAt_iff (h : Scanned profiles pairing v state) (i j : Nat) :
    TallAt profiles pairing i j v ↔
      ∀ kept, state.1 = some kept → kept ≤ max (heightAt profiles i) (heightAt profiles j) := by
  constructor
  · intro htall kept hkept
    obtain ⟨w, hlast, rfl⟩ := (h.height kept).1 hkept
    exact htall w hlast
  · intro hkept w hlast
    exact hkept _ ((h.height _).2 ⟨w, hlast, rfl⟩)

/-- One turn only looks at the pair of the position it visits. -/
theorem pairs_succ (h : Scanned profiles pairing v state)
    (hnext : ∀ i j, next.2.Pairs i j ↔
      state.2.Pairs i j ∧ (v ∈ [i, j] → TallAt profiles pairing i j v)) (i j : Nat) :
    next.2.Pairs i j ↔
      pairing.Pairs i j ∧ ∀ x ∈ [i, j], x < v + 1 → TallAt profiles pairing i j x := by
  rw [hnext, h.pairs, and_assoc]
  refine and_congr_right fun _ => ⟨?_, ?_⟩
  · rintro ⟨hbefore, hvisited⟩ x hx hlt
    by_cases heq : x = v
    · subst heq
      exact hvisited hx
    · exact hbefore x hx (by omega)
  · intro hall
    exact ⟨fun x hx hlt => hall x hx (by omega), fun hv => hall v hv (by omega)⟩

theorem height_succ_of_not_stays (h : Scanned profiles pairing v state)
    (hgone : ¬ Stays profiles pairing v) (kept : Int) :
    state.1 = some kept ↔
      ∃ w, StaysLast profiles pairing w (v + 1) ∧ heightAt profiles w = kept := by
  simp only [staysLast_succ_of_not_stays hgone]
  exact h.height kept

/-- Of a pair with a member at the visited position the other member is its partner. -/
theorem eq_or_eq_of_mem (h : Scanned profiles pairing v state) {i j k : Nat}
    (hvisited : state.2.Pairs v k) (hpairs : state.2.Pairs i j) (hmem : v ∈ [i, j]) :
    (i = v ∧ j = k) ∨ (i = k ∧ j = v) := by
  rcases List.mem_pair.1 hmem with rfl | rfl
  · exact .inl ⟨rfl, hpairs.unique hvisited⟩
  · exact .inr ⟨(h.isMatching.symm hpairs).unique hvisited, rfl⟩

/-- A position without a partner is passed over. -/
theorem pass (h : Scanned profiles pairing v state)
    (hnext : tallState profiles pairing (v + 1) = .ok state) (hfree : state.2.Free v) :
    Scanned profiles pairing (v + 1) state := by
  have hnone : ∀ k, ¬ state.2.Pairs v k := fun _ => hfree.not_pairs
  have hgone : ¬ Stays profiles pairing v := by
    rw [stays_iff hnext]
    exact not_exists.2 hnone
  refine ⟨h.refines, h.height_succ_of_not_stays hgone, h.pairs_succ fun i j => ?_⟩
  refine (and_iff_left_of_imp fun hpairs hmem => ?_).symm
  rcases List.mem_pair.1 hmem with rfl | rfl
  · exact absurd hpairs (hnone j)
  · exact absurd (h.isMatching.symm hpairs) (hnone i)

/-- A pair that is too short is taken apart. -/
theorem takeApart {k : Nat} {kept : Int} (h : Scanned profiles pairing v state)
    (hnext : tallState profiles pairing (v + 1) = .ok (state.1, state.2.part v k))
    (hvisited : state.2.Pairs v k) (hkept : state.1 = some kept)
    (hshort : max (heightAt profiles v) (heightAt profiles k) < kept) :
    Scanned profiles pairing (v + 1) (state.1, state.2.part v k) := by
  have hgone : ¬ Stays profiles pairing v := by
    rw [stays_iff hnext]
    rintro ⟨j, hpairs⟩
    exact (part_pairs_iff.1 hpairs).2.1 rfl
  have hlow : ¬ TallAt profiles pairing v k v := by
    rw [h.tallAt_iff]
    intro htall
    have := htall kept hkept
    omega
  refine ⟨h.refines.trans (part_refines h.isMatching hvisited),
    h.height_succ_of_not_stays hgone, h.pairs_succ fun i j => ?_⟩
  rw [part_pairs_iff]
  refine and_congr_right fun hpairs => ⟨?_, fun htall => ⟨?_, ?_⟩⟩
  · rintro ⟨hiv, hik⟩ hmem
    rcases h.eq_or_eq_of_mem hvisited hpairs hmem with ⟨hi, -⟩ | ⟨hi, -⟩
    · exact absurd hi hiv
    · exact absurd hi hik
  · rintro rfl
    obtain rfl := hpairs.unique hvisited
    exact hlow (htall (by simp))
  · rintro rfl
    obtain rfl := hpairs.unique (h.isMatching.symm hvisited)
    exact hlow (htall (by simp)).symm

/-- The height of a cluster that stays takes the place of the one kept before. -/
theorem stay {k : Nat} (h : Scanned profiles pairing v state)
    (hnext : tallState profiles pairing (v + 1) = .ok (some (heightAt profiles v), state.2))
    (hvisited : state.2.Pairs v k)
    (htall : ∀ kept, state.1 = some kept →
      kept ≤ max (heightAt profiles v) (heightAt profiles k)) :
    Scanned profiles pairing (v + 1) (some (heightAt profiles v), state.2) := by
  have hstays : Stays profiles pairing v := (stays_iff hnext).2 ⟨k, hvisited⟩
  refine ⟨h.refines, fun kept => ?_, h.pairs_succ fun i j => ?_⟩
  · simp only [staysLast_succ_of_stays hstays]
    simp
  · refine (and_iff_left_of_imp fun hpairs hmem => ?_).symm
    have hvisitedTall := (h.tallAt_iff v k).2 htall
    rcases h.eq_or_eq_of_mem hvisited hpairs hmem with ⟨rfl, rfl⟩ | ⟨rfl, rfl⟩
    · exact hvisitedTall
    · exact hvisitedTall.symm

theorem visit (h : Scanned profiles pairing v state) (hlength : pairing.length = profiles.length)
    (hstate : tallState profiles pairing v = .ok state) (hv : v < pairing.length) :
    Ensures (keepTallAt profiles state v) (Scanned profiles pairing (v + 1)) := by
  refine (keepTallAt_ensures h.isMatching (h.refines.length.trans hlength)
    (h.refines.length ▸ hv)).with_ok.imp ?_
  rintro next ⟨hturn, hcases⟩
  have hnext : tallState profiles pairing (v + 1) = .ok next := by
    rw [tallState_succ, hstate, ok_bind]
    exact hturn
  rcases hcases with ⟨hfree, rfl⟩ | ⟨k, hvisited, ⟨kept, hkept, hshort, rfl⟩ | ⟨htall, rfl⟩⟩
  · exact h.pass hnext hfree
  · exact h.takeApart hnext hvisited hkept hshort
  · exact h.stay hnext hvisited htall

end Scanned

theorem tallState_ensures (h : pairing.IsMatching) (hlength : pairing.length = profiles.length)
    {v : Nat} (hv : v ≤ pairing.length) :
    Ensures (tallState profiles pairing v) (Scanned profiles pairing v) := by
  induction v with
  | zero => exact Ensures.pure (Scanned.start profiles h)
  | succ v ih =>
    rw [tallState_succ]
    exact (ih (by omega)).with_ok.bind fun state hstate => hstate.2.visit hlength hstate.1 hv

/-- A cluster that keeps its partner is in a pair that is tall enough when it is visited. -/
theorem Stays.exists_tallAt {v : Nat} (h : pairing.IsMatching)
    (hlength : pairing.length = profiles.length) (hv : v < pairing.length)
    (hstays : Stays profiles pairing v) :
    ∃ j, pairing.Pairs v j ∧ TallAt profiles pairing v j v := by
  obtain ⟨state, j, hstate, hpairs⟩ := hstays
  have hscanned := (tallState_ensures h hlength hv).2 state hstate
  obtain ⟨hformed, htall⟩ := (hscanned.pairs v j).1 hpairs
  exact ⟨j, hformed, htall v (by simp) (by omega)⟩

/-- Behind a cluster that stays there is a last one that does. -/
theorem Stays.exists_staysLast {w v : Nat} (hstays : Stays profiles pairing w) (hwv : w < v) :
    ∃ u, StaysLast profiles pairing u v ∧ w ≤ u := by
  induction v with
  | zero => exact absurd hwv (Nat.not_lt_zero w)
  | succ v ih =>
    by_cases hv : Stays profiles pairing v
    · exact ⟨v, (staysLast_succ_of_stays hv).2 rfl, by omega⟩
    · have hne : w ≠ v := by
        rintro rfl
        exact hv hstays
      obtain ⟨u, hlast, hwu⟩ := ih (by omega)
      exact ⟨u, (staysLast_succ_of_not_stays hv).2 hlast, hwu⟩

/-- Without a difference between partners the height that is kept never decreases. -/
theorem LevelPairs.heightAt_le (hlevel : LevelPairs profiles pairing) (h : pairing.IsMatching)
    (hlength : pairing.length = profiles.length) {w v : Nat} (hv : v < pairing.length)
    (hwv : w < v) (hw : Stays profiles pairing w) (hstays : Stays profiles pairing v) :
    heightAt profiles w ≤ heightAt profiles v := by
  induction v using Nat.strongRecOn with
  | ind v ih =>
    obtain ⟨u, hlast, hwu⟩ := hw.exists_staysLast hwv
    obtain ⟨j, hpairs, htall⟩ := hstays.exists_tallAt h hlength hv
    have huv := htall u hlast
    rw [← hlevel v j hpairs, Int.max_self] at huv
    by_cases heq : w = u
    · rwa [heq]
    · have := hlast.before
      exact (ih u hlast.before (by omega) (by omega) hlast.stays).trans huv

theorem LevelPairs.tallestAt_iff (hlevel : LevelPairs profiles pairing) (h : pairing.IsMatching)
    (hlength : pairing.length = profiles.length) {i j v : Nat} (hv : v ≤ pairing.length) :
    TallestAt profiles pairing i j v ↔ TallAt profiles pairing i j v := by
  constructor
  · intro htallest w hlast
    exact htallest w hlast.before hlast.stays
  · intro htall w hwv hw
    obtain ⟨u, hlast, hwu⟩ := hw.exists_staysLast hwv
    have hu := htall u hlast
    have := hlast.before
    by_cases heq : w = u
    · rwa [heq]
    · exact (hlevel.heightAt_le h hlength (by omega) (by omega) hw hlast.stays).trans hu

theorem keepTall_ensures (h : pairing.IsMatching) (hlength : pairing.length = profiles.length) :
    Ensures (pairing.keepTall profiles) fun refined => ∀ i j, refined.Pairs i j ↔
      pairing.Pairs i j ∧ ∀ v ∈ [i, j], TallAt profiles pairing i j v := by
  refine (tallState_ensures h hlength (Nat.le_refl _)).bind fun state hstate => Ensures.pure ?_
  intro i j
  rw [hstate.pairs]
  exact and_congr_right fun hpairs => forall₂_congr fun v hv =>
    imp_iff_right (h.lt_length_of_mem hpairs hv)

/-- Which pairs the scan for tall pairs leaves. It carries the height of the cluster that stayed
    last, not of the tallest one, so a pair is left if and only if it is tall enough at both its
    positions by that measure. Where partners are equally tall the two measures are the same. -/
theorem keepTall_pairs_iff (hpairing : ofProfiles profiles threshold = .ok pairing) :
    ∃ refined, pairing.keepTall profiles = .ok refined ∧
      (∀ i j, refined.Pairs i j ↔
        pairing.Pairs i j ∧ ∀ v ∈ [i, j], TallAt profiles pairing i j v) ∧
      (LevelPairs profiles pairing → ∀ i j, refined.Pairs i j ↔
        pairing.Pairs i j ∧ ∀ v ∈ [i, j], TallestAt profiles pairing i j v) := by
  have hmatches := (ofProfiles_ensures profiles threshold).2 pairing hpairing
  obtain ⟨refined, hrefined, hpairs⟩ := (keepTall_ensures hmatches.matching
    hmatches.length).exists_ok (keepTall_noOverflow profiles pairing)
  refine ⟨refined, hrefined, hpairs, fun hlevel i j => ?_⟩
  rw [hpairs]
  refine and_congr_right fun hformed => forall₂_congr fun v hv => ?_
  have hinside := hmatches.matching.lt_length_of_mem hformed hv
  exact (hlevel.tallestAt_iff hmatches.matching hmatches.length (Nat.le_of_lt hinside)).symm

/-- Two clusters at one level that mirror each other, of the given heights. -/
private def row (level left right : Int) : List Profile :=
  [⟨10, 40, level, level, left, .left, 60, 90, 0⟩,
    ⟨160, 190, level, level, right, .right, 60, 90, 1⟩]

/-- A low row between two tall ones. -/
private def rows : List Profile := row 0 60 60 ++ row 100 40 40 ++ row 200 60 60

/-- Only the low row is taken apart. Partners are equally tall, so each row left is as tall as any
    row before it that is left. -/
theorem keepTall_pairs_iff_rows :
    keepTall rows [some 1, some 0, some 3, some 2, some 5, some 4] =
        .ok [some 1, some 0, none, none, some 5, some 4] ∧
      ∀ v ∈ [4, 5], TallestAt rows [some 1, some 0, some 3, some 2, some 5, some 4] 4 5 v := by
  have hpairing : ofProfiles rows (.finite (mkRat 3 5)) =
      .ok [some 1, some 0, some 3, some 2, some 5, some 4] := by decide +kernel
  have hrun : keepTall rows [some 1, some 0, some 3, some 2, some 5, some 4] =
      .ok [some 1, some 0, none, none, some 5, some 4] := by decide +kernel
  have hlevel : LevelPairs rows [some 1, some 0, some 3, some 2, some 5, some 4] := by
    intro i j hpairs
    have hall : ∀ i < 6, ∀ partner ∈ [some 1, some 0, some 3, some 2, some 5, some 4][i]?.join,
        heightAt rows i = heightAt rows partner := by decide +kernel
    exact hall i hpairs.lt_length j (Option.join_eq_some_iff.2 hpairs)
  obtain ⟨refined, hrefined, -, htallest⟩ := keepTall_pairs_iff hpairing
  rw [hrun] at hrefined
  cases hrefined
  exact ⟨hrun, ((htallest hlevel 4 5).1 rfl).2⟩

/-- Two rows. The left cluster of the upper one is the tallest of all, but the scan goes on with the
    height of its partner, and the lower row is not shorter than that. -/
private def slopingRows : List Profile := row 0 100 96 ++ row 300 98 98

/-- A pair can stay although both its members are shorter than a cluster that stayed before them. -/
theorem keepTall_keeps_shorter :
    ¬ ∀ (profiles : List Profile) (threshold : Binary.Scalar) (pairing refined : Pairing)
        (i j : Nat),
      ofProfiles profiles threshold = .ok pairing → pairing.keepTall profiles = .ok refined →
      refined.Pairs i j → ∀ v ∈ [i, j], TallestAt profiles pairing i j v := by
  intro hclaim
  have hstays : Stays slopingRows [some 1, some 0, some 3, some 2] 0 :=
    ⟨(some 100, [some 1, some 0, some 3, some 2]), 1, by decide +kernel, rfl⟩
  have htallest := hclaim slopingRows (.finite (mkRat 3 5)) [some 1, some 0, some 3, some 2]
    [some 1, some 0, some 3, some 2] 2 3 (by decide +kernel) (by decide +kernel) rfl 2 (by simp)
  exact absurd (htallest 0 (by omega) hstays) (by decide)

end ScoreOverlay.Pairing
