import ScoreOverlay.Proofs.Cluster.Pairing.Height
import ScoreOverlay.Proofs.Cluster.Pairing.Selection

namespace ScoreOverlay

namespace Pairing

variable {profiles : List Profile} {pairing refined : Pairing} {i j v : Nat}

/-- No cluster that has a partner is taller than the one at the position. -/
def IsTallest (profiles : List Profile) (pairing : Pairing) (i : Nat) : Prop :=
  ∀ k l, pairing.Pairs k l → heightAt profiles k ≤ heightAt profiles i

/-- The height that the scan carries may go down as well as up, but it always is the height of a
    cluster that had a partner from the start. -/
theorem tallAt_of_isTallest (h : pairing.IsMatching) (hlength : pairing.length = profiles.length)
    (hv : v ≤ pairing.length) (htallest : IsTallest profiles pairing i) :
    TallAt profiles pairing i j v := by
  intro w hlast
  have hw : w < pairing.length := by
    have := hlast.before
    omega
  obtain ⟨k, hpairs, -⟩ := hlast.stays.exists_tallAt h hlength hw
  exact (htallest w k hpairs).trans (Int.le_max_left _ _)

/-- Both visits of a pair with the tallest cluster find it tall enough. -/
theorem pairs_of_isTallest (h : pairing.IsMatching) (hlength : pairing.length = profiles.length)
    (hrefined : pairing.keepTall profiles = .ok refined) (hpairs : pairing.Pairs i j)
    (htallest : IsTallest profiles pairing i) : refined.Pairs i j := by
  apply ((keepTall_ensures h hlength).2 refined hrefined i j).2
  refine ⟨hpairs, fun v hv => ?_⟩
  have hinside := h.lt_length_of_mem hpairs hv
  exact tallAt_of_isTallest h hlength (by omega) htallest

end Pairing

namespace Cluster

/-- Preferring tall pairs never loses the tallest one. If one of its clusters has the greatest
    height of all that were paired, then both are kept, and so something is left of every matching
    that has a pair. -/
theorem selectSymmetric_keepsTallest {clusters : List Cluster} {frame : Frame}
    {threshold : Binary.Scalar}
    (hfits : NoOverflow (selectSymmetric clusters frame .tallest threshold)) :
    ∃ profiles pairing survivors kept,
      Cluster.profiles (clusters.filter (· ≠ [])) frame = .ok profiles ∧
        Pairing.ofProfiles profiles threshold = .ok pairing ∧
        selectSymmetric clusters frame .tallest threshold = .ok kept ∧
        KeepsPairs (clusters.filter (· ≠ [])) frame threshold pairing survivors kept ∧
        (∀ i j, pairing.Pairs i j → Pairing.IsTallest profiles pairing i →
          i ∈ survivors ∧ j ∈ survivors) ∧
        (kept = [] ↔ ∀ i j, ¬ pairing.Pairs i j) := by
  obtain ⟨kept, hkept, profiles, pairing, refined, hprofiles, hpairing, hrefined, -, hmatches,
    hrefines, hpairs⟩ := (selectSymmetric_refines clusters frame .tallest threshold).exists_ok hfits
  have hstays : ∀ i j, pairing.Pairs i j → Pairing.IsTallest profiles pairing i →
      refined.Pairs i j := by
    intro i j hij hi
    exact Pairing.pairs_of_isTallest hmatches.matching hmatches.length hrefined hij hi
  refine ⟨profiles, pairing, refined.paired, kept, hprofiles, hpairing, hkept, hpairs, ?_, ?_⟩
  · intro i j hij hi
    have hfirst : i ∈ refined.paired := Pairing.mem_paired.2 ⟨j, hstays i j hij hi⟩
    exact ⟨hfirst, (hpairs.whole hij).1 hfirst⟩
  · rw [hpairs.eq_nil_iff]
    constructor
    · intro hnone i j hij
      obtain ⟨k, l, hkl, hk⟩ :=
        Pairing.exists_greatest (Pairing.heightAt profiles) (fun _ _ h => h) hij
      exact hnone k l (hstays k l hkl hk)
    · intro hnone i j hij
      exact hnone i j (hrefines.kept hij)

/-- A tall row and a low one, each with its left cluster in front, so that the two pairs cross. The
    right cluster of the tall row is not quite as tall as its left one. -/
private def crossingRows : List Cluster :=
  [[⟨[], [], ⟨10, 0, 30, 100⟩, "a"⟩], [⟨[], [], ⟨10, 300, 30, 50⟩, "b"⟩], [],
    [⟨[], [], ⟨160, 0, 30, 96⟩, "c"⟩], [⟨[], [], ⟨160, 300, 30, 50⟩, "d"⟩]]

private def crossingProfiles : List Profile :=
  [⟨10, 40, 0, 0, 100, .left, 60, 90, 0⟩, ⟨10, 40, 300, 300, 50, .left, 60, 90, 1⟩,
    ⟨160, 190, 0, 0, 96, .right, 60, 90, 2⟩, ⟨160, 190, 300, 300, 50, .right, 60, 90, 3⟩]

/-- Only the tall row is left. When its right cluster is visited, the height kept is that of the
    left one, which is taller than the cluster visited. -/
theorem selectSymmetric_keepsTallest_crossingRows :
    Pairing.ofProfiles crossingProfiles (.finite (mkRat 3 5)) =
        .ok [some 2, some 3, some 0, some 1] ∧
      Pairing.IsTallest crossingProfiles [some 2, some 3, some 0, some 1] 0 ∧
      ∃ (survivors : List Nat) (kept : List Cluster),
        selectSymmetric crossingRows ⟨200, 500⟩ .tallest (.finite (mkRat 3 5)) = .ok kept ∧
          kept.map (·.map (·.text)) = [["a"], ["c"]] ∧
          kept.map some = survivors.map ((crossingRows.filter (· ≠ []))[·]?) ∧
          0 ∈ survivors ∧ 2 ∈ survivors := by
  have hrun : selectSymmetric crossingRows ⟨200, 500⟩ .tallest (.finite (mkRat 3 5)) =
      .ok [crossingRows[0], crossingRows[3]] := by decide +kernel
  have hprofiled : Cluster.profiles (crossingRows.filter (· ≠ [])) ⟨200, 500⟩ =
      .ok crossingProfiles := by decide +kernel
  have hpaired : Pairing.ofProfiles crossingProfiles (.finite (mkRat 3 5)) =
      .ok [some 2, some 3, some 0, some 1] := by decide +kernel
  have htall : Pairing.IsTallest crossingProfiles [some 2, some 3, some 0, some 1] 0 := by
    have hall : ∀ k < 4, Pairing.heightAt crossingProfiles k ≤
        Pairing.heightAt crossingProfiles 0 := by decide
    exact fun k _ hpairs => hall k hpairs.lt_length
  obtain ⟨profiles, pairing, survivors, kept, hprofiles, hpairing, hkept, hpairs, htallest, -⟩ :=
    selectSymmetric_keepsTallest (NoOverflow.of_ok hrun)
  obtain rfl := Except.ok.inj (hprofiled.symm.trans hprofiles)
  obtain rfl := Except.ok.inj (hpaired.symm.trans hpairing)
  obtain rfl := Except.ok.inj (hrun.symm.trans hkept)
  obtain ⟨hfirst, hsecond⟩ := htallest 0 2 rfl htall
  exact ⟨hpaired, htall, survivors, _, hrun, rfl, hpairs.positions, hfirst, hsecond⟩

end Cluster

end ScoreOverlay
