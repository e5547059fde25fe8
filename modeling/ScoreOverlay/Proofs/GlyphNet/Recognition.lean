import Mathlib.Data.List.Induction
import ScoreOverlay.GlyphNet
import ScoreOverlay.Proofs.Labeling.Protocol

namespace ScoreOverlay

variable {Score : Type}

namespace Network

variable {network : Network Score} {scores : List Score} {score : Score} {position : Nat}

/-- The score stands at the position, has the highest rank, and is the last one that has it. -/
structure IsBest (network : Network Score) (scores : List Score) (score : Score) (position : Nat) :
    Prop where
  found : scores[position]? = some score
  highest : ∀ (i : Nat) (other : Score), scores[i]? = some other →
    network.rank other ≤ network.rank score
  last : ∀ (i : Nat) (other : Score), scores[i]? = some other → position < i →
    network.rank other < network.rank score

theorem IsBest.unique {score' : Score} {position' : Nat}
    (h : network.IsBest scores score position) (h' : network.IsBest scores score' position') :
    score = score' ∧ position = position' := by
  have hposition : position = position' := by
    rcases Nat.lt_trichotomy position position' with hlt | heq | hlt
    · have hlast := h.last _ _ h'.found hlt
      have hhighest := h'.highest _ _ h.found
      omega
    · exact heq
    · have hlast := h'.last _ _ h.found hlt
      have hhighest := h.highest _ _ h'.found
      omega
  subst hposition
  exact ⟨Option.some.inj (h.found.symm.trans h'.found), rfl⟩

theorem best?_concat (scores : List Score) (score : Score) :
    network.best? (scores ++ [score]) =
      network.better (network.best? scores) (score, scores.length) := by
  simp [best?, List.zipIdx_append, List.foldl_append]

theorem getElem?_concat_eq_some {other : Score} {i : Nat}
    (h : (scores ++ [score])[i]? = some other) :
    scores[i]? = some other ∨ i = scores.length ∧ other = score := by
  grind

theorem IsBest.singleton (score : Score) : network.IsBest [score] score 0 where
  found := rfl
  highest i other hother := by
    rcases @getElem?_concat_eq_some _ [] _ _ _ hother with hnone | ⟨-, rfl⟩
    · cases hnone
    · exact Nat.le_refl _
  last i other hother hlt := by
    have hlength := (List.getElem?_eq_some_iff.1 hother).1
    rw [List.length_singleton] at hlength
    omega

/-- A score that is not lower than the best one so far takes its place. -/
theorem IsBest.concat {best : Score} (h : network.IsBest scores best position) (score : Score) :
    (network.rank score < network.rank best →
        network.IsBest (scores ++ [score]) best position) ∧
      (network.rank best ≤ network.rank score →
        network.IsBest (scores ++ [score]) score scores.length) := by
  have hinside : position < scores.length := (List.getElem?_eq_some_iff.1 h.found).1
  refine ⟨fun hlow => ⟨?_, fun i other hother => ?_, fun i other hother hlt => ?_⟩,
    fun hhigh => ⟨by simp, fun i other hother => ?_, fun i other hother hlt => ?_⟩⟩
  · rw [List.getElem?_append_left hinside, h.found]
  · rcases getElem?_concat_eq_some hother with hother | ⟨-, rfl⟩
    · exact h.highest i other hother
    · exact hlow.le
  · rcases getElem?_concat_eq_some hother with hother | ⟨-, rfl⟩
    · exact h.last i other hother hlt
    · exact hlow
  · rcases getElem?_concat_eq_some hother with hother | ⟨-, rfl⟩
    · exact (h.highest i other hother).trans hhigh
    · exact Nat.le_refl _
  · have hlength := (List.getElem?_eq_some_iff.1 hother).1
    rw [List.length_append, List.length_singleton] at hlength
    omega

/-- The search over all scores finds the last one of the highest rank, if there are any scores. -/
theorem best?_isBest (network : Network Score) (scores : List Score) :
    (scores = [] ∧ network.best? scores = none) ∨
      ∃ score position, network.best? scores = some (score, position) ∧
        network.IsBest scores score position := by
  induction scores using List.reverseRecOn with
  | nil => exact .inl ⟨rfl, rfl⟩
  | append_singleton scores score ih =>
    rw [best?_concat]
    right
    obtain ⟨rfl, hnone⟩ | ⟨best, position, hsome, hbest⟩ := ih
    · rw [hnone]
      exact ⟨score, 0, rfl, IsBest.singleton score⟩
    · rw [hsome, better]
      by_cases hlow : network.rank score < network.rank best
      · exact ⟨best, position, if_pos hlow, (hbest.concat score).1 hlow⟩
      · exact ⟨score, scores.length, if_neg hlow, (hbest.concat score).2 (Nat.not_lt.1 hlow)⟩

theorem best?_eq_some_iff :
    network.best? scores = some (score, position) ↔ network.IsBest scores score position := by
  obtain ⟨rfl, hnone⟩ | ⟨best, place, hsome, hbest⟩ := network.best?_isBest scores
  · rw [hnone]
    constructor
    · rintro ⟨⟩
    · intro h
      cases h.found
  · rw [hsome]
    constructor
    · rintro ⟨⟩
      exact hbest
    · intro h
      obtain ⟨rfl, rfl⟩ := hbest.unique h
      rfl

end Network

namespace Glyph

variable {kind : PixelKind} {image : Image kind} {style : CropStyle} {g : Glyph}

/-- What a labeled glyph has, apart from its text, is what the glyph had that was asked about. -/
theorem Exchange.Labels.eq_withCharacter {e : Exchange kind} (h : e.Labels g) :
    ∃ c rest, Text.IsFirstLine (c :: rest) e.answer.toList ∧ g = e.glyph.withCharacter c := by
  obtain ⟨hrect, houtline, habsorbed, c, rest, hline, -, htext⟩ := h
  refine ⟨c, rest, hline, ?_⟩
  obtain ⟨outline, absorbed, rect, text⟩ := g
  dsimp only at hrect houtline habsorbed htext
  rw [← String.ofList_toList (s := text), htext, hrect, houtline, habsorbed]
  rfl

/-- Every labeled glyph comes from an exchange about one of the given glyphs. -/
theorem Conducted.exists_exchange {classify : Image kind → Except Error String}
    {glyphs labeled : List Glyph} {held : List (Exchange kind)} {crops : List (Image kind)}
    (h : Conducted classify image style glyphs held crops (.ok labeled)) (hg : g ∈ labeled) :
    ∃ e ∈ held, e.glyph ∈ glyphs ∧ e.Labels g := by
  cases h with
  | finished hasked hshown hlabeled =>
    obtain ⟨i, hi, rfl⟩ := List.mem_iff_getElem.1 hg
    have hi' : i < (held.filter fun e => e.HasCharacter).length := hlabeled.length_eq ▸ hi
    have hheld := (List.mem_filter.1 (List.getElem_mem hi')).1
    have hvisible : (held.filter fun e => e.HasCharacter)[i].glyph ∈ visibleIn image glyphs := by
      rw [hasked]
      exact List.mem_map_of_mem hheld
    exact ⟨_, hheld, (List.mem_filter.1 hvisible).1, hlabeled.get hi' hi⟩

end Glyph

namespace GlyphNet

variable {net : GlyphNet Score} {kind : PixelKind} {image : Image kind}

/-- A net is loaded exactly if the network can be opened and the list of glyphs can be read, and it
    knows the lines of that list. Otherwise the first of the two that fails is reported. -/
theorem load_spec (network : Except String (Network Score))
    (readText : String → Except String String) (keysPath : String) :
    match load network readText keysPath with
    | .error (.runtime reason) => network = .error reason
    | .error (.glyphKeys path reason) =>
      path = keysPath ∧ readText keysPath = .error reason ∧ ∃ opened, network = .ok opened
    | .error _ => False
    | .ok net => network = .ok net.network ∧
      ∃ text, readText keysPath = .ok text ∧
        net.keys.map String.toList = Text.lines text.toList := by
  cases network with
  | error reason => rfl
  | ok opened =>
    cases htext : readText keysPath with
    | error reason =>
      simp [load, htext, Except.mapError, bind, Except.bind]
    | ok text =>
      simp [load, htext, Except.mapError, bind, Except.bind, pure, Except.pure]

/-- The key belongs to the best score of the picture, and that score is not too low. -/
def Recognises (net : GlyphNet Score) (image : Image kind) (key : String) : Prop :=
  ∃ scores score position, net.scores? image = .ok (some scores) ∧
    net.network.IsBest scores score position ∧ net.minScore ≤ net.network.value score ∧
    net.keys[position]? = some key

theorem Recognises.mem_keys {key : String} (h : net.Recognises image key) : key ∈ net.keys := by
  obtain ⟨scores, score, position, -, -, -, hkey⟩ := h
  exact List.mem_of_getElem? hkey

theorem recognises_iff {scores : List Score} {key : String}
    (hscores : net.scores? image = .ok (some scores)) :
    net.Recognises image key ↔ ∃ score position,
      net.network.best? scores = some (score, position) ∧
        net.minScore ≤ net.network.value score ∧ net.keys[position]? = some key := by
  simp only [Recognises, hscores, Except.ok.injEq, Option.some.injEq, Network.best?_eq_some_iff]
  constructor
  · rintro ⟨_, score, position, rfl, h⟩
    exact ⟨score, position, h⟩
  · rintro ⟨score, position, h⟩
    exact ⟨scores, score, position, rfl, h⟩

theorem scores?_eq_error {error : Error} (h : net.scores? image = .error error) :
    ∃ reason, error = .runtime reason ∧
      net.network.run (net.network.resize image net.inputWidth net.inputHeight).levels =
        .error reason := by
  unfold scores? at h
  dsimp only at h
  cases hrun : net.network.run
      (net.network.resize image net.inputWidth net.inputHeight).levels with
  | error reason =>
    rw [hrun] at h
    cases h
    exact ⟨reason, rfl, rfl⟩
  | ok scores =>
    rw [hrun] at h
    cases h

/-- The answer is the key that is recognised, or empty if there is none. Only running the network
    can fail, and its reason is passed on. -/
theorem classify_spec (net : GlyphNet Score) (image : Image kind) :
    match net.classify image with
    | .error error => ∃ reason, error = .runtime reason ∧
        net.network.run (net.network.resize image net.inputWidth net.inputHeight).levels =
          .error reason
    | .ok answer => net.Recognises image answer ∨
        answer = "" ∧ ∀ key, ¬ net.Recognises image key := by
  unfold classify
  cases hscores : net.scores? image with
  | error error => exact scores?_eq_error hscores
  | ok output =>
    cases output with
    | none =>
      refine .inr ⟨rfl, ?_⟩
      rintro key ⟨scores, -, -, hsome, -⟩
      rw [hscores] at hsome
      cases hsome
    | some scores =>
      simp only [recognises_iff hscores]
      cases hbest : net.network.best? scores with
      | none => simp [bind, Except.bind, hbest, pure, Except.pure]
      | some best =>
        obtain ⟨score, position⟩ := best
        by_cases hhigh : net.minScore ≤ net.network.value score
        · cases hkey : net.keys[position]? <;>
            simp [bind, Except.bind, hbest, pure, Except.pure, hhigh, hkey]
        · simp [bind, Except.bind, hbest, pure, Except.pure, hhigh]

theorem not_mem_of_load {network : Except String (Network Score)}
    {readText : String → Except String String} {keysPath : String}
    (h : load network readText keysPath = .ok net) : ∀ key ∈ net.keys, '\n' ∉ key.toList := by
  intro key hkey
  have hspec := load_spec network readText keysPath
  rw [h] at hspec
  obtain ⟨-, text, -, hlines⟩ := hspec
  exact Text.not_mem_of_mem_lines (hlines ▸ List.mem_map_of_mem hkey)

/-- An exchange labels its glyph with the first character of a key. -/
theorem recognises_of_labels {e : Glyph.Exchange kind} {style : CropStyle} {g : Glyph}
    (hkeys : ∀ key ∈ net.keys, '\n' ∉ key.toList)
    (hheld : e.Held net.classify image style) (hlabels : e.Labels g) :
    ∃ key c rest, net.Recognises e.crop key ∧ key.toList = c :: rest ∧
      g = e.glyph.withCharacter c := by
  obtain ⟨c, rest, hline, hg⟩ := hlabels.eq_withCharacter
  have hspec := net.classify_spec e.crop
  rw [hheld.answered] at hspec
  rcases hspec with hrecognised | ⟨hempty, -⟩
  · have hwhole := hline.eq_of_not_mem (hkeys e.answer hrecognised.mem_keys)
    exact ⟨e.answer, c, rest, hrecognised, hwhole.symm, hg⟩
  · rw [hempty] at hline
    cases Text.firstLine?_eq_some_iff.2 hline

/-- A net gives each glyph that it labels the first character of the key that it recognises in the
    glyph's part of the picture. Only running the network can fail. -/
theorem labelAll_recognises {style : CropStyle} {glyphs : List Glyph}
    (hkeys : ∀ key ∈ net.keys, '\n' ∉ key.toList)
    (hfits : (Glyph.labelAll (fun _ crop => net.classify crop) image style glyphs).NoOverflow) :
    match (Glyph.labelAll (fun _ crop => net.classify crop) image style glyphs).outcome with
    | .error failure => ∃ reason, failure = .reported (.runtime reason)
    | .ok labeled => ∀ g ∈ labeled, ∃ found ∈ glyphs, ∃ crop key c rest,
        found.prepared image style = .ok crop ∧ net.Recognises crop key ∧
          key.toList = c :: rest ∧ g = found.withCharacter c := by
  obtain ⟨held, crops, hheld, -, hconducted⟩ := Glyph.labelFrom_conducted hfits
  unfold Glyph.labelAll
  split
  · rename_i failure hfailed
    rw [hfailed] at hconducted
    cases hconducted with
    | @refused _ _ crop error hasked hshown hcrop hrefused =>
      have hspec := net.classify_spec crop
      rw [hrefused] at hspec
      obtain ⟨reason, rfl, -⟩ := hspec
      exact ⟨reason, rfl⟩
  · rename_i labeled hlabeled
    rw [hlabeled] at hconducted
    intro g hg
    obtain ⟨e, he, hfound, hlabels⟩ := hconducted.exists_exchange hg
    obtain ⟨key, c, rest, hrecognises, hkey, hg⟩ :=
      recognises_of_labels hkeys (hheld e he) hlabels
    exact ⟨e.glyph, hfound, e.crop, key, c, rest, (hheld e he).prepared, hrecognises, hkey, hg⟩

end GlyphNet

end ScoreOverlay
