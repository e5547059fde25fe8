import Mathlib.Tactic.Ring
import ScoreOverlay.Geometry.Outline.Simplify
import ScoreOverlay.Proofs.Binary.Accuracy

namespace ScoreOverlay

open Binary (binary64)

variable {x y dx dy dot cross length size root : Rat}

/-- If the computed foot of a point lies between the ends of a segment, the point has little room
    beyond them. -/
private theorem dot_bounds {dot' length' : Rat} (hlength : 1 ≤ length)
    (hlength' : |length' - length| ≤ length / 2 ^ 51) (hdot : |dot' - dot| ≤ size)
    (hpos : 0 < binary64.round (dot' / length')) (hone : binary64.round (dot' / length') < 1) :
    -size ≤ dot ∧ dot ≤ length + length / 2 ^ 49 + size := by
  rw [abs_le] at hlength' hdot
  have hlengthPos : 0 < length' := by linarith
  have hratio : 0 < dot' / length' := Binary.Format.pos_of_round_pos hpos
  have hround := (abs_le.1 (Binary.abs_binary64_round_sub_le (dot' / length'))).1
  rw [abs_of_pos hratio] at hround
  have hratio' : dot' / length' ≤ 1 + 1 / 2 ^ 51 := by linarith
  have hlow := mul_pos hratio hlengthPos
  have hhigh := mul_le_mul_of_nonneg_right hratio' hlengthPos.le
  rw [div_mul_cancel₀ _ hlengthPos.ne'] at hlow hhigh
  constructor <;> linarith

/-- If the computed distance of a point from the line through a segment is at most three, then the
    part across the segment is short. -/
private theorem sq_cross_le {cross' length' : Rat} (hlength : 1 ≤ length)
    (hlarge : length ≤ 2 ^ 65) (hlength' : |length' - length| ≤ length / 2 ^ 51)
    (hcross : |cross' - cross| ≤ size) (hsize : size ^ 2 ≤ length / 2 ^ 30)
    (hroot : 0 ≤ root ∧ root ≤ 2 * length) (hsquare : length ≤ (1 + 1 / 2 ^ 50) * root ^ 2)
    (h : binary64.round (|binary64.round (cross' / length')| * root) ≤ 3) :
    cross ^ 2 ≤ 10 * length := by
  rw [abs_le] at hlength'
  have hlengthPos : 0 < length' := by linarith
  -- Without the two roundings the distance is hardly more than three.
  have houter := (abs_le.1 (Binary.abs_binary64_round_sub_le
    (|binary64.round (cross' / length')| * root))).1
  rw [abs_of_nonneg (mul_nonneg (abs_nonneg _) hroot.1)] at houter
  have hinner : (1 - 1 / 2 ^ 53) * |cross' / length'| - 1 / 2 ^ 100 ≤
      |binary64.round (cross' / length')| := by
    have := abs_sub_abs_le_abs_sub (cross' / length') (binary64.round (cross' / length'))
    have := Binary.abs_binary64_round_sub_le (cross' / length')
    rw [abs_sub_comm] at this
    linarith
  have hproduct := mul_le_mul_of_nonneg_right hinner hroot.1
  have hpart : |cross' / length'| * root ≤ 3 + 1 / 1000 := by linarith
  have hcomputed : |cross'| * root ≤ (3 + 1 / 500) * length :=
    calc |cross'| * root = |cross' / length'| * root * length' := by
          rw [abs_div, abs_of_pos hlengthPos]
          field_simp
      _ ≤ (3 + 1 / 1000) * length' := by gcongr
      _ ≤ (3 + 1 / 500) * length := by linarith
  have hcross' : cross' ^ 2 ≤ 19 / 2 * length := by
    have := pow_le_pow_left₀ (mul_nonneg (abs_nonneg _) hroot.1) hcomputed 2
    rw [mul_pow, sq_abs] at this
    have hscaled : cross' ^ 2 * length ≤ 19 / 2 * length * length := by
      nlinarith [mul_le_mul_of_nonneg_left hsquare (sq_nonneg cross')]
    exact le_of_mul_le_mul_right hscaled (by linarith)
  have hexact : |cross| ≤ |cross'| + size := by
    have := abs_sub_abs_le_abs_sub cross cross'
    rw [abs_sub_comm] at this
    linarith
  have hfinal := pow_le_pow_left₀ (abs_nonneg _) hexact 2
  rw [← sq_abs cross'] at hcross'
  rw [sq_abs] at hfinal
  nlinarith [sq_nonneg (|cross'| - 2 ^ 10 * size)]

/-- One coordinate of a point as seen from the start of a segment, from the parts along and across
    the segment. -/
private theorem side_near (hlength : length = dx ^ 2 + dy ^ 2) (hpos : 0 < length)
    (hx : length * x = dx * dot + dy * cross) (hdx : |dx| ≤ 2 ^ 32)
    (hcross : cross ^ 2 ≤ 10 * length) (hlow : -((|dx| + |dy|) / 2 ^ 19) ≤ dot)
    (hhigh : dot ≤ length + length / 2 ^ 49 + (|dx| + |dy|) / 2 ^ 19) :
    min 0 dx - 4 < x ∧ x < max 0 dx + 4 := by
  have hacross : |dy * cross| ≤ 7 / 2 * length := by
    refine abs_le_of_sq_le_sq ?_ (by positivity)
    calc (dy * cross) ^ 2 = dy ^ 2 * cross ^ 2 := mul_pow _ _ _
      _ ≤ length * (10 * length) := by
        gcongr
        nlinarith
      _ ≤ (7 / 2 * length) ^ 2 := by nlinarith
  have hslack : |dx| * (|dx| + |dy|) ≤ 2 * length := by
    have := sq_abs dx
    have := sq_abs dy
    nlinarith [sq_nonneg (|dx| - |dy|)]
  have hslack' : |dx| * length ≤ 2 ^ 32 * length := by gcongr
  rw [abs_le] at hacross
  rcases le_total 0 dx with hsign | hsign
  · rw [abs_of_nonneg hsign] at hslack hslack' hlow hhigh
    rw [min_eq_left hsign, max_eq_right hsign]
    have := mul_le_mul_of_nonneg_left hlow hsign
    have := mul_le_mul_of_nonneg_left hhigh hsign
    constructor <;> nlinarith
  · rw [abs_of_nonpos hsign] at hslack hslack' hlow hhigh
    rw [min_eq_right hsign, max_eq_left hsign]
    have := mul_le_mul_of_nonneg_left hlow (neg_nonneg.2 hsign)
    have := mul_le_mul_of_nonneg_left hhigh (neg_nonneg.2 hsign)
    constructor <;> nlinarith

/-- A point that stands over a segment, as seen from its start. The parts along and across the
    segment and the square of its length are only known up to their errors. -/
private theorem sides_near (hlength : 1 ≤ dx ^ 2 + dy ^ 2) (hdx : |dx| ≤ 2 ^ 32)
    (hdy : |dy| ≤ 2 ^ 32) (hroot : 0 ≤ root ∧ root ≤ 2 * (dx ^ 2 + dy ^ 2))
    (hsquare : dx ^ 2 + dy ^ 2 ≤ (1 + 1 / 2 ^ 50) * root ^ 2)
    (hdot : |dot - (x * dx + y * dy)| ≤ (|dx| + |dy|) / 2 ^ 19)
    (hcross : |cross - (-y * dx - -x * dy)| ≤ (|dx| + |dy|) / 2 ^ 19)
    (hlength' : |length - (dx ^ 2 + dy ^ 2)| ≤ (dx ^ 2 + dy ^ 2) / 2 ^ 51)
    (hpos : 0 < binary64.round (dot / length)) (hone : binary64.round (dot / length) < 1)
    (h : binary64.round (|binary64.round (cross / length)| * root) ≤ 3) :
    (min 0 dx - 4 < x ∧ x < max 0 dx + 4) ∧ min 0 dy - 4 < y ∧ y < max 0 dy + 4 := by
  have hsquares : |dx| ^ 2 = dx ^ 2 ∧ |dy| ^ 2 = dy ^ 2 := ⟨sq_abs dx, sq_abs dy⟩
  have hlarge : dx ^ 2 + dy ^ 2 ≤ 2 ^ 65 := by nlinarith [abs_nonneg dx, abs_nonneg dy]
  have hsize : ((|dx| + |dy|) / 2 ^ 19) ^ 2 ≤ (dx ^ 2 + dy ^ 2) / 2 ^ 30 := by
    nlinarith [sq_nonneg (|dx| - |dy|)]
  obtain ⟨hlow, hhigh⟩ := dot_bounds hlength hlength' hdot hpos hone
  have hacross := sq_cross_le hlength hlarge hlength' hcross hsize hroot hsquare h
  have hx : (dx ^ 2 + dy ^ 2) * x = dx * (x * dx + y * dy) + dy * (-y * dx - -x * dy) := by ring
  have hy : (dx ^ 2 + dy ^ 2) * y = dy * (x * dx + y * dy) + -dx * (-y * dx - -x * dy) := by ring
  refine ⟨side_near rfl (by linarith) hx hdx hacross hlow hhigh, ?_⟩
  refine side_near (by ring) (by linarith) hy hdy hacross ?_ ?_
  · rwa [abs_neg, add_comm |dy|]
  · rwa [abs_neg, add_comm |dy|]

/-- The errors of the part along a segment, the part across it and the square of its length. -/
private theorem projection_near {x y dx dy : Int} (hx : |x| ≤ 2 ^ 32) (hy : |y| ≤ 2 ^ 32)
    (hlength : 1 ≤ dx ^ 2 + dy ^ 2) :
    |binary64.round (binary64.round (x * dx : Int) + binary64.round (y * dy : Int)) -
        (x * dx + y * dy)| ≤ (|(dx : Rat)| + |(dy : Rat)|) / 2 ^ 19 ∧
      |binary64.round (binary64.round (-y * dx : Int) - binary64.round (-x * dy : Int)) -
        (-y * dx - -x * dy)| ≤ (|(dx : Rat)| + |(dy : Rat)|) / 2 ^ 19 ∧
      |binary64.round (binary64.round (dx * dx : Int) + binary64.round (dy * dy : Int)) -
        (dx ^ 2 + dy ^ 2)| ≤ ((dx : Rat) ^ 2 + dy ^ 2) / 2 ^ 51 := by
  have hproduct {n : Int} (hn : |n| ≤ 2 ^ 32) (m : Int) :
      |(n * m : Rat)| ≤ 2 ^ 32 * |(m : Rat)| := by
    rw [abs_mul]
    gcongr
    exact_mod_cast hn
  have hsquare (n : Int) : |(n * n : Rat)| ≤ (n : Rat) ^ 2 := by rw [abs_mul_self, sq]
  have hlength' : (1 : Rat) ≤ dx ^ 2 + dy ^ 2 := by exact_mod_cast hlength
  have hsize : (1 : Rat) ≤ 2 ^ 32 * |(dx : Rat)| + 2 ^ 32 * |(dy : Rat)| := by
    have : 0 ≤ |(dx : Rat)| := abs_nonneg _
    have : 0 ≤ |(dy : Rat)| := abs_nonneg _
    nlinarith [sq_abs (dx : Rat), sq_abs (dy : Rat)]
  have hdot := Binary.abs_round_add_sub_le (hproduct hx dx) (hproduct hy dy) hsize
  have hcross := Binary.abs_round_sub_sub_le (hproduct (n := -y) (by rwa [abs_neg]) dx)
    (hproduct (n := -x) (by rwa [abs_neg]) dy) hsize
  have hsum := Binary.abs_round_add_sub_le (hsquare dx) (hsquare dy) hlength'
  push_cast at hcross ⊢
  refine ⟨hdot.trans_eq (by ring), hcross.trans_eq (by ring), ?_⟩
  rw [sq, sq] at hsum ⊢
  exact hsum

namespace Point

/-- Both coordinates are in the coordinate range. -/
structure IsInRange (p : Point) : Prop where
  x : Coordinate.InRange p.x
  y : Coordinate.InRange p.y

instance (p : Point) : Decidable p.IsInRange :=
  decidable_of_iff (Coordinate.InRange p.x ∧ Coordinate.InRange p.y)
    ⟨fun ⟨hx, hy⟩ => ⟨hx, hy⟩, fun h => ⟨h.x, h.y⟩⟩

/-- The point is at most three pixels outside the least rectangle around the two ends. -/
def IsBeside (p start stop : Point) : Prop :=
  (min start.x stop.x - 3 ≤ p.x ∧ p.x ≤ max start.x stop.x + 3) ∧
    min start.y stop.y - 3 ≤ p.y ∧ p.y ≤ max start.y stop.y + 3

variable {p q start stop : Point}

/-- What is known of a distance. Its square is that of the exact one up to a small part. -/
theorem distance_near (p q : Point) :
    (0 ≤ p.distance q ∧
      p.distance q ≤ 2 * (((q.x - p.x : Int) : Rat) ^ 2 + ((q.y - p.y : Int) : Rat) ^ 2)) ∧
      ((q.x - p.x : Int) : Rat) ^ 2 + ((q.y - p.y : Int) : Rat) ^ 2 ≤
        (1 + 1 / 2 ^ 50) * p.distance q ^ 2 := by
  have hsquare : (((p.x - q.x) * (p.x - q.x) + (p.y - q.y) * (p.y - q.y)).toNat : Int) =
      (q.x - p.x) ^ 2 + (q.y - p.y) ^ 2 := by
    rw [Int.toNat_of_nonneg (add_nonneg (mul_self_nonneg _) (mul_self_nonneg _))]
    ring
  have hcast : ((((p.x - q.x) * (p.x - q.x) + (p.y - q.y) * (p.y - q.y)).toNat : Nat) : Rat) =
      ((q.x - p.x : Int) : Rat) ^ 2 + ((q.y - p.y : Int) : Rat) ^ 2 := by
    exact_mod_cast hsquare
  rw [← hcast]
  exact ⟨⟨Binary.sqrt_nonneg _, Binary.sqrt_le _⟩, Binary.le_sq_sqrt _⟩

/-- A point at a distance of three from one end is beside every segment with that end. -/
private theorem sides_near_of_distance (h : p.distance q ≤ 3) :
    (q.x - 3 ≤ p.x ∧ p.x ≤ q.x + 3) ∧ q.y - 3 ≤ p.y ∧ p.y ≤ q.y + 3 := by
  obtain ⟨⟨hnonneg, -⟩, hsquare⟩ := distance_near p q
  have hsmall : ((q.x - p.x : Int) : Rat) ^ 2 + ((q.y - p.y : Int) : Rat) ^ 2 < 10 := by
    have := pow_le_pow_left₀ hnonneg h 2
    linarith
  have hsquares : (q.x - p.x) ^ 2 + (q.y - p.y) ^ 2 < 10 := by exact_mod_cast hsmall
  refine ⟨⟨?_, ?_⟩, ?_, ?_⟩ <;> nlinarith

/-- A point whose distance from a segment comes out as at most three is beside the segment. The
    coordinates may be as large as coordinates are: the errors of the computation are then still
    less than what is missing to the next pixel. -/
theorem isBeside_of_distanceToSegment_le (hp : p.IsInRange) (hstart : start.IsInRange)
    (hstop : stop.IsInRange) (h : p.distanceToSegment start stop ≤ 3) :
    p.IsBeside start stop := by
  have hends : p.distance start ≤ 3 ∨ p.distance stop ≤ 3 → p.IsBeside start stop := by
    unfold IsBeside
    rintro (hend | hend)
    · have := sides_near_of_distance hend
      omega
    · have := sides_near_of_distance hend
      omega
  unfold distanceToSegment at h
  split at h
  · exact hends (.inl h)
  rename_i hne
  dsimp only at h
  split at h
  · exact hends (.inl h)
  split at h
  · exact hends (.inr h)
  rename_i hpos hone
  rw [Binary.abs_eq_abs] at h
  obtain ⟨⟨hpx, hpy⟩, ⟨hsx, hsy⟩, ⟨htx, hty⟩⟩ := And.intro hp (And.intro hstart hstop)
  unfold Coordinate.InRange Coordinate.least Coordinate.greatest at hpx hpy hsx hsy htx hty
  have hlength : 1 ≤ (stop.x - start.x) ^ 2 + (stop.y - start.y) ^ 2 := by
    by_contra hnot
    have hzero : stop.x - start.x = 0 ∧ stop.y - start.y = 0 := by
      constructor <;> nlinarith
    obtain ⟨hx, hy⟩ : start.x = stop.x ∧ start.y = stop.y := by omega
    cases start
    cases stop
    exact hne (congrArg₂ Point.mk hx hy)
  have hopposite : start.x - p.x = -(p.x - start.x) ∧ start.y - p.y = -(p.y - start.y) := by
    omega
  rw [hopposite.1, hopposite.2] at h
  have hsize {a b : Int} (ha : -2147483648 ≤ a ∧ a ≤ 2147483647)
      (hb : -2147483648 ≤ b ∧ b ≤ 2147483647) : |a - b| ≤ 2 ^ 32 := by
    rw [abs_le]
    omega
  obtain ⟨hdot, hcross, hsum⟩ := projection_near (hsize hpx hsx) (hsize hpy hsy) hlength
  obtain ⟨hroot, hsquare⟩ := distance_near start stop
  obtain ⟨⟨hleft, hright⟩, htop, hbottom⟩ := sides_near (by exact_mod_cast hlength)
    (by exact_mod_cast hsize htx hsx) (by exact_mod_cast hsize hty hsy) hroot hsquare hdot hcross
    hsum (not_le.1 hpos) (not_le.1 hone) h
  norm_cast at hleft hright htop hbottom
  unfold IsBeside
  omega

/-- The distance of the point from the segment is at most `reach`, without any rounding. -/
def IsNearSegment (p start stop : Point) (reach : Rat) : Prop :=
  ∃ part : Rat, (0 ≤ part ∧ part ≤ 1) ∧
    (p.x - (start.x + part * (stop.x - start.x))) ^ 2 +
      (p.y - (start.y + part * (stop.y - start.y))) ^ 2 ≤ reach ^ 2

/-- A coordinate that is near to one between two others is near to the range of these. -/
private theorem near_range_of_part {n low high : Int} {part : Rat} (hnonneg : 0 ≤ part)
    (hone : part ≤ 1) (h : (n - (low + part * (high - low)) : Rat) ^ 2 ≤ 3 ^ 2) :
    min low high - 3 ≤ n ∧ n ≤ max low high + 3 := by
  obtain ⟨hbelow, habove⟩ := abs_le.1 (abs_le_of_sq_le_sq h (by norm_num))
  rcases le_total low high with hle | hle
  · have hends : (low : Rat) ≤ high := by exact_mod_cast hle
    have hlow : ((low - 3 : Int) : Rat) ≤ n := by
      push_cast
      nlinarith
    have hhigh : (n : Rat) ≤ (high + 3 : Int) := by
      push_cast
      nlinarith
    rw [min_eq_left hle, max_eq_right hle]
    exact ⟨by exact_mod_cast hlow, by exact_mod_cast hhigh⟩
  · have hends : (high : Rat) ≤ low := by exact_mod_cast hle
    have hlow : ((high - 3 : Int) : Rat) ≤ n := by
      push_cast
      nlinarith
    have hhigh : (n : Rat) ≤ (low + 3 : Int) := by
      push_cast
      nlinarith
    rw [min_eq_right hle, max_eq_left hle]
    exact ⟨by exact_mod_cast hlow, by exact_mod_cast hhigh⟩

theorem isBeside_of_isNearSegment (h : p.IsNearSegment start stop 3) :
    p.IsBeside start stop := by
  obtain ⟨part, ⟨hnonneg, hone⟩, hsquares⟩ := h
  have hx := sq_nonneg (p.x - (start.x + part * (stop.x - start.x)) : Rat)
  have hy := sq_nonneg (p.y - (start.y + part * (stop.y - start.y)) : Rat)
  exact ⟨near_range_of_part hnonneg hone (by linarith),
    near_range_of_part hnonneg hone (by linarith)⟩

end Point

end ScoreOverlay
