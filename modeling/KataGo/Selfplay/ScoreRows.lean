import KataGo.Selfplay.ScoreDistr
import Mathlib.Algebra.BigOperators.Group.List.Basic
import Mathlib.Algebra.Order.Archimedean.Basic
import Mathlib.Data.List.GetD
import Mathlib.Tactic.FieldSimp
import Mathlib.Tactic.Linarith
import Mathlib.Tactic.Ring

/-! What the score distribution of a training row says about the score. -/

namespace KataGo.Selfplay

section Round

variable {K : Type} [Field K] [LinearOrder K] [IsStrictOrderedRing K] [FloorRing K]

theorem round_near (x : K) : |(round x : K) - x| ≤ 1 / 2 := by
  rw [abs_le]
  unfold round
  split
  · have low := Int.floor_le (x + 1 / 2)
    have high := Int.lt_floor_add_one (x + 1 / 2)
    constructor <;> linarith
  · have low := Int.floor_le (-x + 1 / 2)
    have high := Int.lt_floor_add_one (-x + 1 / 2)
    push_cast
    constructor <;> linarith

theorem round_neg (x : K) : round (-x) = -round x := by
  rcases lt_trichotomy x 0 with negative | rfl | positive
  · rw [round, round, if_pos (by linarith), if_neg (by linarith), neg_neg]
  · have half : ⌊(0 : K) + 1 / 2⌋ = 0 := by
      rw [Int.floor_eq_iff]
      constructor <;> norm_num
    rw [neg_zero, round, if_pos le_rfl, half, neg_zero]
  · rw [round, round, if_neg (by linarith), if_pos positive.le, neg_neg]

/-- A number halfway between two integers. -/
def Tie (x : K) : Prop := ∃ n : Int, x = n + 1 / 2

/-- Away from ties there is one nearest integer. -/
theorem round_eq {x : K} {n : Int} (near : |(n : K) - x| ≤ 1 / 2) (apart : ¬ Tie x) : round x = n := by
  have near' := round_near x
  rw [abs_le] at near near'
  have below : round x ≤ n := by
    by_contra above
    have step : (n : K) + 1 ≤ round x := by exact_mod_cast not_le.1 above
    exact apart ⟨n, by linarith⟩
  have above : n ≤ round x := by
    by_contra below
    have step : (round x : K) + 1 ≤ n := by exact_mod_cast not_le.1 below
    exact apart ⟨round x, by linarith⟩
  exact le_antisymm below above

end Round

/-- A row with two adjacent entries. -/
def twoEntries (n i : Nat) (a b : Int) : List Int := List.replicate i 0 ++ [a, b] ++ List.replicate (n - 2 - i) 0

theorem set_two {n i : Nat} (inside : i + 2 ≤ n) (a b : Int) :
    ((List.replicate n 0).set i a).set (i + 1) b = twoEntries n i a b := by
  have split : List.replicate n (0 : Int) = List.replicate i 0 ++ ([0, 0] ++ List.replicate (n - 2 - i) 0) := by
    rw [show ([0, 0] : List Int) = List.replicate 2 0 from rfl, List.replicate_append_replicate,
      List.replicate_append_replicate, show i + (2 + (n - 2 - i)) = n by omega]
  rw [split, twoEntries, List.append_assoc]
  simp

/-- Of two adjacent entries one may be zero. -/
theorem set_first {n : Nat} (inside : 2 ≤ n) (a : Int) : (List.replicate n 0).set 0 a = twoEntries n 0 a 0 := by
  rw [← set_two (by omega), List.set_comm _ _ (by decide), List.set_replicate_self]

theorem set_last {n i : Nat} (inside : i + 2 ≤ n) (b : Int) : (List.replicate n 0).set (i + 1) b = twoEntries n i 0 b := by
  rw [← set_two inside, List.set_replicate_self]

theorem reverse_twoEntries {n i : Nat} (inside : i + 2 ≤ n) (a b : Int) :
    (twoEntries n i a b).reverse = twoEntries n (n - 2 - i) b a := by
  rw [twoEntries, twoEntries, show n - 2 - (n - 2 - i) = i by omega]
  simp

theorem sum_twoEntries (n i : Nat) (a b : Int) : (twoEntries n i a b).sum = a + b := by
  simp [twoEntries]

theorem length_twoEntries {n i : Nat} (inside : i + 2 ≤ n) (a b : Int) : (twoEntries n i a b).length = n := by
  simp [twoEntries]
  omega

theorem mem_twoEntries {n i : Nat} {a b v : Int} (member : v ∈ twoEntries n i a b) : v = 0 ∨ v = a ∨ v = b := by
  simp only [twoEntries, List.mem_append, List.mem_replicate, List.mem_cons, List.not_mem_nil, or_false] at member
  tauto

theorem twoEntries_apart (n i : Nat) (a b : Int) {j : Nat} (first : j ≠ i) (second : j ≠ i + 1) :
    (twoEntries n i a b).getD j 0 = 0 := by
  unfold twoEntries
  rcases Nat.lt_or_ge j i with before | after
  · rw [List.append_assoc, List.getD_append _ _ _ _ (by simpa using before)]
    simp only [List.getD_eq_getElem?_getD, List.getElem?_replicate]
    split <;> rfl
  · rw [List.getD_append_right _ _ _ _ (by simp; omega), List.getD_eq_getElem?_getD, List.getElem?_replicate]
    split <;> rfl

section Mean

variable {K : Type} [Field K]

/-- What an entry counts for in the mean: entry `k` stands for `k - mid + 1/2` points. -/
def points (posArea : Nat) (entry : Int × Nat) : K := (entry.1 : K) / 100 * ((entry.2 : K) - scoreDistrMid posArea + 1 / 2)

def mean (posArea : Nat) (row : List Int) : K := (row.zipIdx.map (points posArea)).sum

theorem points_zeros (posArea n k : Nat) : (((List.replicate n (0 : Int)).zipIdx k).map (points (K := K) posArea)).sum = 0 := by
  induction n generalizing k with
  | zero => rfl
  | succ n ih => simp [List.replicate_succ, points, ih]

theorem mean_twoEntries (posArea n i : Nat) (a b : Int) :
    mean (K := K) posArea (twoEntries n i a b) = points posArea (a, i) + points posArea (b, i + 1) := by
  rw [mean, twoEntries, List.zipIdx_append, List.zipIdx_append, List.map_append, List.map_append, List.sum_append,
    List.sum_append, points_zeros, points_zeros]
  simp

end Mean

section Fill

variable {K : Type} [Field K] [LinearOrder K] [IsStrictOrderedRing K] [FloorRing K]

/-- The two entries that a score has. -/
structure Placed (posArea : Nat) (score : K) (i : Nat) (up : Int) : Prop where
  inside : i + 2 ≤ scoreDistrLen posArea
  nonneg : 0 ≤ up
  most : up ≤ 100
  place : round score ≤ -(scoreDistrMid posArea : Int) ∧ i = 0 ∧ up = 0 ∨
    scoreDistrMid posArea ≤ round score ∧ i + 2 = scoreDistrLen posArea ∧ up = 100 ∨
      (i : Int) = round score + scoreDistrMid posArea - 1 ∧ up = round ((score - (round score - 1 / 2)) * 100)

theorem write_ok {row : List Int} {i : Nat} (inside : i < row.length) {v : Int} (nonneg : 0 ≤ v) (most : v ≤ 100) :
    write row i v = some (row.set i v) := by
  have small : int8 v = v := by
    rw [int8, Int.bmod_def]
    omega
  rw [write, if_pos ⟨by omega, by omega⟩, small]
  rfl

theorem percent_bounds (score : K) :
    0 ≤ round ((score - (round score - 1 / 2)) * 100) ∧ round ((score - (round score - 1 / 2)) * 100) ≤ 100 := by
  have center := abs_le.1 (round_near score)
  have near := abs_le.1 (round_near ((score - (round score - 1 / 2)) * 100))
  constructor
  · have above : (-1 : K) < round ((score - (round score - 1 / 2)) * 100) := by linarith
    have above_ : (-1 : Int) < round ((score - (round score - 1 / 2)) * 100) := by exact_mod_cast above
    omega
  · have below : (round ((score - (round score - 1 / 2)) * 100) : K) < 101 := by linarith
    have below_ : round ((score - (round score - 1 / 2)) * 100) < 101 := by exact_mod_cast below
    omega

theorem scoreDistrLen_eq (posArea : Nat) : scoreDistrLen posArea = 2 * scoreDistrMid posArea := by
  simp only [scoreDistrLen, scoreDistrMid]
  omega

theorem scoreDistrMid_pos (posArea : Nat) : 0 < scoreDistrMid posArea := by
  simp only [scoreDistrMid, extraScoreDistrRadius]
  omega

/-- Every score is written as two adjacent entries. -/
theorem fillScoreDistr_placed (posArea : Nat) (score : K) :
    ∃ i up, Placed posArea score i up ∧
      fillScoreDistr posArea score = some (twoEntries (scoreDistrLen posArea) i (100 - up) up) := by
  have len := scoreDistrLen_eq posArea
  have some_ := scoreDistrMid_pos posArea
  obtain ⟨nonneg, most⟩ := percent_bounds score
  unfold fillScoreDistr
  simp only
  split
  next low =>
    refine ⟨0, 0, ⟨by omega, le_rfl, by decide, .inl ⟨by omega, rfl, rfl⟩⟩, ?_⟩
    rw [← set_first (by omega)]
    exact write_ok (i := 0) (by simp; omega) (by decide) le_rfl
  next notLow =>
    split
    next high =>
      refine ⟨scoreDistrLen posArea - 2, 100, ⟨by omega, by decide, le_rfl, .inr (.inl ⟨by omega, by omega, rfl⟩)⟩, ?_⟩
      have last : (scoreDistrLen posArea : Int) - 1 = ((scoreDistrLen posArea - 2 + 1 : Nat) : Int) := by omega
      rw [last, show (100 : Int) - 100 = 0 from rfl, ← set_last (by omega)]
      exact write_ok (by simp; omega) (by decide) le_rfl
    next notHigh =>
      obtain ⟨i, lower⟩ := Int.eq_ofNat_of_zero_le (show 0 ≤ round score + (scoreDistrMid posArea : Int) - 1 by omega)
      have upper : round score + (scoreDistrMid posArea : Int) = ((i + 1 : Nat) : Int) := by omega
      refine ⟨i, _, ⟨by omega, nonneg, most, .inr (.inr ⟨lower.symm, rfl⟩)⟩, ?_⟩
      rw [lower, upper, write_ok (by simp; omega) (by omega) (by omega)]
      rw [← set_two (by omega)]
      exact write_ok (by simp; omega) nonneg most

/-- A row that says what the score is. -/
structure Encodes (posArea : Nat) (score : K) (row : List Int) : Prop where
  length : row.length = scoreDistrLen posArea
  percent : ∀ v ∈ row, 0 ≤ v ∧ v ≤ 100
  total : row.sum = 100
  adjacent : ∃ i, ∀ j, j ≠ i → j ≠ i + 1 → row.getD j 0 = 0
  near : |score| ≤ scoreDistrMid posArea - 1 / 2 → |mean posArea row - score| ≤ 1 / 200

theorem mean_placed {posArea : Nat} {score : K} {i : Nat} {up : Int} (placed : Placed posArea score i up)
    (within : |score| ≤ scoreDistrMid posArea - 1 / 2) :
    |mean posArea (twoEntries (scoreDistrLen posArea) i (100 - up) up) - score| ≤ 1 / 200 := by
  have center := abs_le.1 (round_near score)
  rw [abs_le] at within
  have value : mean (K := K) posArea (twoEntries (scoreDistrLen posArea) i (100 - up) up) =
      (i : K) - scoreDistrMid posArea + 1 / 2 + up / 100 := by
    rw [mean_twoEntries, points, points]
    push_cast
    ring
  rw [value, abs_le]
  rcases placed.place with ⟨low, rfl, rfl⟩ | ⟨high, last, rfl⟩ | ⟨lower, percent⟩
  · have low_ : (round score : K) ≤ -scoreDistrMid posArea := by exact_mod_cast low
    push_cast
    constructor <;> linarith
  · have high_ : (scoreDistrMid posArea : K) ≤ round score := by exact_mod_cast high
    have last_ : (i : K) + 2 = 2 * scoreDistrMid posArea := by
      rw [scoreDistrLen_eq] at last
      exact_mod_cast last
    push_cast
    constructor <;> linarith
  · have lower_ : (i : K) = round score + scoreDistrMid posArea - 1 := by exact_mod_cast lower
    have near := abs_le.1 (round_near ((score - (round score - 1 / 2)) * 100))
    rw [← percent] at near
    constructor <;> linarith

theorem encodes_placed {posArea : Nat} {score : K} {i : Nat} {up : Int} (placed : Placed posArea score i up) :
    Encodes posArea score (twoEntries (scoreDistrLen posArea) i (100 - up) up) where
  length := length_twoEntries placed.inside _ _
  percent v member := by
    have nonneg := placed.nonneg
    have most := placed.most
    rcases mem_twoEntries member with rfl | rfl | rfl <;> omega
  total := by rw [sum_twoEntries, sub_add_cancel]
  adjacent := ⟨i, fun j first second => twoEntries_apart _ i _ _ first second⟩
  near := mean_placed placed

/-- The places of a score and of its negation mirror each other, away from ties. -/
theorem placed_neg {posArea : Nat} {score : K} {i i' : Nat} {up up' : Int} (apart : ¬ Tie (score * 100))
    (placed : Placed posArea score i up) (placed' : Placed posArea (-score) i' up') :
    i' = scoreDistrLen posArea - 2 - i ∧ up' = 100 - up := by
  have len := scoreDistrLen_eq posArea
  have some_ := scoreDistrMid_pos posArea
  have mirrored : round ((-score - (round (-score) - 1 / 2)) * 100) =
      100 - round ((score - (round score - 1 / 2)) * 100) := by
    apply round_eq
    · have near := abs_le.1 (round_near ((score - (round score - 1 / 2)) * 100))
      rw [round_neg, abs_le]
      push_cast
      constructor <;> linarith
    · rintro ⟨n, tie⟩
      rw [round_neg] at tie
      refine apart ⟨100 * round score + 49 - n, ?_⟩
      push_cast at tie ⊢
      linarith
  have place := placed.place
  have place' := placed'.place
  have inside := placed.inside
  have inside' := placed'.inside
  rw [mirrored, round_neg] at place'
  generalize round ((score - (round score - 1 / 2)) * 100) = percent at place place'
  omega

/-- The row of the distribution for White to move and the one for Black to move are both written,
within the row; each says what the score is for its player, and away from ties they mirror each other. -/
theorem addScoreDistr_encodes (isGameFinished isNoResult : Bool) (result : (isGameFinished && isNoResult) = false)
    (dataXLen dataYLen : Nat) (whiteScore : K) :
    ∃ white black, addScoreDistr true isGameFinished isNoResult dataXLen dataYLen .white whiteScore = some white ∧
      addScoreDistr true isGameFinished isNoResult dataXLen dataYLen .black whiteScore = some black ∧
      Encodes (dataXLen * dataYLen) whiteScore white ∧ Encodes (dataXLen * dataYLen) (-whiteScore) black ∧
      (¬ Tie (whiteScore * 100) → black = white.reverse) := by
  obtain ⟨i, up, placed, filled⟩ := fillScoreDistr_placed (dataXLen * dataYLen) whiteScore
  obtain ⟨i', up', placed', filled'⟩ := fillScoreDistr_placed (dataXLen * dataYLen) (-whiteScore)
  refine ⟨_, _, ?_, ?_, encodes_placed placed, encodes_placed placed', fun apart => ?_⟩
  · rw [addScoreDistr, result, if_neg (by decide), if_pos rfl, filled]
  · rw [addScoreDistr, result, if_neg (by decide), if_neg (by decide), filled']
  · obtain ⟨rfl, rfl⟩ := placed_neg apart placed placed'
    rw [reverse_twoEntries placed.inside, sub_sub_cancel]

end Fill

theorem addScoreDistr_encodes_seven : ∃ white black, addScoreDistr true true false 19 19 .white (7 : ℚ) = some white ∧
    addScoreDistr true true false 19 19 .black (7 : ℚ) = some black ∧ Encodes 361 (7 : ℚ) white ∧
      Encodes 361 (-7 : ℚ) black ∧ (¬ Tie ((7 : ℚ) * 100) → black = white.reverse) :=
  addScoreDistr_encodes true false rfl 19 19 7

end KataGo.Selfplay
