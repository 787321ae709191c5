import KataGo.History.Record
import Mathlib.Data.List.Sort

/-! `KoHashTable` of `cpp/game/boardhistory.cpp`: a copy of a ko hash history that is sorted by
the low bits of the hashes, with the place at which every value of the bits begins. -/

namespace KataGo.Game

structure KoHashTable where
  idxTable : Nat → Nat
  koHashHistorySortedByLowBits : List Hash128
  firstTurnIdxWithKoHistory : Nat

/-- `operator<` of `Hash128` -/
def Hash128.lt (a b : Hash128) : Bool :=
  decide (a.hash1 < b.hash1) || (decide (a.hash1 = b.hash1) && decide (a.hash0 < b.hash0))

namespace KoHashTable

/-- `TABLE_SIZE` -/
def tableSize : Nat := 1024

/-- `hash0 & TABLE_MASK` -/
def lowBits (hash : Hash128) : Nat := (hash.hash0 &&& 1023#64).toNat

def cmpFirstByLowBits (a b : Hash128) : Bool :=
  if lowBits a < lowBits b then true
  else if lowBits a > lowBits b then false
  else a.lt b

/-- `a` may stand before `b`. -/
def NotAfter (a b : Hash128) : Prop := cmpFirstByLowBits b a = false

instance : DecidableRel NotAfter := fun a b => inferInstanceAs (Decidable (cmpFirstByLowBits b a = false))

/-- `while(idx < size && low bits of the hash at idx < bits) idx++`, on the hashes from `idx` on. -/
def skip (bits : Nat) : List Hash128 → Nat → Nat
  | [], idx => idx
  | hash :: rest, idx => if lowBits hash < bits then skip bits rest (idx + 1) else idx

/-- The loop over the values of the bits, with the table and the index after it. -/
def fillIdxTable (hashes : List Hash128) : Nat → (Nat → Nat) × Nat
  | 0 => (fun _ => 0, 0)
  | bits + 1 =>
      let filled := fillIdxTable hashes bits
      let idx := skip bits (hashes.drop filled.2) filled.2
      (Function.update filled.1 bits idx, idx)

def recompute (history : BoardHistory) : Option KoHashTable :=
  let sorted := history.koHashHistory.insertionSort NotAfter
  if sorted.length > 1000000000 then none
  else some ⟨(fillIdxTable sorted tableSize).1, sorted, history.firstTurnIdxWithKoHistory⟩

/-- The search through the hashes with the same bits. -/
def containsFrom (hash : Hash128) : List Hash128 → Bool
  | [] => false
  | found :: rest => if lowBits found = lowBits hash then (if hash = found then true else containsFrom hash rest) else false

def occurrencesFrom (hash : Hash128) : List Hash128 → Nat
  | [] => 0
  | found :: rest =>
      if lowBits found = lowBits hash then (if hash = found then 1 else 0) + occurrencesFrom hash rest else 0

def size (table : KoHashTable) : Nat := table.koHashHistorySortedByLowBits.length

def containsHash (table : KoHashTable) (hash : Hash128) : Bool :=
  containsFrom hash (table.koHashHistorySortedByLowBits.drop (table.idxTable (lowBits hash)))

def numberOfOccurrencesOfHash (table : KoHashTable) (hash : Hash128) : Nat :=
  occurrencesFrom hash (table.koHashHistorySortedByLowBits.drop (table.idxTable (lowBits hash)))

variable {hash : Hash128} {hashes : List Hash128} {bits idx : Nat}

theorem lowBits_lt (hash : Hash128) : lowBits hash < tableSize := by
  unfold lowBits tableSize
  rw [BitVec.toNat_and]
  exact Nat.lt_of_le_of_lt Nat.and_le_right (by decide)

theorem notAfter_iff (a b : Hash128) : NotAfter a b ↔
    lowBits a < lowBits b ∨ lowBits a = lowBits b ∧
      (a.hash1.toNat < b.hash1.toNat ∨ a.hash1.toNat = b.hash1.toNat ∧ a.hash0.toNat ≤ b.hash0.toNat) := by
  unfold NotAfter cmpFirstByLowBits Hash128.lt
  split_ifs with below above
  · simp only [false_iff]
    omega
  · simp only [true_iff]
    omega
  · simp only [Bool.or_eq_false_iff, Bool.and_eq_false_iff, decide_eq_false_iff_not, BitVec.lt_def, ← BitVec.toNat_inj]
    omega

instance : Std.Total NotAfter := by
  refine ⟨fun a b => ?_⟩
  rw [notAfter_iff, notAfter_iff]
  omega

instance : IsTrans Hash128 NotAfter := by
  refine ⟨fun a b c first second => ?_⟩
  rw [notAfter_iff] at first second ⊢
  omega

theorem sorted_recompute (hashes : List Hash128) :
    (hashes.insertionSort NotAfter).Pairwise fun a b => lowBits a ≤ lowBits b := by
  refine (List.pairwise_insertionSort NotAfter hashes).imp fun {a b} before => ?_
  rw [notAfter_iff] at before
  omega

theorem skip_eq : skip bits hashes idx = idx + (hashes.takeWhile fun hash => lowBits hash < bits).length := by
  induction hashes generalizing idx with
  | nil => rfl
  | cons hash rest ih =>
    by_cases below : lowBits hash < bits
    · rw [skip, if_pos below, ih, List.takeWhile_cons_of_pos (by simpa using below), List.length_cons]
      omega
    · rw [skip, if_neg below, List.takeWhile_cons_of_neg (by simpa using below)]
      rfl

/-- Stepping over more hashes, from where fewer were stepped over. -/
theorem takeWhile_length_drop {α : Type} {p q : α → Bool} (imp : ∀ a, p a = true → q a = true) (l : List α) :
    (l.takeWhile p).length + ((l.drop (l.takeWhile p).length).takeWhile q).length = (l.takeWhile q).length := by
  induction l with
  | nil => rfl
  | cons a l ih =>
    by_cases first : p a = true
    · rw [List.takeWhile_cons_of_pos first, List.takeWhile_cons_of_pos (imp a first)]
      simp only [List.length_cons, List.drop_succ_cons]
      omega
    · simp [List.takeWhile_cons_of_neg first]

/-- Where the hashes with at least these bits begin. -/
def start (hashes : List Hash128) (bits : Nat) : Nat := (hashes.takeWhile fun hash => lowBits hash < bits).length

theorem fillIdxTable_eq (hashes : List Hash128) (n : Nat) :
    (∀ bits < n, (fillIdxTable hashes n).1 bits = start hashes bits) ∧
      (fillIdxTable hashes n).2 = start hashes (n - 1) := by
  induction n with
  | zero =>
    refine ⟨fun bits below => absurd below (Nat.not_lt_zero bits), ?_⟩
    cases hashes <;> rfl
  | succ n ih =>
    have next : skip n (hashes.drop (fillIdxTable hashes n).2) (fillIdxTable hashes n).2 = start hashes n := by
      rw [skip_eq, ih.2]
      refine takeWhile_length_drop (fun hash below => ?_) hashes
      have below := of_decide_eq_true below
      exact decide_eq_true (by omega)
    refine ⟨fun bits below => ?_, next⟩
    show Function.update _ n _ bits = _
    by_cases same : bits = n
    · rw [same, Function.update_self, next]
    · rw [Function.update_of_ne same, ih.1 bits (by omega)]

section Sorted

variable (sorted : hashes.Pairwise fun a b => lowBits a ≤ lowBits b)
include sorted

/-- The search ends behind the last hash with these bits. -/
theorem occurrencesFrom_eq (least : ∀ found ∈ hashes, lowBits hash ≤ lowBits found) :
    occurrencesFrom hash hashes = hashes.count hash := by
  induction hashes with
  | nil => rfl
  | cons found rest ih =>
    obtain ⟨first, later⟩ := List.pairwise_cons.mp sorted
    rw [occurrencesFrom]
    split_ifs with bits same
    · subst same
      rw [ih later fun other member => least other (List.mem_cons_of_mem _ member), List.count_cons_self]
      omega
    · rw [ih later fun other member => least other (List.mem_cons_of_mem _ member), List.count_cons_of_ne (Ne.symm same)]
      omega
    · refine (List.count_eq_zero.mpr fun member => ?_).symm
      rcases List.mem_cons.mp member with rfl | member
      · exact bits rfl
      · have := first hash member
        have := least found List.mem_cons_self
        omega

omit sorted in
theorem containsFrom_eq : containsFrom hash hashes = decide (0 < occurrencesFrom hash hashes) := by
  induction hashes with
  | nil => rfl
  | cons found rest ih =>
    rw [containsFrom, occurrencesFrom]
    split_ifs with bits same
    · exact (decide_eq_true (by omega)).symm
    · rw [ih, Nat.zero_add]
    · rfl

/-- From the place in the table on the copy holds every occurrence. -/
theorem occurrencesFrom_start : occurrencesFrom hash (hashes.drop (start hashes (lowBits hash))) = hashes.count hash := by
  induction hashes with
  | nil => rfl
  | cons found rest ih =>
    obtain ⟨first, later⟩ := List.pairwise_cons.mp sorted
    by_cases below : lowBits found < lowBits hash
    · have place : start (found :: rest) (lowBits hash) = start rest (lowBits hash) + 1 := by
        rw [start, List.takeWhile_cons_of_pos (by simpa using below)]
        rfl
      have apart : found ≠ hash := by
        rintro rfl
        exact Nat.lt_irrefl _ below
      rw [place, List.drop_succ_cons, ih later, List.count_cons_of_ne apart]
    · have place : start (found :: rest) (lowBits hash) = 0 := by
        rw [start, List.takeWhile_cons_of_neg (by simpa using below)]
        rfl
      rw [place, List.drop_zero]
      refine occurrencesFrom_eq sorted fun other member => ?_
      rcases List.mem_cons.mp member with rfl | member
      · exact Nat.le_of_not_lt below
      · exact (Nat.le_of_not_lt below).trans (first other member)

end Sorted

/-- A table counts the hashes of the history that it was computed from. -/
structure CopyOf (table : KoHashTable) (hashes : List Hash128) (firstTurnIdxWithKoHistory : Nat) : Prop where
  first : table.firstTurnIdxWithKoHistory = firstTurnIdxWithKoHistory
  size : table.size = hashes.length
  numberOfOccurrences : ∀ hash, table.numberOfOccurrencesOfHash hash = hashes.count hash
  contains : ∀ hash, table.containsHash hash = hashes.contains hash

theorem recompute_copyOf {history : BoardHistory} {table : KoHashTable} (computed : recompute history = some table) :
    table.CopyOf history.koHashHistory history.firstTurnIdxWithKoHistory := by
  unfold recompute at computed
  dsimp only at computed
  split_ifs at computed with long
  cases computed
  have perm := List.perm_insertionSort NotAfter history.koHashHistory
  have counts : ∀ hash, numberOfOccurrencesOfHash ⟨(fillIdxTable (history.koHashHistory.insertionSort NotAfter) tableSize).1,
      history.koHashHistory.insertionSort NotAfter, history.firstTurnIdxWithKoHistory⟩ hash =
        history.koHashHistory.count hash := by
    intro hash
    rw [← perm.count_eq hash, ← occurrencesFrom_start (sorted_recompute _), numberOfOccurrencesOfHash]
    dsimp only
    rw [(fillIdxTable_eq _ tableSize).1 _ (lowBits_lt hash)]
  refine ⟨rfl, perm.length_eq, counts, fun hash => ?_⟩
  rw [containsHash, containsFrom_eq]
  change decide (0 < numberOfOccurrencesOfHash _ hash) = _
  rw [counts hash]
  by_cases member : hash ∈ history.koHashHistory
  · rw [decide_eq_true (List.count_pos_iff.mpr member), List.contains_iff_mem.mpr member]
  · rw [decide_eq_false fun positive => member (List.count_pos_iff.mp positive)]
    exact (Bool.eq_false_iff.mpr fun found => member (List.contains_iff_mem.mp found)).symm

end KoHashTable
end KataGo.Game
