import Mathlib.Data.List.Basic
import Mathlib.Data.List.Pairwise
import Mathlib.Order.Defs.LinearOrder
import Mathlib.Order.Lattice

/-! Maps over an ordered type of keys, as the entries in the order of their keys. -/

namespace KataGo.Lib

structure SortedMap (κ ν : Type*) [LT κ] where
  entries : List (κ × ν)
  ordered : entries.Pairwise fun a b => a.1 < b.1

namespace SortedMap

variable {κ ν : Type*} [LinearOrder κ] {k : κ} {v : ν} {e : κ × ν} {entries : List (κ × ν)} {m m' : SortedMap κ ν}

theorem ext_entries (same : m.entries = m'.entries) : m = m' := by
  cases m
  cases m'
  cases same
  rfl

def empty : SortedMap κ ν := ⟨[], .nil⟩

def contains (m : SortedMap κ ν) (k : κ) : Bool := m.entries.any fun e => e.1 = k

/-- The entries with a value set at a key. -/
def insert (k : κ) (v : ν) : List (κ × ν) → List (κ × ν)
  | [] => [(k, v)]
  | e :: entries =>
    if k < e.1 then (k, v) :: e :: entries
    else if k = e.1 then (k, v) :: entries
    else e :: insert k v entries

theorem mem_insert (member : e ∈ insert k v entries) : e = (k, v) ∨ e ∈ entries := by
  induction entries with
  | nil => exact .inl (List.mem_singleton.1 member)
  | cons first entries ih =>
    rw [insert] at member
    split_ifs at member
    · exact List.mem_cons.1 member
    · exact (List.mem_cons.1 member).imp_right fun later => List.mem_cons_of_mem _ later
    · rcases List.mem_cons.1 member with rfl | later
      · exact .inr List.mem_cons_self
      · exact (ih later).imp_right fun kept => List.mem_cons_of_mem _ kept

theorem insert_ordered (ordered : entries.Pairwise fun a b => a.1 < b.1) :
    (insert k v entries).Pairwise fun a b => a.1 < b.1 := by
  induction entries with
  | nil => exact List.pairwise_singleton _ _
  | cons first entries ih =>
    obtain ⟨least, rest⟩ := List.pairwise_cons.1 ordered
    rw [insert]
    split_ifs with below same
    · refine List.pairwise_cons.2 ⟨fun e member => ?_, ordered⟩
      rcases List.mem_cons.1 member with rfl | later
      · exact below
      · exact lt_trans below (least e later)
    · exact List.pairwise_cons.2 ⟨fun e member => same ▸ least e member, rest⟩
    · refine List.pairwise_cons.2 ⟨fun e member => ?_, ih rest⟩
      rcases mem_insert member with rfl | later
      · exact lt_of_le_of_ne (not_lt.1 below) (Ne.symm same)
      · exact least e later

def set (m : SortedMap κ ν) (k : κ) (v : ν) : SortedMap κ ν := ⟨insert k v m.entries, insert_ordered m.ordered⟩

/-- A key after all others goes to the end. -/
theorem insert_last (after : ∀ e ∈ entries, e.1 < k) : insert k v entries = entries ++ [(k, v)] := by
  induction entries with
  | nil => rfl
  | cons first entries ih =>
    have later : first.1 < k := after first List.mem_cons_self
    rw [insert, if_neg (not_lt_of_gt later), if_neg (ne_of_gt later),
      ih fun e member => after e (List.mem_cons_of_mem _ member)]
    rfl

/-- A key that is absent adds its entry and keeps the others. -/
theorem mem_insert_absent (absent : ∀ e ∈ entries, e.1 ≠ k) : e ∈ insert k v entries ↔ e = (k, v) ∨ e ∈ entries := by
  induction entries with
  | nil => simp [insert]
  | cons first entries ih =>
    rw [insert]
    split_ifs with below same
    · exact List.mem_cons
    · exact absurd same.symm (absent first List.mem_cons_self)
    · rw [List.mem_cons, ih fun e member => absent e (List.mem_cons_of_mem _ member), List.mem_cons]
      exact or_left_comm

end SortedMap

end KataGo.Lib
