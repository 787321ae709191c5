import Mathlib.Data.List.Nodup
import Mathlib.Data.List.Sort

/-! Dictionaries that remember the order in which their keys were first set. -/

namespace KataGo.Lib

structure Dict (κ ν : Type) where
  entries : List (κ × ν)
  nodup : (entries.map Prod.fst).Nodup

namespace Dict

variable {κ ν : Type} [DecidableEq κ] {d : Dict κ ν} {k k' : κ} {v w : ν}

def empty : Dict κ ν := ⟨[], by simp⟩

def get (d : Dict κ ν) (k : κ) : Option ν := (d.entries.find? fun entry => entry.1 = k).map Prod.snd

def values (d : Dict κ ν) : List ν := d.entries.map Prod.snd

def isEmpty (d : Dict κ ν) : Bool := d.entries.isEmpty

omit [DecidableEq κ] in
theorem ext_entries {d e : Dict κ ν} (same : d.entries = e.entries) : d = e := by
  cases d
  cases e
  cases same
  rfl

/-- The entries in the order of their keys. -/
def sort [LE κ] [DecidableLE κ] (d : Dict κ ν) : Dict κ ν :=
  ⟨d.entries.insertionSort fun a b => a.1 ≤ b.1, ((List.perm_insertionSort _ d.entries).map Prod.fst).nodup_iff.mpr d.nodup⟩

/-- A key that is present keeps its place. -/
def replaced (entries : List (κ × ν)) (k : κ) (v : ν) : List (κ × ν) :=
  entries.map fun entry => if entry.1 = k then (k, v) else entry

theorem replaced_keys (entries : List (κ × ν)) (k : κ) (v : ν) :
    (replaced entries k v).map Prod.fst = entries.map Prod.fst := by
  rw [replaced, List.map_map]
  apply List.map_congr_left
  intro entry _
  by_cases same : entry.1 = k
  · simp [same]
  · simp [same]

def set (d : Dict κ ν) (k : κ) (v : ν) : Dict κ ν :=
  if present : k ∈ d.entries.map Prod.fst then
    ⟨replaced d.entries k v, by rw [replaced_keys]; exact d.nodup⟩
  else
    ⟨d.entries ++ [(k, v)], by
      rw [List.map_append]
      apply List.Nodup.append d.nodup (by simp)
      simpa using present⟩

def erase (d : Dict κ ν) (k : κ) : Dict κ ν :=
  ⟨d.entries.filter fun entry => entry.1 ≠ k, d.nodup.sublist (List.filter_sublist.map Prod.fst)⟩

def mapValues (f : ν → ν) (d : Dict κ ν) : Dict κ ν :=
  ⟨d.entries.map fun entry => (entry.1, f entry.2), by
    rw [List.map_map]
    exact d.nodup⟩

@[simp] theorem get_empty (k : κ) : (empty : Dict κ ν).get k = none := rfl

theorem mem_of_get (found : d.get k = some v) : (k, v) ∈ d.entries := by
  obtain ⟨entry, first, rfl⟩ := Option.map_eq_some_iff.mp found
  have same : entry.1 = k := by simpa using List.find?_some first
  rw [← same]
  exact List.mem_of_find?_eq_some first

theorem get_of_mem (member : (k, v) ∈ d.entries) : d.get k = some v := by
  obtain ⟨entries, nodup⟩ := d
  induction entries with
  | nil => cases member
  | cons entry entries ih =>
    rw [List.map_cons, List.nodup_cons] at nodup
    rcases List.mem_cons.mp member with rfl | later
    · simp [get]
    · have different : entry.1 ≠ k := by
        intro same
        apply nodup.1
        rw [same]
        exact List.mem_map_of_mem later
      have rest := ih nodup.2 later
      simpa [get, different] using rest

theorem get_eq_some_iff : d.get k = some v ↔ (k, v) ∈ d.entries := ⟨mem_of_get, get_of_mem⟩

theorem mem_values_iff : v ∈ d.values ↔ ∃ k, d.get k = some v := by
  constructor
  · intro member
    obtain ⟨entry, present, rfl⟩ := List.mem_map.mp member
    exact ⟨entry.1, get_of_mem present⟩
  · rintro ⟨k, found⟩
    exact List.mem_map.mpr ⟨(k, v), mem_of_get found, rfl⟩

theorem get_eq_none_iff : d.get k = none ↔ k ∉ d.entries.map Prod.fst := by
  rw [Option.eq_none_iff_forall_ne_some, List.mem_map]
  constructor
  · rintro absent ⟨entry, member, rfl⟩
    exact absent entry.2 (get_of_mem member)
  · intro absent v found
    exact absent ⟨(k, v), mem_of_get found, rfl⟩

theorem isEmpty_iff : d.isEmpty = true ↔ ∀ k, d.get k = none := by
  rw [isEmpty, List.isEmpty_iff]
  constructor
  · intro nil k
    rw [get_eq_none_iff, nil]
    simp
  · intro absent
    apply List.eq_nil_iff_forall_not_mem.mpr
    intro entry member
    exact get_eq_none_iff.mp (absent entry.1) (List.mem_map_of_mem member)

theorem mem_replaced_iff (entries : List (κ × ν)) (k : κ) (v : ν) (k' : κ) (w : ν) (different : k' ≠ k) :
    (k', w) ∈ replaced entries k v ↔ (k', w) ∈ entries := by
  rw [replaced, List.mem_map]
  constructor
  · rintro ⟨entry, member, same⟩
    by_cases key : entry.1 = k
    · rw [if_pos key] at same
      exact absurd (Prod.ext_iff.mp same).1.symm different
    · rw [if_neg key] at same
      exact same ▸ member
  · intro member
    exact ⟨(k', w), member, if_neg different⟩

@[simp] theorem get_set_self (d : Dict κ ν) (k : κ) (v : ν) : (d.set k v).get k = some v := by
  apply get_of_mem
  unfold set
  split
  next present =>
    obtain ⟨entry, member, same⟩ := List.mem_map.mp present
    exact List.mem_map.mpr ⟨entry, member, if_pos same⟩
  next absent => simp

theorem get_set_ne (d : Dict κ ν) (v : ν) (different : k' ≠ k) : (d.set k v).get k' = d.get k' := by
  apply Option.ext
  intro w
  show (d.set k v).get k' = some w ↔ d.get k' = some w
  rw [get_eq_some_iff, get_eq_some_iff]
  unfold set
  split
  next present => exact mem_replaced_iff d.entries k v k' w different
  next absent => simp [different]

theorem get_set (d : Dict κ ν) (k k' : κ) (v : ν) :
    (d.set k v).get k' = if k' = k then some v else d.get k' := by
  by_cases same : k' = k
  · subst same
    simp
  · rw [if_neg same, get_set_ne d v same]

theorem get_erase (d : Dict κ ν) (k k' : κ) : (d.erase k).get k' = if k' = k then none else d.get k' := by
  apply Option.ext
  intro w
  show (d.erase k).get k' = some w ↔ _
  rw [get_eq_some_iff, erase, List.mem_filter]
  by_cases same : k' = k
  · simp [same]
  · simp [same, get_eq_some_iff]

theorem get_perm {d e : Dict κ ν} (perm : d.entries.Perm e.entries) (k : κ) : d.get k = e.get k := by
  apply Option.ext
  intro v
  show d.get k = some v ↔ e.get k = some v
  rw [get_eq_some_iff, get_eq_some_iff, perm.mem_iff]

@[simp] theorem get_sort [LE κ] [DecidableLE κ] (d : Dict κ ν) (k : κ) : d.sort.get k = d.get k :=
  get_perm (List.perm_insertionSort _ _) k

omit [DecidableEq κ] in
theorem perm_values_sort [LE κ] [DecidableLE κ] (d : Dict κ ν) : d.sort.values.Perm d.values :=
  (List.perm_insertionSort _ _).map Prod.snd

theorem erase_of_get_none (absent : d.get k = none) : d.erase k = d := by
  apply ext_entries
  show d.entries.filter _ = d.entries
  rw [List.filter_eq_self]
  intro entry member
  rw [decide_eq_true_eq]
  rintro rfl
  exact get_eq_none_iff.mp absent (List.mem_map_of_mem member)

/-- An entry and the rest. -/
theorem perm_of_get (found : d.get k = some v) : d.entries.Perm ((k, v) :: (d.erase k).entries) := by
  obtain ⟨before, after, split⟩ := List.append_of_mem (mem_of_get found)
  have distinct := d.nodup
  rw [split, List.map_append, List.map_cons, List.nodup_append] at distinct
  obtain ⟨-, tail, apart⟩ := distinct
  have kept : (d.erase k).entries = before ++ after := by
    show d.entries.filter _ = _
    rw [split, List.filter_append, List.filter_cons_of_neg (by simp), List.filter_eq_self.2, List.filter_eq_self.2]
    · intro entry member
      rw [decide_eq_true_eq]
      intro same
      have again : entry.1 ∈ after.map Prod.fst := List.mem_map_of_mem member
      rw [same] at again
      exact (List.nodup_cons.1 tail).1 again
    · intro entry member
      rw [decide_eq_true_eq]
      intro same
      exact apart _ (List.mem_map_of_mem member) _ List.mem_cons_self same
  rw [kept, split]
  exact List.perm_middle

theorem erase_set (d : Dict κ ν) (k : κ) (v : ν) : (d.set k v).erase k = d.erase k := by
  apply ext_entries
  show (d.set k v).entries.filter _ = d.entries.filter _
  unfold set
  split_ifs with present
  · show (replaced d.entries k v).filter _ = _
    unfold replaced
    induction d.entries with
    | nil => rfl
    | cons entry rest ih =>
      rw [List.map_cons]
      by_cases same : entry.1 = k
      · rw [if_pos same, List.filter_cons_of_neg (by simp), List.filter_cons_of_neg (by simpa using same), ih]
      · rw [if_neg same, List.filter_cons_of_pos (by simpa using same), List.filter_cons_of_pos (by simpa using same), ih]
  · show (d.entries ++ [(k, v)]).filter _ = _
    rw [List.filter_append, List.filter_cons_of_neg (by simp), List.filter_nil, List.append_nil]

theorem perm_set (d : Dict κ ν) (k : κ) (v : ν) : (d.set k v).entries.Perm ((k, v) :: (d.erase k).entries) := by
  rw [← erase_set d k v]
  exact perm_of_get (get_set_self d k v)

theorem entries_set_fresh (fresh : k ∉ d.entries.map Prod.fst) : (d.set k v).entries = d.entries ++ [(k, v)] := by
  rw [set, dif_neg fresh]

section Filter

variable {p : κ → Bool}

/-- A filter that drops the key does not see what becomes of it. -/
theorem filter_erase (dropped : p k = false) :
    (d.erase k).entries.filter (fun entry => p entry.1) = d.entries.filter fun entry => p entry.1 := by
  show (d.entries.filter _).filter _ = _
  rw [List.filter_filter]
  apply List.filter_congr
  intro entry _
  by_cases same : entry.1 = k
  · simp [same, dropped]
  · simp [same]

theorem filter_set (dropped : p k = false) :
    (d.set k v).entries.filter (fun entry => p entry.1) = d.entries.filter fun entry => p entry.1 := by
  rw [← filter_erase dropped, erase_set, filter_erase dropped]

end Filter

/-- A dictionary is what is read from its entries one by one, each being put behind those before
it. -/
theorem foldlM_set {ε τ : Type} {step : Dict κ ν → τ → Except ε (Dict κ ν)} {encode : κ × ν → τ} {d : Dict κ ν}
    (reads : ∀ acc before entry after, d.entries = before ++ entry :: after → acc.entries = before →
      step acc (encode entry) = .ok (acc.set entry.1 entry.2)) :
    (d.entries.map encode).foldlM step empty = .ok d := by
  have rest : ∀ after before acc, d.entries = before ++ after → acc.entries = before →
      (after.map encode).foldlM step acc = .ok d := by
    intro after
    induction after with
    | nil =>
      intro before acc whole same
      rw [List.append_nil] at whole
      exact congrArg Except.ok (ext_entries (same.trans whole.symm))
    | cons entry after ih =>
      intro before acc whole same
      have fresh : entry.1 ∉ acc.entries.map Prod.fst := by
        have distinct := d.nodup
        rw [whole, List.map_append, List.nodup_append] at distinct
        rw [same]
        intro member
        exact distinct.2.2 _ member _ (by simp) rfl
      rw [List.map_cons, List.foldlM_cons, reads acc before entry after whole same]
      exact ih (before ++ [entry]) _ (by simp [whole]) (by rw [entries_set_fresh fresh, same])
  exact rest d.entries [] empty rfl rfl

theorem get_mapValues (f : ν → ν) (d : Dict κ ν) (k : κ) : (d.mapValues f).get k = (d.get k).map f := by
  rw [get, get, mapValues, List.find?_map, Option.map_map, Option.map_map]
  rfl

end Dict
end KataGo.Lib
