import KataGo.Lib.Dict
import KataGo.Lib.JsonRoundTrip

/-! How objects are made of their pairs, and objects that are copied through their canonical text. -/

namespace KataGo.Lib

variable {F : Type} [NumberText F]

/-- The dictionary of the pairs: the last value of a key counts. -/
def dictOf (pairs : List (String × Json F)) : List (String × Json F) :=
  (pairs.foldl (fun d pair => d.set pair.1 pair.2) (Dict.empty : Dict String (Json F))).entries

def plainHooks : Json.Hooks F where
  object pairs := some (.obj (dictOf pairs))
  constant text := some (NumberText.parse text)

def uniqueHooks : Json.Hooks F where
  object pairs := if (pairs.map Prod.fst).Nodup then some (.obj pairs) else none
  constant _ := none

omit [NumberText F] in
theorem entries_foldl_set {pairs : List (String × Json F)} {d : Dict String (Json F)}
    (distinct : ((d.entries ++ pairs).map Prod.fst).Nodup) :
    (pairs.foldl (fun d pair => d.set pair.1 pair.2) d).entries = d.entries ++ pairs := by
  induction pairs generalizing d with
  | nil => simp
  | cons pair pairs ih =>
    have absent : pair.1 ∉ d.entries.map Prod.fst := by
      rw [List.map_append, List.nodup_append] at distinct
      intro member
      exact distinct.2.2 _ member _ (by simp) rfl
    have added : (d.set pair.1 pair.2).entries = d.entries ++ [pair] := by
      rw [Dict.set, dif_neg absent]
    rw [List.foldl_cons, ih (by rw [added]; simpa using distinct), added]
    simp

theorem plainHooks_faithful : (plainHooks : Json.Hooks F).Faithful := by
  intro fields distinct
  show some (Json.obj (dictOf fields)) = _
  rw [dictOf, entries_foldl_set (by simpa [Dict.empty] using distinct)]
  rfl

omit [NumberText F] in
theorem uniqueHooks_faithful : (uniqueHooks : Json.Hooks F).Faithful := by
  intro fields distinct
  exact if_pos distinct

/-- The fields of an object in the order of their keys, with their values in order. -/
def sortFields (fields : List (String × Json F)) : List (String × Json F) :=
  (Json.sortedFields fields).insertionSort Json.keyLe

/-- A copied object is in order, and copying it again changes nothing. -/
structure Copied (fields : List (String × Json F)) : Prop where
  writable : (Json.obj fields).encodable = true
  distinct : (Json.obj fields).keyed = true
  ordered : sortFields fields = fields

theorem copied_sortFields {fields : List (String × Json F)} (writable : (Json.obj fields).encodable = true)
    (distinct : (Json.obj fields).keyed = true) : Copied (sortFields fields) := by
  have sorted : Json.obj (sortFields fields) = (Json.obj fields).sorted := rfl
  refine ⟨?_, ?_, ?_⟩
  · rw [sorted, Json.encodable_sorted]
    exact writable
  · rw [sorted, Json.keyed_sorted]
    exact distinct
  · have twice := Json.sorted_sorted (Json.obj fields)
    rw [← sorted] at twice
    exact Json.obj.inj twice

theorem copied_nil : Copied ([] : List (String × Json F)) := ⟨rfl, rfl, rfl⟩

omit [NumberText F] in
theorem get_sortedFields (fields : List (String × Json F)) (key : String) :
    Json.get (Json.sortedFields fields) key = (Json.get fields key).sorted := by
  induction fields with
  | nil => rfl
  | cons field fields ih =>
    obtain ⟨name, v⟩ := field
    by_cases same : key = name
    · subst same
      simp [Json.sortedFields, Json.get]
    · have different : (key == name) = false := by simpa using same
      simpa [Json.sortedFields, Json.get, List.lookup_cons, different] using ih

omit [NumberText F] in
theorem get_sortFields_of_nodup {fields : List (String × Json F)} (distinct : (fields.map Prod.fst).Nodup)
    (key : String) : Json.get (sortFields fields) key = (Json.get fields key).sorted := by
  have names : ((Json.sortedFields fields).map Prod.fst).Nodup := by
    rw [Json.sortedFields_eq, List.map_map]
    exact distinct
  rw [sortFields, Json.get_perm names (List.perm_insertionSort _ _), get_sortedFields]

omit [NumberText F] in
theorem get_sortFields {fields : List (String × Json F)} (distinct : (Json.obj fields).keyed = true) (key : String) :
    Json.get (sortFields fields) key = (Json.get fields key).sorted := by
  rw [Json.keyed, Bool.and_eq_true, decide_eq_true_iff] at distinct
  exact get_sortFields_of_nodup distinct.1 key

omit [NumberText F] in
theorem sortedFields_sortFields (fields : List (String × Json F)) :
    Json.sortedFields (sortFields fields) = sortFields fields := by
  rw [Json.sortedFields_eq]
  conv_rhs => rw [← List.map_id (sortFields fields)]
  apply List.map_congr_left
  intro field member
  obtain ⟨old, there, rfl⟩ := Json.mem_sorted_fields.mp member
  rw [Json.sorted_sorted]
  rfl

omit [NumberText F] in
/-- Two objects with the same fields are in order the same. -/
theorem sorted_perm {fields fields' : List (String × Json F)} (distinct : (fields.map Prod.fst).Nodup)
    (perm : fields'.Perm fields) : (Json.obj fields').sorted = (Json.obj fields).sorted := by
  show Json.obj (sortFields fields') = .obj (sortFields fields)
  congr 1
  have moved : (Json.sortedFields fields').Perm (Json.sortedFields fields) := by
    rw [Json.sortedFields_eq, Json.sortedFields_eq]
    exact perm.map _
  have same : (sortFields fields').Perm (sortFields fields) :=
    (List.perm_insertionSort _ _).trans (moved.trans (List.perm_insertionSort _ _).symm)
  refine List.Perm.eq_of_pairwise ?_ (List.pairwise_insertionSort _ _) (List.pairwise_insertionSort _ _) same
  intro field other there present le ge
  have names : ((sortFields fields).map Prod.fst).Nodup := (Json.sorted_keys fields).nodup_iff.mpr distinct
  exact List.inj_on_of_nodup_map names (same.mem_iff.mp there) present (le_antisymm le ge)

omit [NumberText F] in
theorem get_append_ne {fields : List (String × Json F)} {key name : String} (v : Json F) (other : key ≠ name) :
    Json.get (fields ++ [(name, v)]) key = Json.get fields key := by
  have different : (key == name) = false := by simpa using other
  rw [Json.get, Json.get, List.lookup_append, List.lookup_cons, different]
  simp

omit [NumberText F] in
theorem get_append_self {fields : List (String × Json F)} {name : String} (v : Json F)
    (fresh : name ∉ fields.map Prod.fst) : Json.get (fields ++ [(name, v)]) name = v := by
  have absent : fields.lookup name = none := by
    rw [List.lookup_eq_none_iff]
    intro field member
    have different : name ≠ field.1 := by
      intro same
      exact fresh (same ▸ List.mem_map_of_mem member)
    simpa using different
  rw [Json.get, List.lookup_append, absent]
  simp

omit [NumberText F] in
@[simp] theorem isNull_sorted (v : Json F) : v.sorted.isNull = v.isNull := by
  cases v <;> rfl

omit [NumberText F] in
@[simp] theorem isStr_sorted (v : Json F) (s : String) : v.sorted.isStr s = v.isStr s := by
  cases v <;> rfl

section Keys

/-- A parser that makes objects with distinct keys only. -/
def Json.Hooks.Distinct (hooks : Json.Hooks F) : Prop :=
  ∀ pairs v, (∀ pair ∈ pairs, pair.2.keyed = true) → hooks.object pairs = some v → v.keyed = true

omit [NumberText F] in
theorem uniqueHooks_distinct : (uniqueHooks : Json.Hooks F).Distinct := by
  intro pairs v values made
  simp only [uniqueHooks] at made
  split at made
  next distinct =>
    cases made
    rw [Json.keyed, Bool.and_eq_true]
    exact ⟨decide_eq_true distinct, Json.keyedFields_iff.mpr values⟩
  next => cases made

namespace Json

variable {hooks : Hooks F}

theorem parseNumber_keyed {text rest : List Char} {v : Json F} (parsed : parseNumber text = some (v, rest)) :
    v.keyed = true := by
  simp only [parseNumber, Option.bind_eq_bind, Option.bind_eq_some_iff] at parsed
  obtain ⟨⟨token, after⟩, -, parsed⟩ := parsed
  split at parsed
  next => cases parsed; rfl
  next =>
    split at parsed
    next => cases parsed; rfl
    next => cases parsed

/-- What is read with as much fuel has distinct keys in every object. -/
structure ReadsKeyed (hooks : Hooks F) (fuel : Nat) : Prop where
  value : ∀ text v rest, parseValue hooks fuel text = some (v, rest) → v.keyed = true
  items : ∀ text vs rest, parseItems hooks fuel text = some (vs, rest) → ∀ v ∈ vs, v.keyed = true
  pairs : ∀ text ps rest, parsePairs hooks fuel text = some (ps, rest) → ∀ p ∈ ps, p.2.keyed = true

theorem parseValue_keyed {fuel : Nat} (distinct : hooks.Distinct) (below : ReadsKeyed hooks fuel) {text rest : List Char}
    {v : Json F} (parsed : parseValue hooks (fuel + 1) text = some (v, rest)) : v.keyed = true := by
  unfold parseValue at parsed
  split at parsed
  next =>
    obtain ⟨⟨s, after⟩, -, result⟩ := Option.bind_eq_some_iff.mp parsed
    cases result
    rfl
  next =>
    split at parsed
    next => cases parsed; rfl
    next =>
      obtain ⟨⟨items, after⟩, read, result⟩ := Option.bind_eq_some_iff.mp parsed
      cases result
      exact keyedItems_iff.mpr (below.items _ _ _ read)
  next =>
    split at parsed
    next =>
      obtain ⟨made, object, result⟩ := Option.bind_eq_some_iff.mp parsed
      cases result
      exact distinct [] _ (by simp) object
    next =>
      obtain ⟨⟨pairs, after⟩, read, parsed⟩ := Option.bind_eq_some_iff.mp parsed
      obtain ⟨made, object, result⟩ := Option.bind_eq_some_iff.mp parsed
      cases result
      exact distinct pairs _ (below.pairs _ _ _ read) object
  next => cases parsed; rfl
  next => cases parsed; rfl
  next => cases parsed; rfl
  next =>
    obtain ⟨x, -, result⟩ := Option.bind_eq_some_iff.mp parsed
    cases result
    rfl
  next =>
    obtain ⟨x, -, result⟩ := Option.bind_eq_some_iff.mp parsed
    cases result
    rfl
  next =>
    obtain ⟨x, -, result⟩ := Option.bind_eq_some_iff.mp parsed
    cases result
    rfl
  next => exact parseNumber_keyed parsed

theorem parseItems_keyed {fuel : Nat} (below : ReadsKeyed hooks fuel) {text rest : List Char}
    {vs : List (Json F)} (parsed : parseItems hooks (fuel + 1) text = some (vs, rest)) : ∀ v ∈ vs, v.keyed = true := by
  unfold parseItems at parsed
  obtain ⟨⟨first, after⟩, read, parsed⟩ := Option.bind_eq_some_iff.mp parsed
  have keyed := below.value _ _ _ read
  dsimp only at parsed
  split at parsed
  next =>
    cases parsed
    simpa using keyed
  next =>
    obtain ⟨⟨others, after'⟩, more, result⟩ := Option.bind_eq_some_iff.mp parsed
    cases result
    exact List.forall_mem_cons.mpr ⟨keyed, below.items _ _ _ more⟩
  next => cases parsed

theorem parsePairs_keyed {fuel : Nat} (below : ReadsKeyed hooks fuel) {text rest : List Char}
    {ps : List (String × Json F)} (parsed : parsePairs hooks (fuel + 1) text = some (ps, rest)) :
    ∀ p ∈ ps, p.2.keyed = true := by
  unfold parsePairs at parsed
  split at parsed
  next =>
    obtain ⟨⟨key, after⟩, -, parsed⟩ := Option.bind_eq_some_iff.mp parsed
    dsimp only at parsed
    split at parsed
    next =>
      obtain ⟨⟨first, after'⟩, read, parsed⟩ := Option.bind_eq_some_iff.mp parsed
      have keyed := below.value _ _ _ read
      dsimp only at parsed
      split at parsed
      next =>
        cases parsed
        simpa using keyed
      next =>
        obtain ⟨⟨others, last⟩, more, result⟩ := Option.bind_eq_some_iff.mp parsed
        cases result
        exact List.forall_mem_cons.mpr ⟨keyed, below.pairs _ _ _ more⟩
      next => cases parsed
    next => cases parsed
  next => cases parsed

theorem readsKeyed (distinct : hooks.Distinct) (fuel : Nat) : ReadsKeyed hooks fuel := by
  induction fuel with
  | zero =>
    refine ⟨?_, ?_, ?_⟩ <;> · intro _ _ _ parsed; cases parsed
  | succ fuel ih =>
    exact ⟨fun _ _ _ parsed => parseValue_keyed distinct ih parsed, fun _ _ _ parsed => parseItems_keyed ih parsed,
      fun _ _ _ parsed => parsePairs_keyed ih parsed⟩

/-- A text that is read has distinct keys in every object. -/
theorem loads_keyed (distinct : hooks.Distinct) {text : List Char} {v : Json F} (loaded : loads hooks text = some v) :
    v.keyed = true := by
  obtain ⟨⟨w, rest⟩, parsed, result⟩ := Option.bind_eq_some_iff.mp loaded
  dsimp only at result
  split at result
  next =>
    cases result
    exact (readsKeyed distinct _).value _ _ _ parsed
  next => cases result

end Json

end Keys

end KataGo.Lib
