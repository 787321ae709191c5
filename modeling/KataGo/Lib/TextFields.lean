import Mathlib.Data.List.DropRight

/-! Trimming a list at both ends, and cutting it at a delimiter as a line reader does. -/

namespace KataGo.Lib.TextFields

variable {α : Type*} {p : α → Bool} {a delim : α} {cs rest token row : List α} {rows : List (List α)}

/-- Drop what satisfies `p` off both ends. -/
def trim (p : α → Bool) (cs : List α) : List α := (cs.reverse.dropWhile p).reverse.dropWhile p

theorem trim_eq_self (first : ∀ c ∈ cs.head?, p c = false) (last : ∀ c ∈ cs.getLast?, p c = false) : trim p cs = cs := by
  have back : cs.reverse.dropWhile p = cs.reverse := by
    cases reversed : cs.reverse with
    | nil => rfl
    | cons c rest =>
      have ending : cs.getLast? = some c := by
        rw [← List.head?_reverse, reversed]
        rfl
      rw [List.dropWhile_cons_of_neg (by simp [last c ending])]
  rw [trim, back, List.reverse_reverse]
  cases cs with
  | nil => rfl
  | cons c rest => rw [List.dropWhile_cons_of_neg (by simp [first c rfl])]

theorem trim_of_all (clean : ∀ c ∈ cs, p c = false) : trim p cs = cs :=
  trim_eq_self (fun c found => clean c (List.mem_of_mem_head? found)) fun c found => clean c (List.mem_of_getLast? found)

/-- Nothing before an element that stays is lost to the trimming of the end. -/
theorem rdropWhile_append_stop (front back : List α) (stop : p a = false) :
    (front ++ a :: back).rdropWhile p = front ++ a :: back.rdropWhile p := by
  induction back using List.reverseRecOn with
  | nil => exact List.rdropWhile_concat_neg p front a (by simp [stop])
  | append_singleton back c ih =>
    rw [← List.cons_append, ← List.append_assoc, List.rdropWhile_concat, List.rdropWhile_concat]
    split_ifs
    · exact ih
    · simp

theorem trim_append_stop {front : List α} (back : List α) (first : ∀ c ∈ (front ++ [a]).head?, p c = false)
    (stop : p a = false) : trim p (front ++ a :: back) = front ++ a :: back.rdropWhile p := by
  show ((front ++ a :: back).rdropWhile p).dropWhile p = _
  rw [rdropWhile_append_stop front back stop]
  cases front with
  | nil => exact List.dropWhile_cons_of_neg (by simp [stop])
  | cons c front => exact List.dropWhile_cons_of_neg (by simp [first c rfl])

theorem trim_cons_stop (back : List α) (stop : p a = false) : trim p (a :: back) = a :: back.rdropWhile p := by
  have first : ∀ c ∈ (([] : List α) ++ [a]).head?, p c = false := fun c found => Option.some.inj found ▸ stop
  exact trim_append_stop back first stop

theorem trim_blank_append {lead : List α} (blank : ∀ c ∈ lead, p c) (cs : List α) :
    trim p (lead ++ cs) = trim p cs := by
  show ((lead ++ cs).rdropWhile p).dropWhile p = (cs.rdropWhile p).dropWhile p
  induction cs using List.reverseRecOn with
  | nil => rw [List.append_nil, List.rdropWhile_eq_nil_iff.2 blank, List.rdropWhile_nil]
  | append_singleton cs c ih =>
    rw [← List.append_assoc, List.rdropWhile_concat, List.rdropWhile_concat]
    split_ifs
    · exact ih
    · rw [List.append_assoc, List.dropWhile_append_of_pos blank]

/-- Trimming the end first changes nothing. -/
theorem trim_rdropWhile (cs : List α) : trim p (cs.rdropWhile p) = trim p cs := by
  show ((cs.rdropWhile p).rdropWhile p).dropWhile p = (cs.rdropWhile p).dropWhile p
  rw [List.rdropWhile_idempotent]

theorem trim_sublist (cs : List α) : (trim p cs).Sublist cs :=
  (List.dropWhile_sublist p).trans (List.rdropWhile_prefix p cs).sublist

theorem getLast?_trim {c : α} (found : c ∈ (trim p cs).getLast?) : p c = false := by
  have kept : ¬ trim p cs = [] := by
    intro empty
    rw [empty] at found
    cases found
  have ending : c ∈ (cs.rdropWhile p).getLast? := by
    obtain ⟨front, same⟩ := List.dropWhile_suffix (l := cs.rdropWhile p) p
    rw [← same, show (cs.rdropWhile p).dropWhile p = trim p cs from rfl, List.getLast?_append_of_ne_nil _ kept]
    exact found
  obtain ⟨nonempty, rfl⟩ := List.mem_getLast?_eq_getLast ending
  exact Bool.eq_false_iff.2 (List.rdropWhile_last_not p cs nonempty)

section Split

variable [DecidableEq α]

/-- The fields before each delimiter, and what is left after the last one if it is not empty. -/
def splitFrom (delim : α) (token : List α) : List α → List (List α)
  | [] => if token = [] then [] else [token.reverse]
  | c :: rest => if c = delim then token.reverse :: splitFrom delim [] rest else splitFrom delim (c :: token) rest

def split (delim : α) (cs : List α) : List (List α) := splitFrom delim [] cs

theorem splitFrom_row (clean : delim ∉ row) :
    splitFrom delim token (row ++ delim :: rest) = (token.reverse ++ row) :: splitFrom delim [] rest := by
  induction row generalizing token with
  | nil => rw [List.nil_append, splitFrom, if_pos rfl, List.append_nil]
  | cons c row ih =>
    rw [List.mem_cons, not_or] at clean
    rw [List.cons_append, splitFrom, if_neg (Ne.symm clean.1), ih clean.2, List.reverse_cons, List.append_assoc]
    rfl

theorem splitFrom_last (clean : delim ∉ row) (nonempty : token ≠ [] ∨ row ≠ []) :
    splitFrom delim token row = [token.reverse ++ row] := by
  induction row generalizing token with
  | nil => rw [splitFrom, if_neg (nonempty.resolve_right (not_not.2 rfl)), List.append_nil]
  | cons c row ih =>
    rw [List.mem_cons, not_or] at clean
    rw [splitFrom, if_neg (Ne.symm clean.1), ih clean.2 (.inl (List.cons_ne_nil _ _)), List.reverse_cons, List.append_assoc]
    rfl

theorem split_two {left right : List α} (cleanLeft : delim ∉ left) (cleanRight : delim ∉ right) (nonempty : right ≠ []) :
    split delim (left ++ delim :: right) = [left, right] := by
  rw [split, splitFrom_row cleanLeft, splitFrom_last cleanRight (.inr nonempty)]
  rfl

/-- Rows that each end with the delimiter are read back. -/
theorem split_rows (clean : ∀ row ∈ rows, delim ∉ row) : split delim (rows.flatMap fun row => row ++ [delim]) = rows := by
  induction rows with
  | nil => rfl
  | cons row rows ih =>
    rw [List.flatMap_cons, List.append_assoc, List.singleton_append, split, splitFrom_row (clean row List.mem_cons_self),
      ← split, ih fun row member => clean row (List.mem_cons_of_mem _ member)]
    rfl

end Split

end KataGo.Lib.TextFields
