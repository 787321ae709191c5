import Mathlib.Data.Finset.Fold

/-! Folding an operation such as XOR over the labels of a finite set. The fold changes with a
label by what the old and the new label contribute, so that it can be kept up to date
one label at a time. -/

namespace KataGo.Lib.XorFold

variable {V κ H : Type*} [DecidableEq V] (op : H → H → H) [Std.Commutative op] [Std.Associative op]
  {s : Finset V} {base zero : H} {f : V → κ → H} {c c' : V → κ} {p : V}

omit [DecidableEq V] in
theorem fold_congr (same : ∀ q ∈ s, c' q = c q) :
    s.fold op base (fun q => f q (c' q)) = s.fold op base fun q => f q (c q) :=
  Finset.fold_congr fun q member => by rw [same q member]

/-- Relabelling one element exchanges its contribution. -/
theorem fold_update (cancel : ∀ x a, op (op x a) a = x) (member : p ∈ s) (k : κ) :
    s.fold op base (fun q => f q (Function.update c p k q)) =
      op (op (s.fold op base fun q => f q (c q)) (f p (c p))) (f p k) := by
  have split := Finset.insert_erase member
  have absent : p ∉ s.erase p := Finset.notMem_erase _ _
  have rest : (s.erase p).fold op base (fun q => f q (Function.update c p k q)) =
      (s.erase p).fold op base fun q => f q (c q) :=
    fold_congr op fun q inside => Function.update_of_ne (Finset.ne_of_mem_erase inside) ..
  have swap : ∀ x a, op a x = op x a := fun x a => Std.Commutative.comm a x
  rw [← split, Finset.fold_insert absent, Finset.fold_insert absent, rest, Function.update_self,
    swap _ (f p (c p)), cancel, swap]

omit [DecidableEq V] in
/-- Labels that contribute nothing. -/
theorem fold_zero (neutral : ∀ x, op zero x = x) (nothing : ∀ q ∈ s, f q (c q) = zero) :
    s.fold op base (fun q => f q (c q)) = base := by
  classical
  induction s using Finset.induction_on with
  | empty => rfl
  | insert q s fresh ih =>
    rw [Finset.fold_insert fresh, ih fun x member => nothing x (Finset.mem_insert_of_mem member),
      nothing q (Finset.mem_insert_self q s), neutral]

end KataGo.Lib.XorFold
