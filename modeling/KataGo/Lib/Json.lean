import Mathlib.Data.List.Basic

/-! JSON values. The type of the floating-point numbers is a parameter. -/

namespace KataGo.Lib

inductive Json (F : Type) where
  | null
  | bool (b : Bool)
  | int (n : Int)
  | float (x : F)
  | str (s : String)
  | arr (items : List (Json F))
  | obj (fields : List (String × Json F))

namespace Json

variable {F : Type}

/-- The value of a key, `null` for a key that is not there. -/
def get (fields : List (String × Json F)) (key : String) : Json F :=
  (fields.lookup key).getD .null

def isNull : Json F → Bool
  | .null => true
  | _ => false

/-- Whether the value is this very string. -/
def isStr (s : String) : Json F → Bool
  | .str t => t = s
  | _ => false

theorem isStr_iff {v : Json F} {s : String} : v.isStr s = true ↔ v = .str s := by
  cases v <;> simp [isStr]

end Json
end KataGo.Lib
