import KataGo.Lib.Json

/-! Equality of JSON values as the runtime has it. -/

namespace KataGo.Lib

/-- How the runtime compares its floating-point numbers with each other and with integers. -/
class NumberEq (F : Type) where
  same : F → F → Bool
  sameInt : F → Int → Bool

section Equality

variable {F : Type} [NumberEq F]

/-- The number that a value is; the truth values are numbers too. -/
def Json.number : Json F → Option (F ⊕ Int)
  | .bool b => some (.inr (if b then 1 else 0))
  | .int n => some (.inr n)
  | .float x => some (.inl x)
  | _ => none

def sameNumber : F ⊕ Int → F ⊕ Int → Bool
  | .inl x, .inl y => NumberEq.same x y
  | .inl x, .inr n => NumberEq.sameInt x n
  | .inr n, .inl x => NumberEq.sameInt x n
  | .inr m, .inr n => m = n

mutual
/-- Equality of values as the runtime has it: the order of the keys does not count. -/
def sameJson : Json F → Json F → Bool
  | .null, other => other.isNull
  | .str s, other => other.isStr s
  | .arr items, .arr others => sameItems items others
  | .obj fields, .obj others => fields.length = others.length && sameFields fields others
  | value, other =>
      match Json.number value, Json.number other with
      | some x, some y => sameNumber x y
      | _, _ => false

def sameItems : List (Json F) → List (Json F) → Bool
  | [], [] => true
  | v :: items, w :: others => sameJson v w && sameItems items others
  | _, _ => false

def sameFields : List (String × Json F) → List (String × Json F) → Bool
  | [], _ => true
  | (key, v) :: fields, others =>
      (match others.lookup key with
        | some w => sameJson v w
        | none => false) && sameFields fields others
end

end Equality

end KataGo.Lib
