import Mathlib.Data.List.Basic

/-! What the runtime does with strings: white space, case, and how a string is shown. -/

namespace KataGo.Lib

/-- The characters that `str.strip` removes. -/
def isSpace (c : Char) : Bool :=
  (9 ≤ c.toNat ∧ c.toNat ≤ 13) ∨ (28 ≤ c.toNat ∧ c.toNat ≤ 32) ∨ c.toNat = 0x85 ∨ c.toNat = 0xA0 ∨
    c.toNat = 0x1680 ∨ (0x2000 ≤ c.toNat ∧ c.toNat ≤ 0x200A) ∨ c.toNat = 0x2028 ∨ c.toNat = 0x2029 ∨
    c.toNat = 0x202F ∨ c.toNat = 0x205F ∨ c.toNat = 0x3000

def strip (cs : List Char) : List Char := ((cs.dropWhile isSpace).reverse.dropWhile isSpace).reverse

/-- The lower case of the characters that have one in ASCII: of those outside it only the Kelvin
sign does. -/
def lowerChar (c : Char) : Char := if c = Char.ofNat 0x212A then 'k' else c.toLower

def lower (cs : List Char) : List Char := cs.map lowerChar

def dashed (cs : List Char) : List Char := cs.map fun c => if c = '_' then '-' else c

/-- A string as `repr` shows it; characters outside ASCII are shown as they are. -/
def reprText (s : String) : String :=
  let quote := if '\'' ∈ s.toList ∧ '"' ∉ s.toList then '"' else '\''
  let hexDigit (n : Nat) : Char := Nat.digitChar n
  let shown (c : Char) : List Char :=
    if c = quote ∨ c = '\\' then ['\\', c]
    else if c = '\n' then ['\\', 'n']
    else if c = '\r' then ['\\', 'r']
    else if c = '\t' then ['\\', 't']
    else if c.toNat < 32 ∨ c.toNat = 127 then ['\\', 'x', hexDigit (c.toNat / 16), hexDigit (c.toNat % 16)]
    else [c]
  String.ofList ([quote] ++ s.toList.flatMap shown ++ [quote])

/-- Nothing is stripped from a text that begins and ends with something else than a space. -/
theorem strip_eq_self {cs : List Char} (first : ∀ c ∈ cs.head?, isSpace c = false)
    (last : ∀ c ∈ cs.getLast?, isSpace c = false) : strip cs = cs := by
  have front : cs.dropWhile isSpace = cs := by
    cases cs with
    | nil => rfl
    | cons c cs => rw [List.dropWhile_cons_of_neg (by simp [first c rfl])]
  have back : cs.reverse.dropWhile isSpace = cs.reverse := by
    cases reversed : cs.reverse with
    | nil => rfl
    | cons c rest =>
      have end_ : cs.getLast? = some c := by
        rw [← List.head?_reverse, reversed]
        rfl
      rw [List.dropWhile_cons_of_neg (by simp [last c end_])]
  rw [strip, front, back, List.reverse_reverse]

end KataGo.Lib
