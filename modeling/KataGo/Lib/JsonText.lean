import KataGo.Lib.Json
import Mathlib.Data.List.Sort
import Mathlib.Data.Nat.Digits.Defs
import Mathlib.Data.String.Basic

/-! The canonical text of a JSON value, and a JSON parser. -/

namespace KataGo.Lib

/-- A scanned number: its text, and whether it has a fraction or an exponent. -/
structure NumberToken where
  text : List Char
  isFloat : Bool

namespace NumberToken

def isDigit (c : Char) : Bool := '0' ≤ c ∧ c ≤ '9'

/-- The sign and the digits before the point. -/
def scanWhole : List Char → Option (List Char × List Char)
  | '-' :: '0' :: rest => some (['-', '0'], rest)
  | '-' :: c :: rest =>
      if isDigit c then some ('-' :: c :: rest.takeWhile isDigit, rest.dropWhile isDigit) else none
  | '0' :: rest => some (['0'], rest)
  | c :: rest => if isDigit c then some (c :: rest.takeWhile isDigit, rest.dropWhile isDigit) else none
  | [] => none

/-- A fraction needs a digit after the point. -/
def scanFraction : List Char → List Char × List Char
  | '.' :: c :: rest =>
      if isDigit c then ('.' :: c :: rest.takeWhile isDigit, rest.dropWhile isDigit) else ([], '.' :: c :: rest)
  | text => ([], text)

def scanExponent (text : List Char) : List Char × List Char :=
  match text with
  | e :: sign :: c :: rest =>
      if (e = 'e' ∨ e = 'E') ∧ (sign = '+' ∨ sign = '-') ∧ isDigit c then
        (e :: sign :: c :: rest.takeWhile isDigit, rest.dropWhile isDigit)
      else if (e = 'e' ∨ e = 'E') ∧ isDigit sign then
        (e :: sign :: (c :: rest).takeWhile isDigit, (c :: rest).dropWhile isDigit)
      else ([], text)
  | [e, c] => if (e = 'e' ∨ e = 'E') ∧ isDigit c then ([e, c], []) else ([], text)
  | _ => ([], text)

def scan (text : List Char) : Option (NumberToken × List Char) := do
  let (whole, rest) ← scanWhole text
  let (fraction, rest) := scanFraction rest
  let (exponent, rest) := scanExponent rest
  return (⟨whole ++ fraction ++ exponent, ¬(fraction.isEmpty ∧ exponent.isEmpty)⟩, rest)

/-- The text goes on with nothing that could belong to a number. -/
def Stops (rest : List Char) : Prop := ∀ c ∈ rest.head?, isDigit c = false ∧ c ≠ '.' ∧ c ≠ 'e' ∧ c ≠ 'E'

end NumberToken

/-- How a runtime writes and reads its numbers. Floating-point numbers that are finite are
written with a fraction or an exponent, in a form that reads back as the same number; numbers
of more than `maxStrDigits` digits are not converted, unless that limit is zero. -/
class NumberText (F : Type) where
  isFinite : F → Bool
  repr : F → List Char
  parse : List Char → F
  maxStrDigits : Nat
  scan_repr : ∀ x rest, isFinite x = true → NumberToken.Stops rest →
    NumberToken.scan (repr x ++ rest) = some (⟨repr x, true⟩, rest)
  parse_repr : ∀ x, isFinite x = true → parse (repr x) = x

namespace Json

variable {F : Type} [NumberText F]

def decimal (n : Nat) : List Char := if n = 0 then ['0'] else (Nat.digits 10 n).reverse.map Nat.digitChar

def intText (n : Int) : List Char := if n < 0 then '-' :: decimal n.natAbs else decimal n.natAbs

/-- Whether a number of so many digits is converted to and from text. -/
def withinDigits (F : Type) [NumberText F] (digits : Nat) : Bool :=
  NumberText.maxStrDigits F = 0 ∨ digits ≤ NumberText.maxStrDigits F

def hexDigit (n : Nat) : Char := Nat.digitChar n

/-- The characters with an escape of one letter. -/
def shortEscape : Char → Option Char
  | '"' => some '"'
  | '\\' => some '\\'
  | '\n' => some 'n'
  | '\r' => some 'r'
  | '\t' => some 't'
  | '\x08' => some 'b'
  | '\x0c' => some 'f'
  | _ => none

def escape (c : Char) : List Char :=
  match shortEscape c with
  | some e => ['\\', e]
  | none =>
      if c.toNat < 32 then ['\\', 'u', '0', '0', hexDigit (c.toNat / 16), hexDigit (c.toNat % 16)]
      else [c]

def quoted (s : String) : List Char := '"' :: s.toList.flatMap escape ++ ['"']

mutual
def text : Json F → List Char
  | .null => ['n', 'u', 'l', 'l']
  | .bool true => ['t', 'r', 'u', 'e']
  | .bool false => ['f', 'a', 'l', 's', 'e']
  | .int n => intText n
  | .float x => NumberText.repr x
  | .str s => quoted s
  | .arr [] => ['[', ']']
  | .arr (v :: rest) => '[' :: text v ++ textItems rest
  | .obj [] => ['{', '}']
  | .obj ((key, v) :: rest) => '{' :: quoted key ++ ':' :: text v ++ textFields rest

/-- The items after the first, with the closing bracket. -/
def textItems : List (Json F) → List Char
  | [] => [']']
  | v :: rest => ',' :: text v ++ textItems rest

def textFields : List (String × Json F) → List Char
  | [] => ['}']
  | (key, v) :: rest => ',' :: quoted key ++ ':' :: text v ++ textFields rest
end

mutual
/-- Whether a value can be written: no number that is not finite or too long. -/
def encodable : Json F → Bool
  | .int n => withinDigits F (decimal n.natAbs).length
  | .float x => NumberText.isFinite x
  | .arr items => encodableItems items
  | .obj fields => encodableFields fields
  | _ => true

def encodableItems : List (Json F) → Bool
  | [] => true
  | v :: rest => encodable v && encodableItems rest

def encodableFields : List (String × Json F) → Bool
  | [] => true
  | (_, v) :: rest => encodable v && encodableFields rest
end

omit [NumberText F] in
mutual
/-- Whether the keys of every object are different. -/
def keyed : Json F → Bool
  | .arr items => keyedItems items
  | .obj fields => decide (fields.map Prod.fst).Nodup && keyedFields fields
  | _ => true

def keyedItems : List (Json F) → Bool
  | [] => true
  | v :: rest => keyed v && keyedItems rest

def keyedFields : List (String × Json F) → Bool
  | [] => true
  | (_, v) :: rest => keyed v && keyedFields rest
end

/-- The order of the keys of two fields. -/
def keyLe (a b : String × Json F) : Prop := a.1 ≤ b.1

instance : DecidableRel (keyLe (F := F)) := fun a b => inferInstanceAs (Decidable (a.1 ≤ b.1))

mutual
/-- The value with the keys of every object in order. -/
def sorted : Json F → Json F
  | .arr items => .arr (sortedItems items)
  | .obj fields => .obj ((sortedFields fields).insertionSort keyLe)
  | v => v

def sortedItems : List (Json F) → List (Json F)
  | [] => []
  | v :: rest => sorted v :: sortedItems rest

def sortedFields : List (String × Json F) → List (String × Json F)
  | [] => []
  | (key, v) :: rest => (key, sorted v) :: sortedFields rest
end

/-- The canonical text of a value, if it can be written. -/
def canonical (v : Json F) : Option (List Char) := if encodable v then some (text (sorted v)) else none

/-- What a parser does with the pairs of an object and with `NaN` and the infinities. -/
structure Hooks (F : Type) where
  object : List (String × Json F) → Option (Json F)
  constant : List Char → Option F

def skipSpace (text : List Char) : List Char :=
  text.dropWhile fun c => c = ' ' ∨ c = '\t' ∨ c = '\n' ∨ c = '\r'

def hexValue (c : Char) : Option Nat :=
  if '0' ≤ c ∧ c ≤ '9' then some (c.toNat - '0'.toNat)
  else if 'a' ≤ c ∧ c ≤ 'f' then some (c.toNat - 'a'.toNat + 10)
  else if 'A' ≤ c ∧ c ≤ 'F' then some (c.toNat - 'A'.toNat + 10)
  else none

def hex4 (a b c d : Char) : Option Nat := do
  return ((← hexValue a) * 16 + (← hexValue b)) * 256 + (← hexValue c) * 16 + (← hexValue d)

def unescape : Char → Option Char
  | '"' => some '"'
  | '\\' => some '\\'
  | '/' => some '/'
  | 'b' => some '\x08'
  | 'f' => some '\x0c'
  | 'n' => some '\n'
  | 'r' => some '\r'
  | 't' => some '\t'
  | _ => none

def isHigh (code : Nat) : Bool := 0xD800 ≤ code ∧ code ≤ 0xDBFF

def isLow (code : Nat) : Bool := 0xDC00 ≤ code ∧ code ≤ 0xDFFF

/-- The characters up to the closing quote. A first half of a surrogate pair has to be
followed by its second half: one half alone is no character. -/
def parseString (pending : Option Nat) : List Char → Option (List Char × List Char)
  | [] => none
  | '"' :: rest => if pending = none then some ([], rest) else none
  | '\\' :: 'u' :: a :: b :: c :: d :: rest => do
      let code ← hex4 a b c d
      match pending with
      | some high =>
          if isLow code then
            let (s, rest) ← parseString none rest
            return (Char.ofNat (0x10000 + (high - 0xD800) * 0x400 + (code - 0xDC00)) :: s, rest)
          else none
      | none =>
          if isHigh code then parseString (some code) rest
          else if isLow code then none
          else
            let (s, rest) ← parseString none rest
            return (Char.ofNat code :: s, rest)
  | '\\' :: e :: rest => do
      let c ← unescape e
      let (s, rest) ← parseString none rest
      if pending = none then return (c :: s, rest) else none
  | c :: rest => do
      let (s, rest) ← parseString none rest
      if pending = none ∧ 32 ≤ c.toNat ∧ c ≠ '\\' then return (c :: s, rest) else none

/-- The number of a token without fraction and exponent. -/
def intOfText (digits : List Char) : Int :=
  match digits with
  | '-' :: digits => -(digits.foldl (fun n c => n * 10 + (c.toNat - '0'.toNat)) 0 : Nat)
  | digits => (digits.foldl (fun n c => n * 10 + (c.toNat - '0'.toNat)) 0 : Nat)

def parseNumber (text : List Char) : Option (Json F × List Char) := do
  let (token, rest) ← NumberToken.scan text
  if token.isFloat then return (.float (NumberText.parse token.text), rest)
  else if withinDigits F (token.text.filter NumberToken.isDigit).length then return (.int (intOfText token.text), rest)
  else none

mutual
def parseValue (hooks : Hooks F) : Nat → List Char → Option (Json F × List Char)
  | 0, _ => none
  | fuel + 1, text =>
      match text with
      | '"' :: rest => do
          let (s, rest) ← parseString none rest
          return (.str (String.ofList s), rest)
      | '[' :: rest =>
          match skipSpace rest with
          | ']' :: rest => some (.arr [], rest)
          | rest => do
              let (items, rest) ← parseItems hooks fuel rest
              return (.arr items, rest)
      | '{' :: rest =>
          match skipSpace rest with
          | '}' :: rest => do return (← hooks.object [], rest)
          | rest => do
              let (pairs, rest) ← parsePairs hooks fuel rest
              return (← hooks.object pairs, rest)
      | 'n' :: 'u' :: 'l' :: 'l' :: rest => some (.null, rest)
      | 't' :: 'r' :: 'u' :: 'e' :: rest => some (.bool true, rest)
      | 'f' :: 'a' :: 'l' :: 's' :: 'e' :: rest => some (.bool false, rest)
      | 'N' :: 'a' :: 'N' :: rest => do return (.float (← hooks.constant "NaN".toList), rest)
      | 'I' :: 'n' :: 'f' :: 'i' :: 'n' :: 'i' :: 't' :: 'y' :: rest => do
          return (.float (← hooks.constant "Infinity".toList), rest)
      | '-' :: 'I' :: 'n' :: 'f' :: 'i' :: 'n' :: 'i' :: 't' :: 'y' :: rest => do
          return (.float (← hooks.constant "-Infinity".toList), rest)
      | text => parseNumber text

def parseItems (hooks : Hooks F) : Nat → List Char → Option (List (Json F) × List Char)
  | 0, _ => none
  | fuel + 1, text => do
      let (v, rest) ← parseValue hooks fuel text
      match skipSpace rest with
      | ']' :: rest => return ([v], rest)
      | ',' :: rest =>
          let (items, rest) ← parseItems hooks fuel (skipSpace rest)
          return (v :: items, rest)
      | _ => none

def parsePairs (hooks : Hooks F) : Nat → List Char → Option (List (String × Json F) × List Char)
  | 0, _ => none
  | fuel + 1, text =>
      match text with
      | '"' :: rest => do
          let (key, rest) ← parseString none rest
          match skipSpace rest with
          | ':' :: rest =>
              let (v, rest) ← parseValue hooks fuel (skipSpace rest)
              match skipSpace rest with
              | '}' :: rest => return ([(String.ofList key, v)], rest)
              | ',' :: rest =>
                  let (pairs, rest) ← parsePairs hooks fuel (skipSpace rest)
                  return ((String.ofList key, v) :: pairs, rest)
              | _ => none
          | _ => none
      | _ => none
end

/-- A whole text, with nothing but space around the value. -/
def loads (hooks : Hooks F) (text : List Char) : Option (Json F) := do
  let (v, rest) ← parseValue hooks (2 * text.length + 1) (skipSpace text)
  if text.head? ≠ some (Char.ofNat 0xFEFF) ∧ skipSpace rest = [] then return v else none

end Json
end KataGo.Lib
