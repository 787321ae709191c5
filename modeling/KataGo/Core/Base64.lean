import Mathlib.Algebra.Group.Nat.Defs
import Mathlib.Data.List.Basic
import Mathlib.Data.Nat.Notation

/-! `core/base64.cpp`. Strings are lists of bytes. -/

namespace KataGo.Core.Base64

abbrev Bytes := List UInt8

def base64Chars : Bytes :=
  "ABCDEFGHIJKLMNOPQRSTUVWXYZabcdefghijklmnopqrstuvwxyz0123456789+/".toList.map fun c => UInt8.ofNat c.toNat

def decodeTable : List Int := [
  -1,-1,-1,-1,-1,-1,-1,-1, -1,-1,-1,-1,-1,-1,-1,-1,
  -1,-1,-1,-1,-1,-1,-1,-1, -1,-1,-1,-1,-1,-1,-1,-1,
  -1,-1,-1,-1,-1,-1,-1,-1, -1,-1,-1,62,-1,-1,-1,63,
  52,53,54,55,56,57,58,59, 60,61,-1,-1,-1,-1,-1,-1,
  -1, 0, 1, 2, 3, 4, 5, 6,  7, 8, 9,10,11,12,13,14,
  15,16,17,18,19,20,21,22, 23,24,25,-1,-1,-1,-1,-1,
  -1,26,27,28,29,30,31,32, 33,34,35,36,37,38,39,40,
  41,42,43,44,45,46,47,48, 49,50,51,-1,-1,-1,-1,-1]

/-- The character of six bits. -/
def charOf (e : Nat) : UInt8 := base64Chars.getD e 0

/-- `=` -/
def padding : UInt8 := 61

/-- The four characters of three bytes. -/
def group (c0 c1 c2 : Nat) : Bytes :=
  let e0 := c0 >>> 2
  let e1 := ((c0 &&& 0x3) <<< 4) ||| (c1 >>> 4)
  let e2 := ((c1 &&& 0xf) <<< 2) ||| (c2 >>> 6)
  let e3 := c2 &&& 0x3f
  [charOf e0, charOf e1, charOf e2, charOf e3]

/-- The loop over the bytes, three at a time; zeros stand for those that are missing at the end. -/
def groups : Bytes → Bytes
  | [] => []
  | [c0] => group c0.toNat 0 0
  | [c0, c1] => group c0.toNat c1.toNat 0
  | c0 :: c1 :: c2 :: rest => group c0.toNat c1.toNat c2.toNat ++ groups rest

def encode (s : Bytes) : Bytes :=
  let result := groups s
  let excess := s.length - s.length / 3 * 3
  if excess = 2 then result.set (result.length - 1) padding
  else if excess = 1 then (result.set (result.length - 1) padding).set (result.length - 2) padding
  else result

/-- The variables of the loop over the text. -/
structure Decoder where
  result : Bytes
  carry : Nat
  carryNumBits : Nat

/-- The six bits of a character. Characters are signed, so that those from 128 on are refused too. -/
def bitsOf (c : UInt8) : Except String Nat :=
  let refused : Except String Nat := .error ("Base64::decode: invalid character " ++ String.singleton (Char.ofNat c.toNat))
  if c.toNat ≥ 128 ∨ c < 43 ∨ c > 122 then refused
  else
    let d := decodeTable.getD c.toNat (-1)
    if d < 0 then refused else .ok d.toNat

/-- The step of the loop for six bits. -/
def Decoder.push (t : Decoder) (d : Nat) : Decoder :=
  let carryNumBits := t.carryNumBits + 6
  let carry := (t.carry <<< 6) ||| d
  if carryNumBits ≥ 8 then
    let extracted := carry >>> (carryNumBits - 8)
    { result := t.result ++ [UInt8.ofNat extracted]
      carry := carry ^^^ (extracted <<< (carryNumBits - 8))
      carryNumBits := carryNumBits - 8 }
  else { t with carry, carryNumBits }

/-- The loop up to the first `=`, and what is left of the text there. -/
def scan : Bytes → Decoder → Except String (Decoder × Bytes)
  | [], t => .ok (t, [])
  | c :: rest, t =>
      if c = padding then .ok (t, c :: rest)
      else do
        let d ← bitsOf c
        scan rest (t.push d)

def decode (s : Bytes) : Except String Bytes := do
  let (t, tail) ← scan s ⟨[], 0, 0⟩
  if tail.any fun c => c ≠ padding then .error "Base64::decode: string contains other characters after '='"
  else if t.carry ≠ 0 then .error "Base64::decode: unexpected end of decode, carry is nonzero"
  else .ok t.result

example : encode ("sure.".toList.map fun c => UInt8.ofNat c.toNat) = "c3VyZS4=".toList.map fun c => UInt8.ofNat c.toNat := by
  decide

end KataGo.Core.Base64
