import Mathlib.Algebra.Group.Nat.Defs
import Mathlib.Data.List.Basic
import Mathlib.Data.Nat.Notation

/-! SHA-256, with its digest written in hexadecimal digits. -/

namespace KataGo.Lib.Sha256

/-- The eight working variables. -/
structure Words where
  a : UInt32
  b : UInt32
  c : UInt32
  d : UInt32
  e : UInt32
  f : UInt32
  g : UInt32
  h : UInt32

def initial : Words :=
  ⟨0x6a09e667, 0xbb67ae85, 0x3c6ef372, 0xa54ff53a, 0x510e527f, 0x9b05688c, 0x1f83d9ab, 0x5be0cd19⟩

def constants : List UInt32 :=
  [0x428a2f98, 0x71374491, 0xb5c0fbcf, 0xe9b5dba5, 0x3956c25b, 0x59f111f1, 0x923f82a4, 0xab1c5ed5,
    0xd807aa98, 0x12835b01, 0x243185be, 0x550c7dc3, 0x72be5d74, 0x80deb1fe, 0x9bdc06a7, 0xc19bf174,
    0xe49b69c1, 0xefbe4786, 0x0fc19dc6, 0x240ca1cc, 0x2de92c6f, 0x4a7484aa, 0x5cb0a9dc, 0x76f988da,
    0x983e5152, 0xa831c66d, 0xb00327c8, 0xbf597fc7, 0xc6e00bf3, 0xd5a79147, 0x06ca6351, 0x14292967,
    0x27b70a85, 0x2e1b2138, 0x4d2c6dfc, 0x53380d13, 0x650a7354, 0x766a0abb, 0x81c2c92e, 0x92722c85,
    0xa2bfe8a1, 0xa81a664b, 0xc24b8b70, 0xc76c51a3, 0xd192e819, 0xd6990624, 0xf40e3585, 0x106aa070,
    0x19a4c116, 0x1e376c08, 0x2748774c, 0x34b0bcb5, 0x391c0cb3, 0x4ed8aa4a, 0x5b9cca4f, 0x682e6ff3,
    0x748f82ee, 0x78a5636f, 0x84c87814, 0x8cc70208, 0x90befffa, 0xa4506ceb, 0xbef9a3f7, 0xc67178f2]

def rotr (x n : UInt32) : UInt32 := (x >>> n) ||| (x <<< (32 - n))

/-- The message with a one bit, zeros up to a block boundary, and its length in bits. -/
def pad (message : List UInt8) : List UInt8 :=
  let zeros := (55 + 64 - message.length % 64) % 64
  message ++ [0x80] ++ List.replicate zeros 0 ++
    (List.range 8).map fun i => UInt8.ofNat (8 * message.length / 256 ^ (7 - i))

def word : List UInt8 → UInt32
  | [w, x, y, z] => (w.toUInt32 <<< 24) ||| (x.toUInt32 <<< 16) ||| (y.toUInt32 <<< 8) ||| z.toUInt32
  | _ => 0

/-- The words of the schedule so far, the latest first, with one more. -/
def extend (schedule : List UInt32) : List UInt32 :=
  let at' (i : ℕ) := schedule.getD (i - 1) 0
  let s0 := rotr (at' 15) 7 ^^^ rotr (at' 15) 18 ^^^ (at' 15 >>> 3)
  let s1 := rotr (at' 2) 17 ^^^ rotr (at' 2) 19 ^^^ (at' 2 >>> 10)
  (at' 16 + s0 + at' 7 + s1) :: schedule

def schedule (block : List UInt8) : List UInt32 :=
  let first := (List.range 16).map fun i => word ((block.drop (4 * i)).take 4)
  ((List.range 48).foldl (fun words _ => extend words) first.reverse).reverse

def round (s : Words) (step : UInt32 × UInt32) : Words :=
  let s1 := rotr s.e 6 ^^^ rotr s.e 11 ^^^ rotr s.e 25
  let ch := (s.e &&& s.f) ^^^ (~~~s.e &&& s.g)
  let t1 := s.h + s1 + ch + step.1 + step.2
  let s0 := rotr s.a 2 ^^^ rotr s.a 13 ^^^ rotr s.a 22
  let maj := (s.a &&& s.b) ^^^ (s.a &&& s.c) ^^^ (s.b &&& s.c)
  ⟨t1 + s0 + maj, s.a, s.b, s.c, s.d + t1, s.e, s.f, s.g⟩

def compress (s : Words) (block : List UInt8) : Words :=
  let r := (constants.zip (schedule block)).foldl round s
  ⟨s.a + r.a, s.b + r.b, s.c + r.c, s.d + r.d, s.e + r.e, s.f + r.f, s.g + r.g, s.h + r.h⟩

def digest (message : List UInt8) : Words :=
  let padded := pad message
  (List.range (padded.length / 64)).foldl (fun s i => compress s ((padded.drop (64 * i)).take 64)) initial

def wordHex (w : UInt32) : List Char :=
  (List.range 8).map fun i => Nat.digitChar (w.toNat / 16 ^ (7 - i) % 16)

def hexDigest (message : List UInt8) : List Char :=
  let s := digest message
  [s.a, s.b, s.c, s.d, s.e, s.f, s.g, s.h].flatMap wordHex

theorem hexDigest_length (message : List UInt8) : (hexDigest message).length = 64 := by
  simp [hexDigest, wordHex]

theorem hexDigest_digits (message : List UInt8) :
    ∀ c ∈ hexDigest message, ∃ n < 16, c = Nat.digitChar n := by
  intro c member
  obtain ⟨w, -, inner⟩ := List.mem_flatMap.mp member
  obtain ⟨i, -, rfl⟩ := List.mem_map.mp inner
  exact ⟨_, Nat.mod_lt _ (by decide), rfl⟩

end KataGo.Lib.Sha256
