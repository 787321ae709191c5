import Mathlib.Algebra.Group.Nat.Defs
import Mathlib.Data.List.Basic

/-! `random.Random` of the standard library, as far as `board.py` uses it: a Mersenne twister
that is seeded with an integer of one word. Every word is a natural number below `2^32`.
The loops of the seeding read each word right after its predecessor is written, so they
are scans. -/

namespace KataGo.Python.Random

/-- `k n`, where `n` is evaluated first. -/
def force {α : Type} (n : Nat) (k : Nat → α) : α :=
  match n with
  | 0 => k 0
  | n + 1 => k (n + 1)

def word (n : Nat) : Nat := n % 2 ^ 32

def initGenrandFrom : Nat → Nat → Nat → List Nat → List Nat
  | 0, _, _, state => state.reverse
  | n + 1, i, prev, state =>
      force (word (1812433253 * (prev ^^^ prev >>> 30) + i)) fun x => initGenrandFrom n (i + 1) x (x :: state)

def initGenrand (s : Nat) : List Nat := initGenrandFrom 623 1 s [s]

/-- Replace the words one after the other, each from its number, its new predecessor and itself. -/
def scan (f : Nat → Nat → Nat → Nat) : Nat → Nat → List Nat → List Nat → Nat × List Nat
  | _, prev, [], state => (prev, state.reverse)
  | i, prev, x :: rest, state => force (f i prev x) fun y => scan f (i + 1) y rest (y :: state)

/-- The first loop of `init_by_array`, for a key of one word. -/
def mixKey (key : Nat) (_ prev x : Nat) : Nat := word ((x ^^^ word ((prev ^^^ prev >>> 30) * 1664525)) + key)

/-- The second loop, which subtracts the number of the word. -/
def mixIndex (i prev x : Nat) : Nat := word ((x ^^^ word ((prev ^^^ prev >>> 30) * 1566083941)) + 2 ^ 32 - i)

/-- `init_by_array`: after its last word, each loop continues with the second one. -/
def initByArray (key : Nat) : List Nat :=
  match initGenrand 19650218 with
  | [] => []
  | first :: rest =>
      match scan (mixKey key) 1 first rest [] with
      | (_, []) => []
      | (last, second :: rest) =>
          force (mixKey key 1 last second) fun second =>
            match scan mixIndex 2 second rest [] with
            | (last, rest) => force (mixIndex 1 last second) fun second => 2 ^ 31 :: second :: rest

def twistWord (far x next : Nat) : Nat :=
  let y := (x &&& 0x80000000) ||| (next &&& 0x7fffffff)
  far ^^^ y >>> 1 ^^^ if y % 2 = 1 then 0x9908b0df else 0

def twistWords : List Nat → List Nat → List Nat → List Nat
  | far :: fars, x :: xs, next :: nexts => twistWord far x next :: twistWords fars xs nexts
  | _, _, _ => []

/-- The next 624 words. From the 228th on they depend on words that are new themselves. -/
def twist (state : List Nat) : List Nat :=
  let first := twistWords (state.drop 397) state (state.drop 1)
  let second := twistWords first (state.drop 227) (state.drop 228)
  let third := twistWords second (state.drop 454) (state.drop 455)
  first ++ second ++ third ++ [twistWord (second.getD 169 0) (state.getD 623 0) (first.getD 0 0)]

def temper (y : Nat) : Nat :=
  let y := y ^^^ y >>> 11
  let y := y ^^^ (word (y <<< 7) &&& 0x9d2c5680)
  let y := y ^^^ (word (y <<< 15) &&& 0xefc60000)
  y ^^^ y >>> 18

/-- The state when so many blocks of words have been used up. -/
def stateAfter (state : List Nat) : Nat → List Nat
  | 0 => twist state
  | blocks + 1 => stateAfter (twist state) blocks

/-- The `n`-th word of the generator seeded with `seed`. -/
def genrand (seed n : Nat) : Nat := temper ((stateAfter (initByArray seed) (n / 624)).getD (n % 624) 0)

/-- What the `n`-th call of `getrandbits(64)` returns. -/
def getrandbits64 (seed n : Nat) : Nat := genrand seed (2 * n) + genrand seed (2 * n + 1) <<< 32

end KataGo.Python.Random
