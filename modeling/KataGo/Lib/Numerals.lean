import Mathlib.Data.Nat.Init
import Mathlib.Data.Nat.Cast.Defs

/-! The numerals that definitions over any field share. -/

namespace KataGo.Lib

instance twoAtLeastTwo : Nat.AtLeastTwo 2 := ⟨by decide⟩

instance threeAtLeastTwo : Nat.AtLeastTwo 3 := ⟨by decide⟩

instance tenAtLeastTwo : Nat.AtLeastTwo 10 := ⟨by decide⟩

instance hundredAtLeastTwo : Nat.AtLeastTwo 100 := ⟨by decide⟩

end KataGo.Lib
