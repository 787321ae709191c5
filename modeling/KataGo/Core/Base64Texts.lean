import KataGo.Core.Base64
import Mathlib.Data.List.TakeWhile

/-! Which texts `Base64::decode` accepts, and what `Base64::encode` makes of the bytes that it reads. -/

namespace KataGo.Core.Base64

section Push

variable (r : Bytes) {c d b : Nat}

theorem or_low (c : Nat) {d : Nat} (k : Nat) (small : d < 2 ^ k) : c <<< k ||| d = c * 2 ^ k + d := by
  rw [← Nat.shiftLeft_add_eq_or_of_lt small, Nat.shiftLeft_eq]

theorem xor_high (n k : Nat) : n ^^^ ((n >>> k) <<< k) = n % 2 ^ k := by
  apply Nat.eq_of_testBit_eq
  intro i
  rw [Nat.testBit_xor, Nat.testBit_shiftLeft, Nat.testBit_mod_two_pow, Nat.testBit_shiftRight]
  by_cases low : i < k
  · simp [low, show ¬ k ≤ i by omega]
  · simp [low, show k ≤ i by omega, show k + (i - k) = i by omega]

theorem push_first (d : Nat) : Decoder.push ⟨r, 0, 0⟩ d = ⟨r, d, 6⟩ := by
  simp [Decoder.push]

/-- Six bits that complete a byte. -/
theorem push_byte (small : d < 64) (some_ : 2 ≤ b) :
    Decoder.push ⟨r, c, b⟩ d =
      ⟨r ++ [UInt8.ofNat ((c * 64 + d) / 2 ^ (b - 2))], (c * 64 + d) % 2 ^ (b - 2), b - 2⟩ := by
  have joined : c <<< 6 ||| d = c * 64 + d := or_low c 6 small
  have bits : b + 6 - 8 = b - 2 := by omega
  simp only [Decoder.push, joined]
  rw [if_pos (by omega), xor_high, Nat.shiftRight_eq_div_pow, bits]

end Push

/-- The six-bit numbers of an encoding, without its padding. -/
def digits : Bytes → List Nat
  | [] => []
  | [c0] => [c0.toNat / 4, c0.toNat % 4 * 16]
  | [c0, c1] => [c0.toNat / 4, c0.toNat % 4 * 16 + c1.toNat / 16, c1.toNat % 16 * 4]
  | c0 :: c1 :: c2 :: rest =>
      [c0.toNat / 4, c0.toNat % 4 * 16 + c1.toNat / 16, c1.toNat % 16 * 4 + c2.toNat / 64, c2.toNat % 64] ++ digits rest

theorem group_eq (c0 c1 c2 : UInt8) :
    group c0.toNat c1.toNat c2.toNat =
      [c0.toNat / 4, c0.toNat % 4 * 16 + c1.toNat / 16, c1.toNat % 16 * 4 + c2.toNat / 64, c2.toNat % 64].map charOf := by
  have small1 := c1.toNat_lt
  have small2 := c2.toNat_lt
  have e0 : c0.toNat >>> 2 = c0.toNat / 4 := Nat.shiftRight_eq_div_pow _ 2
  have e1 : ((c0.toNat &&& 0x3) <<< 4) ||| (c1.toNat >>> 4) = c0.toNat % 4 * 16 + c1.toNat / 16 := by
    rw [Nat.shiftRight_eq_div_pow, or_low _ 4 (by omega), show (0x3 : Nat) = 2 ^ 2 - 1 from rfl,
      Nat.and_two_pow_sub_one_eq_mod, show (2 : Nat) ^ 2 = 4 from rfl, show (2 : Nat) ^ 4 = 16 from rfl]
  have e2 : ((c1.toNat &&& 0xf) <<< 2) ||| (c2.toNat >>> 6) = c1.toNat % 16 * 4 + c2.toNat / 64 := by
    rw [Nat.shiftRight_eq_div_pow, or_low _ 2 (by omega), show (0xf : Nat) = 2 ^ 4 - 1 from rfl,
      Nat.and_two_pow_sub_one_eq_mod, show (2 : Nat) ^ 4 = 16 from rfl, show (2 : Nat) ^ 2 = 4 from rfl,
      show (2 : Nat) ^ 6 = 64 from rfl]
  have e3 : c2.toNat &&& 0x3f = c2.toNat % 64 := Nat.and_two_pow_sub_one_eq_mod _ 6
  simp only [group, e0, e1, e2, e3, List.map_cons, List.map_nil]

theorem length_groups (s : Bytes) : (groups s).length = (s.length + 2) / 3 * 4 := by
  match s with
  | [] => rfl
  | [_] => simp [groups, group]
  | [_, _] => simp [groups, group]
  | c0 :: c1 :: c2 :: rest =>
    have ih := length_groups rest
    simp only [groups, group, List.length_append, List.length_cons, List.length_nil, ih]
    omega

theorem set_end (front : Bytes) {back : Bytes} {k : Nat} (inside : k ≤ back.length) (c : UInt8) :
    (front ++ back).set ((front ++ back).length - k) c = front ++ back.set (back.length - k) c := by
  rw [List.length_append, List.set_append, if_neg (by omega)]
  congr 2
  omega

/-- The first three bytes of an encoding. -/
theorem encode_cons (c0 c1 c2 : UInt8) (rest : Bytes) :
    encode (c0 :: c1 :: c2 :: rest) = group c0.toNat c1.toNat c2.toNat ++ encode rest := by
  have excess : (c0 :: c1 :: c2 :: rest).length - (c0 :: c1 :: c2 :: rest).length / 3 * 3 =
      rest.length - rest.length / 3 * 3 := by
    simp only [List.length_cons]
    omega
  have total := length_groups rest
  unfold encode
  rw [excess]
  simp only [groups]
  by_cases two : rest.length - rest.length / 3 * 3 = 2
  · rw [if_pos two, if_pos two, set_end _ (by omega)]
  · rw [if_neg two, if_neg two]
    by_cases one : rest.length - rest.length / 3 * 3 = 1
    · rw [if_pos one, if_pos one, set_end _ (by omega)]
      have kept : ((groups rest).set ((groups rest).length - 1) padding).length = (groups rest).length := List.length_set ..
      rw [← kept] at total
      have second := set_end (group c0.toNat c1.toNat c2.toNat) (k := 2)
        (by omega : 2 ≤ ((groups rest).set ((groups rest).length - 1) padding).length) padding
      simpa only [List.length_append, List.length_set] using second
    · rw [if_neg one, if_neg one]

/-- An encoding is the characters of its digits and padding. -/
theorem encode_eq (s : Bytes) : ∃ n, encode s = (digits s).map charOf ++ List.replicate n padding := by
  match s with
  | [] => exact ⟨0, rfl⟩
  | [c0] =>
    have whole := group_eq c0 0 0
    refine ⟨2, ?_⟩
    simp [encode, groups, digits, show group c0.toNat 0 0 = _ from whole, List.replicate]
  | [c0, c1] =>
    have whole := group_eq c0 c1 0
    refine ⟨1, ?_⟩
    simp [encode, groups, digits, show group c0.toNat c1.toNat 0 = _ from whole, List.replicate]
  | c0 :: c1 :: c2 :: rest =>
    obtain ⟨n, ih⟩ := encode_eq rest
    refine ⟨n, ?_⟩
    rw [encode_cons, ih, group_eq, digits, List.map_append, List.append_assoc]

theorem charOf_bits : ∀ d < 64, charOf d ≠ padding ∧ bitsOf (charOf d) = .ok d := by decide +kernel

theorem bitsOf_chars : ∀ n < 256,
    ((bitsOf (UInt8.ofNat n)).toOption.all fun d => d < 64 ∧ charOf d = UInt8.ofNat n) = true := by decide +kernel

/-- The characters that have bits are those of their bits. -/
theorem bitsOf_ok {c : UInt8} {d : Nat} (bits : bitsOf c = .ok d) : d < 64 ∧ charOf d = c := by
  have known := bitsOf_chars c.toNat c.toNat_lt
  rw [UInt8.ofNat_toNat, bits] at known
  simpa [Except.toOption] using known

theorem scan_digits {ds : List Nat} (small : ∀ d ∈ ds, d < 64) (n : Nat) (t : Decoder) :
    scan (ds.map charOf ++ List.replicate n padding) t = .ok (ds.foldl Decoder.push t, List.replicate n padding) := by
  induction ds generalizing t with
  | nil => cases n <;> rfl
  | cons d ds ih =>
    obtain ⟨here, rest⟩ := List.forall_mem_cons.1 small
    obtain ⟨other, bits⟩ := charOf_bits d here
    rw [List.map_cons, List.cons_append, scan, if_neg other, bits]
    exact ih rest (t.push d)

/-- A scan that gets through has read the bits of the characters before the first padding. -/
theorem scan_ok {s tail : Bytes} {t t' : Decoder} (read : scan s t = .ok (t', tail)) :
    ∃ ds : List Nat, (∀ d ∈ ds, d < 64) ∧ s = ds.map charOf ++ tail ∧ t' = ds.foldl Decoder.push t := by
  induction s generalizing t with
  | nil =>
    cases read
    exact ⟨[], by simp, rfl, rfl⟩
  | cons c rest ih =>
    rw [scan] at read
    split at read
    · cases read
      exact ⟨[], by simp, rfl, rfl⟩
    · cases bits : bitsOf c with
      | error error =>
        rw [bits] at read
        cases read
      | ok d =>
        rw [bits] at read
        obtain ⟨ds, small, same, ended⟩ := ih read
        obtain ⟨here, char⟩ := bitsOf_ok bits
        exact ⟨d :: ds, List.forall_mem_cons.2 ⟨here, small⟩, by rw [List.map_cons, char, List.cons_append, ← same], ended⟩

theorem decode_digits {ds : List Nat} (small : ∀ d ∈ ds, d < 64) (n : Nat) :
    decode (ds.map charOf ++ List.replicate n padding) =
      if (ds.foldl Decoder.push ⟨[], 0, 0⟩).carry ≠ 0 then
        .error "Base64::decode: unexpected end of decode, carry is nonzero"
      else .ok (ds.foldl Decoder.push ⟨[], 0, 0⟩).result := by
  have quiet : ((List.replicate n padding).any fun c => decide (c ≠ padding)) = false := by simp
  rw [decode, scan_digits small]
  show (if _ then _ else _) = _
  rw [if_neg (by rw [quiet]; decide)]

theorem decode_ok {s r : Bytes} (read : decode s = .ok r) :
    ∃ (ds : List Nat) (n : Nat), (∀ d ∈ ds, d < 64) ∧ s = ds.map charOf ++ List.replicate n padding ∧
      (ds.foldl Decoder.push ⟨[], 0, 0⟩).carry = 0 ∧ r = (ds.foldl Decoder.push ⟨[], 0, 0⟩).result := by
  cases scanned : scan s ⟨[], 0, 0⟩ with
  | error error =>
    rw [decode, scanned] at read
    cases read
  | ok pair =>
    obtain ⟨t, tail⟩ := pair
    obtain ⟨ds, small, same, rfl⟩ := scan_ok scanned
    rw [decode, scanned] at read
    replace read : (if _ then _ else _) = _ := read
    split at read
    · cases read
    next padded =>
      have tail_ : tail = List.replicate tail.length padding :=
        List.eq_replicate_of_mem fun c member => by simpa using fun other => padded (List.any_eq_true.2 ⟨c, member, other⟩)
      split at read
      · cases read
      next clear =>
        cases read
        exact ⟨ds, tail.length, small, by rw [← tail_]; exact same, not_not.1 clear, rfl⟩

section Four

variable (r : Bytes) (d0 : Nat) {d1 d2 d3 : Nat} (small1 : d1 < 64) (small2 : d2 < 64) (small3 : d3 < 64)

/-- The three bytes of four digits. -/
def bytes (d0 d1 d2 d3 : Nat) : Bytes :=
  [UInt8.ofNat ((d0 * 64 + d1) / 16), UInt8.ofNat (((d0 * 64 + d1) % 16 * 64 + d2) / 4),
    UInt8.ofNat ((((d0 * 64 + d1) % 16 * 64 + d2) % 4 * 64 + d3))]

include small1 in
theorem push_two : [d0, d1].foldl Decoder.push ⟨r, 0, 0⟩ =
    ⟨r ++ [UInt8.ofNat ((d0 * 64 + d1) / 16)], (d0 * 64 + d1) % 16, 4⟩ := by
  rw [List.foldl_cons, List.foldl_cons, List.foldl_nil, push_first, push_byte r small1 (show 2 ≤ 6 by decide),
    show (2 : Nat) ^ (6 - 2) = 16 from rfl]

include small1 small2 in
theorem push_three : [d0, d1, d2].foldl Decoder.push ⟨r, 0, 0⟩ =
    ⟨r ++ [UInt8.ofNat ((d0 * 64 + d1) / 16), UInt8.ofNat (((d0 * 64 + d1) % 16 * 64 + d2) / 4)],
      ((d0 * 64 + d1) % 16 * 64 + d2) % 4, 2⟩ := by
  rw [show [d0, d1, d2] = [d0, d1] ++ [d2] from rfl, List.foldl_append, push_two r d0 small1, List.foldl_cons,
    List.foldl_nil, push_byte _ small2 (show 2 ≤ 4 by decide), List.append_assoc]
  rfl

include small1 small2 small3 in
theorem push_four : [d0, d1, d2, d3].foldl Decoder.push ⟨r, 0, 0⟩ = ⟨r ++ bytes d0 d1 d2 d3, 0, 0⟩ := by
  rw [show [d0, d1, d2, d3] = [d0, d1, d2] ++ [d3] from rfl, List.foldl_append, push_three r d0 small1 small2,
    List.foldl_cons, List.foldl_nil, push_byte _ small3 (show 2 ≤ 2 by decide), List.append_assoc]
  simp [bytes, Nat.mod_one]

end Four

theorem length_digits (s : Bytes) : (digits s).length % 4 ≠ 1 := by
  match s with
  | [] => simp [digits]
  | [_] => simp [digits]
  | [_, _] => simp [digits]
  | _ :: _ :: _ :: rest =>
    have ih := length_digits rest
    simp only [digits, List.length_append, List.length_cons, List.length_nil]
    omega

theorem digits_small (s : Bytes) : ∀ d ∈ digits s, d < 64 := by
  match s with
  | [] => simp [digits]
  | [c0] =>
    have := c0.toNat_lt
    simp only [digits, List.mem_cons, List.not_mem_nil, or_false]
    rintro d (rfl | rfl) <;> omega
  | [c0, c1] =>
    have := c0.toNat_lt
    have := c1.toNat_lt
    simp only [digits, List.mem_cons, List.not_mem_nil, or_false]
    rintro d (rfl | rfl | rfl) <;> omega
  | c0 :: c1 :: c2 :: rest =>
    have ih := digits_small rest
    have := c0.toNat_lt
    have := c1.toNat_lt
    have := c2.toNat_lt
    simp only [digits, List.mem_append, List.mem_cons, List.not_mem_nil, or_false]
    rintro d ((rfl | rfl | rfl | rfl) | later)
    any_goals omega
    exact ih d later

theorem ofNat_eq {n : Nat} {c : UInt8} (same : n = c.toNat) : UInt8.ofNat n = c := by
  rw [same, UInt8.ofNat_toNat]

theorem toNat_byte {n : Nat} (small : n < 256) : (UInt8.ofNat n).toNat = n := UInt8.toNat_ofNat_of_lt' small

/-- The digits of bytes give the bytes back. -/
theorem push_digits (s r : Bytes) : ∃ b, (digits s).foldl Decoder.push ⟨r, 0, 0⟩ = ⟨r ++ s, 0, b⟩ := by
  match s with
  | [] => exact ⟨0, by simp [digits]⟩
  | [c0] =>
    have byte : UInt8.ofNat ((c0.toNat / 4 * 64 + c0.toNat % 4 * 16) / 16) = c0 := ofNat_eq (by omega)
    refine ⟨4, ?_⟩
    rw [digits, push_two _ _ (by omega), byte, show (c0.toNat / 4 * 64 + c0.toNat % 4 * 16) % 16 = 0 by omega]
  | [c0, c1] =>
    have small := c1.toNat_lt
    have byte0 : UInt8.ofNat ((c0.toNat / 4 * 64 + (c0.toNat % 4 * 16 + c1.toNat / 16)) / 16) = c0 := ofNat_eq (by omega)
    have byte1 : UInt8.ofNat (((c0.toNat / 4 * 64 + (c0.toNat % 4 * 16 + c1.toNat / 16)) % 16 * 64 + c1.toNat % 16 * 4) / 4) =
        c1 := ofNat_eq (by omega)
    refine ⟨2, ?_⟩
    rw [digits, push_three _ _ (by omega) (by omega), byte0, byte1]
    congr 1
    omega
  | c0 :: c1 :: c2 :: rest =>
    have small1 := c1.toNat_lt
    have small2 := c2.toNat_lt
    have whole : bytes (c0.toNat / 4) (c0.toNat % 4 * 16 + c1.toNat / 16) (c1.toNat % 16 * 4 + c2.toNat / 64)
        (c2.toNat % 64) = [c0, c1, c2] := by
      rw [bytes, ofNat_eq (c := c0) (by omega), ofNat_eq (c := c1) (by omega), ofNat_eq (c := c2) (by omega)]
    obtain ⟨b, ih⟩ := push_digits rest (r ++ [c0, c1, c2])
    refine ⟨b, ?_⟩
    rw [digits, List.foldl_append, push_four _ _ (by omega) (by omega) (by omega), whole, ih, List.append_assoc]
    rfl

/-- Digits that leave no carry are those of the bytes that they give, unless one is left over. -/
theorem digits_of_push (ds : List Nat) (small : ∀ d ∈ ds, d < 64) (r : Bytes)
    (clear : (ds.foldl Decoder.push ⟨r, 0, 0⟩).carry = 0) :
    ∃ s, (ds.foldl Decoder.push ⟨r, 0, 0⟩).result = r ++ s ∧ (ds.length % 4 ≠ 1 → ds = digits s) := by
  match ds with
  | [] => exact ⟨[], by simp, fun _ => rfl⟩
  | [d0] => exact ⟨[], by simp [push_first], fun some_ => absurd rfl some_⟩
  | [d0, d1] =>
    simp only [List.mem_cons, List.not_mem_nil, or_false, forall_eq_or_imp, forall_eq] at small
    rw [push_two _ _ small.2] at clear ⊢
    have byte : (UInt8.ofNat ((d0 * 64 + d1) / 16)).toNat = (d0 * 64 + d1) / 16 := toNat_byte (by omega)
    refine ⟨_, rfl, fun _ => ?_⟩
    simp only [digits, byte, List.cons.injEq, and_true] at clear ⊢
    omega
  | [d0, d1, d2] =>
    simp only [List.mem_cons, List.not_mem_nil, or_false, forall_eq_or_imp, forall_eq] at small
    rw [push_three _ _ small.2.1 small.2.2] at clear ⊢
    have byte0 : (UInt8.ofNat ((d0 * 64 + d1) / 16)).toNat = (d0 * 64 + d1) / 16 := toNat_byte (by omega)
    have byte1 : (UInt8.ofNat (((d0 * 64 + d1) % 16 * 64 + d2) / 4)).toNat = ((d0 * 64 + d1) % 16 * 64 + d2) / 4 :=
      toNat_byte (by omega)
    refine ⟨_, rfl, fun _ => ?_⟩
    simp only [digits, byte0, byte1, List.cons.injEq, and_true] at clear ⊢
    omega
  | d0 :: d1 :: d2 :: d3 :: rest =>
    rw [show d0 :: d1 :: d2 :: d3 :: rest = [d0, d1, d2, d3] ++ rest from rfl, List.forall_mem_append] at small
    obtain ⟨four, later⟩ := small
    simp only [List.mem_cons, List.not_mem_nil, or_false, forall_eq_or_imp, forall_eq] at four
    obtain ⟨small0, small1, small2, small3⟩ := four
    rw [show d0 :: d1 :: d2 :: d3 :: rest = [d0, d1, d2, d3] ++ rest from rfl, List.foldl_append,
      push_four r d0 small1 small2 small3] at clear ⊢
    obtain ⟨s, ended, same⟩ := digits_of_push rest later _ clear
    have byte0 : (UInt8.ofNat ((d0 * 64 + d1) / 16)).toNat = (d0 * 64 + d1) / 16 := toNat_byte (by omega)
    have byte1 : (UInt8.ofNat (((d0 * 64 + d1) % 16 * 64 + d2) / 4)).toNat = ((d0 * 64 + d1) % 16 * 64 + d2) / 4 :=
      toNat_byte (by omega)
    have byte2 : (UInt8.ofNat (((d0 * 64 + d1) % 16 * 64 + d2) % 4 * 64 + d3)).toNat =
        ((d0 * 64 + d1) % 16 * 64 + d2) % 4 * 64 + d3 := toNat_byte (by omega)
    refine ⟨bytes d0 d1 d2 d3 ++ s, by rw [ended, List.append_assoc], fun some_ => ?_⟩
    rw [List.length_append] at some_
    have rest_ := same (by simp only [List.length_cons, List.length_nil] at some_; omega)
    simp only [bytes, List.cons_append, List.nil_append, digits, byte0, byte1, byte2, ← rest_, List.cons.injEq, and_true]
    omega

theorem charOf_injective {d e : Nat} (small : d < 64) (small' : e < 64) (same : charOf d = charOf e) : d = e := by
  have bits := (charOf_bits d small).2
  rw [same, (charOf_bits e small').2] at bits
  exact (Except.ok.inj bits).symm

theorem map_charOf_injective {ds es : List Nat} (small : ∀ d ∈ ds, d < 64) (small' : ∀ e ∈ es, e < 64)
    (same : ds.map charOf = es.map charOf) : ds = es := by
  induction ds generalizing es with
  | nil => exact (List.map_eq_nil_iff.1 same.symm).symm
  | cons d ds ih =>
    cases es with
    | nil => cases same
    | cons e es =>
      obtain ⟨here, rest⟩ := List.forall_mem_cons.1 small
      obtain ⟨here', rest'⟩ := List.forall_mem_cons.1 small'
      obtain ⟨first, later⟩ := List.cons.inj same
      rw [charOf_injective here here' first, ih rest rest' later]

/-- The characters of a text that are not padding. -/
def unpadded (t : Bytes) : Bytes := t.filter fun c => c ≠ padding

theorem unpadded_chars {ds : List Nat} (small : ∀ d ∈ ds, d < 64) (n : Nat) :
    unpadded (ds.map charOf ++ List.replicate n padding) = ds.map charOf := by
  rw [unpadded, List.filter_append, List.filter_eq_self.2, List.filter_eq_nil_iff.2, List.append_nil]
  · simp
  · rintro c member
    obtain ⟨d, inside, rfl⟩ := List.mem_map.1 member
    simpa using (charOf_bits d (small d inside)).1

theorem decode_encode (s : Bytes) : decode (encode s) = .ok s := by
  obtain ⟨n, same⟩ := encode_eq s
  obtain ⟨b, pushed⟩ := push_digits s []
  rw [same, decode_digits (digits_small s), pushed]
  rfl

/-- Decoding inverts encoding; and the texts that it accepts are encodings, whatever their padding,
exactly where no single character is left over after the groups of four. -/
theorem decode_exact (t : Bytes) : (∀ s, decode (encode s) = .ok s) ∧
    ∀ s, decode t = .ok s → (unpadded t = unpadded (encode s) ↔ (unpadded t).length % 4 ≠ 1) := by
  refine ⟨decode_encode, fun s read => ?_⟩
  obtain ⟨ds, n, small, rfl, clear, rfl⟩ := decode_ok read
  obtain ⟨s, ended, same⟩ := digits_of_push ds small [] clear
  rw [ended, List.nil_append]
  obtain ⟨m, encoded⟩ := encode_eq s
  rw [encoded, unpadded_chars small, unpadded_chars (digits_small s), List.length_map]
  constructor
  · intro equal
    rw [map_charOf_injective small (digits_small s) equal]
    exact length_digits s
  · intro some_
    rw [same some_]

/-- A single character without bits is read as the empty string. -/
theorem decode_leftover : ¬ ∀ t s, decode t = .ok s → unpadded t = unpadded (encode s) := by
  intro claimed
  have wrong := claimed [65] [] (by decide +kernel)
  revert wrong
  decide

end KataGo.Core.Base64
