/-
**Reading UTF-8 inverts writing it.**

The bytes of a character are those of the table of UTF-8: one to four bytes, each in the range that
the first one leaves open.

* `next_eq_ok_iff`: a character is read exactly from its bytes;
* `decode_eq_ok_iff`: bytes are the UTF-8 form of a text exactly when the text is read from them.
-/

import Handbook.Proofs.Result
import Handbook.Utf8

namespace Handbook.Utf8

/-! ### The table of UTF-8 -/

/-- Whether a byte continues a character. -/
def IsTail (byte : UInt8) : Prop := 0x80 ≤ byte.toNat ∧ byte.toNat ≤ 0xBF

/-- The bytes of a code point. -/
inductive Written : (code : Nat) → Bytes → Prop where
  | one {a} : a.toNat < 0x80 → Written a.toNat [a]
  | two {a b} : 0xC2 ≤ a.toNat → a.toNat < 0xE0 → IsTail b →
      Written ((a.toNat - 0xC0) * 0x40 + (b.toNat - 0x80)) [a, b]
  | three {a b c} : 0xE0 ≤ a.toNat → a.toNat < 0xF0 → IsTail b → IsTail c →
      (a.toNat = 0xE0 → 0xA0 ≤ b.toNat) → (a.toNat = 0xED → b.toNat ≤ 0x9F) →
      Written (((a.toNat - 0xE0) * 0x40 + (b.toNat - 0x80)) * 0x40 + (c.toNat - 0x80)) [a, b, c]
  | four {a b c d} : 0xF0 ≤ a.toNat → a.toNat ≤ 0xF4 → IsTail b → IsTail c → IsTail d →
      (a.toNat = 0xF0 → 0x90 ≤ b.toNat) → (a.toNat = 0xF4 → b.toNat ≤ 0x8F) →
      Written ((((a.toNat - 0xF0) * 0x40 + (b.toNat - 0x80)) * 0x40 + (c.toNat - 0x80)) * 0x40 +
        (d.toNat - 0x80)) [a, b, c, d]

theorem toNat_ofNat {code : Nat} (valid : code.isValidChar) : (Char.ofNat code).toNat = code := by
  rw [Char.ofNat, dif_pos valid]
  rfl

theorem Written.isValidChar {code : Nat} {bytes : Bytes} (written : Written code bytes) :
    code.isValidChar := by
  unfold Nat.isValidChar
  cases written with
  | one low => omega
  | two low high tail =>
    obtain ⟨_, _⟩ := tail
    omega
  | three low high tail tail' first surrogate =>
    obtain ⟨_, _⟩ := tail
    obtain ⟨_, _⟩ := tail'
    omega
  | four low high tail tail' tail'' first last =>
    obtain ⟨_, _⟩ := tail
    obtain ⟨_, _⟩ := tail'
    obtain ⟨_, _⟩ := tail''
    omega

theorem ofNat_eq (byte : UInt8) {number : Nat} (same : number % 256 = byte.toNat) :
    UInt8.ofNat number = byte :=
  UInt8.toNat_inj.mp (by rw [UInt8.toNat_ofNat', same])

/-- **The bytes of a code point in the table are those of its character.** -/
theorem Written.encode_eq {code : Nat} {bytes : Bytes} (written : Written code bytes) :
    String.utf8EncodeChar (Char.ofNat code) = bytes := by
  have number : (Char.ofNat code).val.toNat = code := toNat_ofNat written.isValidChar
  unfold String.utf8EncodeChar
  simp only [number]
  cases written with
  | @one a low => rw [if_pos (by omega), ofNat_eq a (by omega)]
  | @two a b low high tail =>
    obtain ⟨_, _⟩ := tail
    rw [if_neg (by omega), if_pos (by omega), ofNat_eq a (by omega), ofNat_eq b (by omega)]
  | @three a b c low high tail tail' first surrogate =>
    obtain ⟨_, _⟩ := tail
    obtain ⟨_, _⟩ := tail'
    rw [if_neg (by omega), if_neg (by omega), if_pos (by omega), ofNat_eq a (by omega),
      ofNat_eq b (by omega), ofNat_eq c (by omega)]
  | @four a b c d low high tail tail' tail'' first last =>
    obtain ⟨_, _⟩ := tail
    obtain ⟨_, _⟩ := tail'
    obtain ⟨_, _⟩ := tail''
    rw [if_neg (by omega), if_neg (by omega), if_neg (by omega), ofNat_eq a (by omega),
      ofNat_eq b (by omega), ofNat_eq c (by omega), ofNat_eq d (by omega)]

theorem exists_byte {number : Nat} (small : number < 256) : ∃ byte : UInt8, byte.toNat = number :=
  ⟨UInt8.ofNat number, by rw [UInt8.toNat_ofNat', Nat.mod_eq_of_lt small]⟩

/-- **The bytes of each character stand in the table.** -/
theorem written_encode (c : Char) : Written c.toNat (String.utf8EncodeChar c) := by
  have valid : c.toNat.isValidChar := c.valid
  -- it is enough to find bytes in the table whose code point is the character's
  have suffices_bytes {bytes : Bytes} (written : Written c.toNat bytes) :
      Written c.toNat (String.utf8EncodeChar c) := by
    have same := written.encode_eq
    rw [Char.ofNat_toNat] at same
    rw [same]
    exact written
  have of_eq {code : Nat} {bytes : Bytes} (written : Written code bytes) (same : code = c.toNat) :
      Written c.toNat bytes := same ▸ written
  unfold Nat.isValidChar at valid
  by_cases one : c.toNat < 0x80
  · obtain ⟨a, ha⟩ := exists_byte (by omega : c.toNat < 256)
    exact suffices_bytes (of_eq (.one (by omega)) ha)
  by_cases two : c.toNat < 0x800
  · obtain ⟨a, ha⟩ := exists_byte (by omega : c.toNat / 0x40 + 0xC0 < 256)
    obtain ⟨b, hb⟩ := exists_byte (by omega : c.toNat % 0x40 + 0x80 < 256)
    exact suffices_bytes (of_eq (.two (a := a) (b := b) (by omega) (by omega)
      ⟨by omega, by omega⟩) (by omega))
  by_cases three : c.toNat < 0x10000
  · obtain ⟨a, ha⟩ := exists_byte (by omega : c.toNat / 0x1000 + 0xE0 < 256)
    obtain ⟨b, hb⟩ := exists_byte (by omega : c.toNat / 0x40 % 0x40 + 0x80 < 256)
    obtain ⟨d, hd⟩ := exists_byte (by omega : c.toNat % 0x40 + 0x80 < 256)
    exact suffices_bytes (of_eq (.three (a := a) (b := b) (c := d) (by omega) (by omega)
      ⟨by omega, by omega⟩ ⟨by omega, by omega⟩ (by omega) (by omega)) (by omega))
  · obtain ⟨a, ha⟩ := exists_byte (by omega : c.toNat / 0x40000 + 0xF0 < 256)
    obtain ⟨b, hb⟩ := exists_byte (by omega : c.toNat / 0x1000 % 0x40 + 0x80 < 256)
    obtain ⟨d, hd⟩ := exists_byte (by omega : c.toNat / 0x40 % 0x40 + 0x80 < 256)
    obtain ⟨e, he⟩ := exists_byte (by omega : c.toNat % 0x40 + 0x80 < 256)
    exact suffices_bytes (of_eq (.four (a := a) (b := b) (c := d) (d := e) (by omega) (by omega)
      ⟨by omega, by omega⟩ ⟨by omega, by omega⟩ ⟨by omega, by omega⟩ (by omega) (by omega))
      (by omega))

/-! ### Reading one character -/

/-- What a first byte promises, told by its number. -/
theorem lead?_eq (first : UInt8) :
    lead? first =
      if first.toNat < 0x80 then some ⟨0, 0x80, 0xBF, first.toNat⟩
      else if first.toNat < 0xC2 then none
      else if first.toNat < 0xE0 then some ⟨1, 0x80, 0xBF, first.toNat - 0xC0⟩
      else if first.toNat = 0xE0 then some ⟨2, 0xA0, 0xBF, 0⟩
      else if first.toNat = 0xED then some ⟨2, 0x80, 0x9F, 0xD⟩
      else if first.toNat < 0xF0 then some ⟨2, 0x80, 0xBF, first.toNat - 0xE0⟩
      else if first.toNat = 0xF0 then some ⟨3, 0x90, 0xBF, 0⟩
      else if first.toNat < 0xF4 then some ⟨3, 0x80, 0xBF, first.toNat - 0xF0⟩
      else if first.toNat = 0xF4 then some ⟨3, 0x80, 0x8F, 4⟩
      else none := by
  simp only [lead?, UInt8.lt_iff_toNat_lt, ← UInt8.toNat_inj]
  rfl

theorem lead?_one {first : UInt8} (low : first.toNat < 0x80) :
    lead? first = some ⟨0, 0x80, 0xBF, first.toNat⟩ := by
  rw [lead?_eq, if_pos low]

theorem lead?_two {first : UInt8} (low : 0xC2 ≤ first.toNat) (high : first.toNat < 0xE0) :
    lead? first = some ⟨1, 0x80, 0xBF, first.toNat - 0xC0⟩ := by
  rw [lead?_eq, if_neg (by omega), if_neg (by omega), if_pos high]

theorem lead?_three {first : UInt8} (low : 0xE0 ≤ first.toNat) (high : first.toNat < 0xF0) :
    ∃ least most, lead? first = some ⟨2, least, most, first.toNat - 0xE0⟩ ∧
      ∀ byte : UInt8, least.toNat ≤ byte.toNat ∧ byte.toNat ≤ most.toNat ↔
        IsTail byte ∧ (first.toNat = 0xE0 → 0xA0 ≤ byte.toNat) ∧
          (first.toNat = 0xED → byte.toNat ≤ 0x9F) := by
  rw [lead?_eq, if_neg (by omega), if_neg (by omega), if_neg (by omega)]
  by_cases least : first.toNat = 0xE0
  · refine ⟨0xA0, 0xBF, by rw [if_pos least, least], fun byte => ?_⟩
    simp only [IsTail, UInt8.reduceToNat]
    omega
  by_cases surrogate : first.toNat = 0xED
  · refine ⟨0x80, 0x9F, by rw [if_neg least, if_pos surrogate, surrogate], fun byte => ?_⟩
    simp only [IsTail, UInt8.reduceToNat]
    omega
  · refine ⟨0x80, 0xBF, by rw [if_neg least, if_neg surrogate, if_pos high], fun byte => ?_⟩
    simp only [IsTail, UInt8.reduceToNat]
    omega

theorem lead?_four {first : UInt8} (low : 0xF0 ≤ first.toNat) (high : first.toNat ≤ 0xF4) :
    ∃ least most, lead? first = some ⟨3, least, most, first.toNat - 0xF0⟩ ∧
      ∀ byte : UInt8, least.toNat ≤ byte.toNat ∧ byte.toNat ≤ most.toNat ↔
        IsTail byte ∧ (first.toNat = 0xF0 → 0x90 ≤ byte.toNat) ∧
          (first.toNat = 0xF4 → byte.toNat ≤ 0x8F) := by
  rw [lead?_eq, if_neg (by omega), if_neg (by omega), if_neg (by omega), if_neg (by omega),
    if_neg (by omega), if_neg (by omega)]
  by_cases least : first.toNat = 0xF0
  · refine ⟨0x90, 0xBF, by rw [if_pos least, least], fun byte => ?_⟩
    simp only [IsTail, UInt8.reduceToNat]
    omega
  by_cases most : first.toNat = 0xF4
  · refine ⟨0x80, 0x8F, by rw [if_neg least, if_neg (by omega), if_pos most, most], fun byte => ?_⟩
    simp only [IsTail, UInt8.reduceToNat]
    omega
  · refine ⟨0x80, 0xBF, by rw [if_neg least, if_pos (by omega)], fun byte => ?_⟩
    simp only [IsTail, UInt8.reduceToNat]
    omega

theorem lead?_none {first : UInt8}
    (outside : 0x80 ≤ first.toNat ∧ first.toNat < 0xC2 ∨ 0xF4 < first.toNat) :
    lead? first = none := by
  rw [lead?_eq, if_neg (by omega)]
  rcases outside with low | high
  · rw [if_pos low.2]
  · rw [if_neg (by omega), if_neg (by omega), if_neg (by omega), if_neg (by omega),
      if_neg (by omega), if_neg (by omega), if_neg (by omega), if_neg (by omega)]

/-- The bytes that continue a character are read one after the other. -/
theorem follow_succ_eq_ok_iff {low high : UInt8} {bits taken more : Nat} {bytes : Bytes}
    {result : Nat × Bytes} :
    follow low high bits taken (more + 1) bytes = .ok result ↔
      ∃ byte rest, bytes = byte :: rest ∧ low.toNat ≤ byte.toNat ∧ byte.toNat ≤ high.toNat ∧
        follow 0x80 0xBF (bits * 0x40 + (byte.toNat - 0x80)) (taken + 1) more rest = .ok result := by
  cases bytes with
  | nil => simp [follow]
  | cons byte rest =>
    simp only [follow, UInt8.le_iff_toNat_le]
    constructor
    · intro read
      split at read
      · rename_i inside
        exact ⟨byte, rest, rfl, inside.1, inside.2, read⟩
      · simp at read
    · rintro ⟨other, others, same, above, below, read⟩
      obtain ⟨rfl, rfl⟩ := List.cons.inj same
      rw [if_pos ⟨above, below⟩, read]

theorem follow_zero_eq_ok_iff {low high : UInt8} {bits taken code : Nat} {bytes left : Bytes} :
    follow low high bits taken 0 bytes = .ok (code, left) ↔ bits = code ∧ bytes = left := by
  rw [follow, Except.ok.injEq, Prod.mk.injEq]

theorem next_eq_ok_iff_follow {first : UInt8} {rest left : Bytes} {c : Char} :
    next first rest = .ok (c, left) ↔ ∃ lead code, lead? first = some lead ∧
      follow lead.low lead.high lead.bits 1 lead.more rest = .ok (code, left) ∧
      c = Char.ofNat code := by
  unfold next
  cases leads : lead? first with
  | none => simp
  | some lead =>
    simp only [map_eq_ok_iff, Option.some.injEq, Prod.exists, Prod.mk.injEq]
    constructor
    · rintro ⟨code, others, followed, rfl, rfl⟩
      exact ⟨lead, code, rfl, followed, rfl⟩
    · rintro ⟨_, code, rfl, followed, rfl⟩
      exact ⟨code, left, followed, rfl, rfl⟩

/-- A character is read from bytes of the table. -/
theorem next_eq_ok_iff_written {first : UInt8} {rest left : Bytes} {c : Char} :
    next first rest = .ok (c, left) ↔
      ∃ code more, Written code (first :: more) ∧ rest = more ++ left ∧ c = Char.ofNat code := by
  rw [next_eq_ok_iff_follow]
  constructor
  · rintro ⟨lead, code, leads, followed, rfl⟩
    by_cases one : first.toNat < 0x80
    · obtain rfl := Option.some.inj ((lead?_one one).symm.trans leads)
      obtain ⟨rfl, rfl⟩ := follow_zero_eq_ok_iff.mp followed
      exact ⟨_, [], .one one, rfl, rfl⟩
    by_cases outside : first.toNat < 0xC2 ∨ 0xF4 < first.toNat
    · rw [lead?_none (by omega)] at leads
      exact absurd leads.symm (Option.some_ne_none _)
    by_cases two : first.toNat < 0xE0
    · obtain rfl := Option.some.inj ((lead?_two (by omega) two).symm.trans leads)
      obtain ⟨b, behind, rfl, low, high, last⟩ := follow_succ_eq_ok_iff.mp followed
      obtain ⟨rfl, rfl⟩ := follow_zero_eq_ok_iff.mp last
      exact ⟨_, [b], .two (by omega) two ⟨low, high⟩, rfl, rfl⟩
    by_cases three : first.toNat < 0xF0
    · obtain ⟨least, most, row, second⟩ := lead?_three (by omega) three
      obtain rfl := Option.some.inj (row.symm.trans leads)
      obtain ⟨b, behind, rfl, low, high, followed⟩ := follow_succ_eq_ok_iff.mp followed
      obtain ⟨d, behind, rfl, low', high', last⟩ := follow_succ_eq_ok_iff.mp followed
      obtain ⟨rfl, rfl⟩ := follow_zero_eq_ok_iff.mp last
      obtain ⟨tail, above, below⟩ := (second b).mp ⟨low, high⟩
      exact ⟨_, [b, d], .three (by omega) three tail ⟨low', high'⟩ above below, rfl, rfl⟩
    · obtain ⟨least, most, row, second⟩ := lead?_four (by omega : 0xF0 ≤ first.toNat) (by omega)
      obtain rfl := Option.some.inj (row.symm.trans leads)
      obtain ⟨b, behind, rfl, low, high, followed⟩ := follow_succ_eq_ok_iff.mp followed
      obtain ⟨d, behind, rfl, low', high', followed⟩ := follow_succ_eq_ok_iff.mp followed
      obtain ⟨e, behind, rfl, low'', high'', last⟩ := follow_succ_eq_ok_iff.mp followed
      obtain ⟨rfl, rfl⟩ := follow_zero_eq_ok_iff.mp last
      obtain ⟨tail, above, below⟩ := (second b).mp ⟨low, high⟩
      exact ⟨_, [b, d, e], .four (by omega) (by omega) tail ⟨low', high'⟩ ⟨low'', high''⟩ above below,
        rfl, rfl⟩
  · rintro ⟨code, more, written, rfl, rfl⟩
    cases written with
    | one low => exact ⟨_, _, lead?_one low, rfl, rfl⟩
    | @two _ b low high tail =>
      refine ⟨_, _, lead?_two low high, ?_, rfl⟩
      exact follow_succ_eq_ok_iff.mpr ⟨b, left, rfl, tail.1, tail.2, rfl⟩
    | @three _ b d low high tail tail' above below =>
      obtain ⟨least, most, row, second⟩ := lead?_three low high
      obtain ⟨low, high⟩ := (second b).mpr ⟨tail, above, below⟩
      refine ⟨_, _, row, ?_, rfl⟩
      exact follow_succ_eq_ok_iff.mpr ⟨b, d :: left, rfl, low, high,
        follow_succ_eq_ok_iff.mpr ⟨d, left, rfl, tail'.1, tail'.2, rfl⟩⟩
    | @four _ b d e low high tail tail' tail'' above below =>
      obtain ⟨least, most, row, second⟩ := lead?_four low high
      obtain ⟨low, high⟩ := (second b).mpr ⟨tail, above, below⟩
      refine ⟨_, _, row, ?_, rfl⟩
      exact follow_succ_eq_ok_iff.mpr ⟨b, d :: e :: left, rfl, low, high,
        follow_succ_eq_ok_iff.mpr ⟨d, e :: left, rfl, tail'.1, tail'.2,
          follow_succ_eq_ok_iff.mpr ⟨e, left, rfl, tail''.1, tail''.2, rfl⟩⟩⟩

/-- **A character is read exactly from its bytes.** -/
theorem next_eq_ok_iff {first : UInt8} {rest left : Bytes} {c : Char} :
    next first rest = .ok (c, left) ↔ first :: rest = String.utf8EncodeChar c ++ left := by
  rw [next_eq_ok_iff_written]
  constructor
  · rintro ⟨code, more, written, rfl, rfl⟩
    rw [written.encode_eq, List.cons_append]
  · intro cut
    cases bytes : String.utf8EncodeChar c with
    | nil => exact absurd bytes String.utf8EncodeChar_ne_nil
    | cons byte more =>
      rw [bytes, List.cons_append] at cut
      obtain ⟨rfl, rfl⟩ := List.cons.inj cut
      have written := written_encode c
      rw [bytes] at written
      exact ⟨c.toNat, more, written, rfl, (Char.ofNat_toNat c).symm⟩

/-- The bytes of a character are told from those after it. -/
theorem encode_cancel {c d : Char} {first second : Bytes}
    (same : String.utf8EncodeChar c ++ first = String.utf8EncodeChar d ++ second) :
    c = d ∧ first = second := by
  cases bytes : String.utf8EncodeChar c with
  | nil => exact absurd bytes String.utf8EncodeChar_ne_nil
  | cons byte more =>
    rw [bytes, List.cons_append] at same
    have one : next byte (more ++ first) = .ok (c, first) :=
      next_eq_ok_iff.mpr (by rw [bytes, List.cons_append])
    have two : next byte (more ++ first) = .ok (d, second) := next_eq_ok_iff.mpr same
    rw [one, Except.ok.injEq, Prod.mk.injEq] at two
    exact two

/-! ### Reading texts -/

theorem encode_nil : encode [] = [] := rfl

theorem encode_cons (c : Char) (rest : Text) :
    encode (c :: rest) = String.utf8EncodeChar c ++ encode rest := rfl

theorem encode_singleton (c : Char) : encode [c] = String.utf8EncodeChar c := by
  rw [encode_cons, encode_nil, List.append_nil]

theorem decodeFrom_cons_eq_ok_iff {place : Nat} {first : UInt8} {rest : Bytes} {text : Text} :
    decodeFrom place (first :: rest) = .ok text ↔ ∃ c left others,
      next first rest = .ok (c, left) ∧ decodeFrom (place + c.utf8Size) left = .ok others ∧
        text = c :: others := by
  rw [decodeFrom]
  split
  · rename_i size reason failed
    simp [failed]
  · rename_i c left read
    simp only [map_eq_ok_iff, read, Except.ok.injEq, Prod.mk.injEq]
    constructor
    · rintro ⟨others, decoded, rfl⟩
      exact ⟨c, left, others, ⟨rfl, rfl⟩, decoded, rfl⟩
    · rintro ⟨_, _, others, ⟨rfl, rfl⟩, decoded, rfl⟩
      exact ⟨others, decoded, rfl⟩

theorem decodeFrom_eq_ok_iff {place : Nat} {bytes : Bytes} {text : Text} :
    decodeFrom place bytes = .ok text ↔ bytes = encode text := by
  induction text generalizing place bytes with
  | nil =>
    cases bytes with
    | nil => simp [decodeFrom, encode_nil]
    | cons first rest =>
      rw [decodeFrom_cons_eq_ok_iff, encode_nil]
      simp
  | cons d rest step =>
    cases bytes with
    | nil =>
      have nonempty := @String.utf8EncodeChar_ne_nil d
      simp [decodeFrom, encode_cons, nonempty]
    | cons first others =>
      rw [decodeFrom_cons_eq_ok_iff, encode_cons]
      constructor
      · rintro ⟨c, left, later, read, decoded, same⟩
        obtain ⟨rfl, rfl⟩ := List.cons.inj same
        rw [next_eq_ok_iff.mp read, step.mp decoded]
      · intro cut
        exact ⟨d, encode rest, rest, next_eq_ok_iff.mpr cut, step.mpr rfl, rfl⟩

/-- **Bytes are the UTF-8 form of a text exactly when the text is read from them.** -/
theorem decode_eq_ok_iff {bytes : Bytes} {text : Text} :
    decode bytes = .ok text ↔ bytes = encode text :=
  decodeFrom_eq_ok_iff

end Handbook.Utf8
