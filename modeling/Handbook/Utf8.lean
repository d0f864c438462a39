/-
**UTF-8.**

A text is written as bytes and read back. Reading stops at the first bytes that are no character,
and tells where they are and what is wrong with them: a byte that begins no character, a byte that
cannot continue one, or an end in the middle of one.

* `length_next_lt`: reading a character takes at least one byte.
-/

import Handbook.Text.Basic

namespace Handbook

/-- Stored content, as its bytes. -/
abbrev Bytes := List UInt8

namespace Utf8

/-- The bytes of a text. -/
def encode (text : Text) : Bytes := text.flatMap String.utf8EncodeChar

/-- What is wrong with some bytes. -/
inductive Reason where
  | invalidStart
  | invalidContinuation
  | unexpectedEnd
  deriving DecidableEq, Repr

/-- The wording of a reason. -/
def Reason.message : Reason → Text
  | .invalidStart => "invalid start byte".toList
  | .invalidContinuation => "invalid continuation byte".toList
  | .unexpectedEnd => "unexpected end of data".toList

/-- Bytes that are no character: where they start, how many they are, the first one, and what is
wrong with them. -/
structure Fault where
  start : Nat
  size : Nat
  first : UInt8
  reason : Reason
  deriving DecidableEq, Repr

/-- What a first byte promises: how many bytes follow it, in what range the next one lies, and the
highest bits of the character. -/
structure Lead where
  more : Nat
  low : UInt8
  high : UInt8
  bits : Nat

/-- What a byte promises as the first one of a character. -/
def lead? (first : UInt8) : Option Lead :=
  if first < 0x80 then some ⟨0, 0x80, 0xBF, first.toNat⟩
  else if first < 0xC2 then none
  else if first < 0xE0 then some ⟨1, 0x80, 0xBF, first.toNat - 0xC0⟩
  else if first = 0xE0 then some ⟨2, 0xA0, 0xBF, 0⟩
  else if first = 0xED then some ⟨2, 0x80, 0x9F, 0xD⟩
  else if first < 0xF0 then some ⟨2, 0x80, 0xBF, first.toNat - 0xE0⟩
  else if first = 0xF0 then some ⟨3, 0x90, 0xBF, 0⟩
  else if first < 0xF4 then some ⟨3, 0x80, 0xBF, first.toNat - 0xF0⟩
  else if first = 0xF4 then some ⟨3, 0x80, 0x8F, 4⟩
  else none

/-- The code point that the following bytes complete, and the bytes after them. A failure counts the
bytes that were good. -/
def follow (low high : UInt8) (bits taken : Nat) : Nat → Bytes → Except (Nat × Reason) (Nat × Bytes)
  | 0, bytes => .ok (bits, bytes)
  | _ + 1, [] => .error (taken, .unexpectedEnd)
  | more + 1, byte :: rest =>
    if low ≤ byte ∧ byte ≤ high then
      follow 0x80 0xBF (bits * 64 + (byte.toNat - 0x80)) (taken + 1) more rest
    else .error (taken, .invalidContinuation)

/-- The character that begins with a byte, and the bytes after it. A failure counts the bytes that
are bad. -/
def next (first : UInt8) (rest : Bytes) : Except (Nat × Reason) (Char × Bytes) :=
  match lead? first with
  | none => .error (1, .invalidStart)
  | some lead =>
    (follow lead.low lead.high lead.bits 1 lead.more rest).map fun (code, left) =>
      (Char.ofNat code, left)

theorem length_follow_le {low high : UInt8} {bits taken more : Nat} {bytes left : Bytes}
    {code : Nat} (read : follow low high bits taken more bytes = .ok (code, left)) :
    left.length ≤ bytes.length := by
  induction more generalizing low high bits taken bytes with
  | zero =>
    simp only [follow, Except.ok.injEq, Prod.mk.injEq] at read
    simp [read.2]
  | succ more step =>
    cases bytes with
    | nil => simp [follow] at read
    | cons byte rest =>
      rw [follow] at read
      split at read
      · exact Nat.le_succ_of_le (step read)
      · simp at read

/-- **Reading a character takes at least one byte.** -/
theorem length_next_lt {first : UInt8} {rest left : Bytes} {c : Char}
    (read : next first rest = .ok (c, left)) : left.length < (first :: rest).length := by
  rw [next] at read
  split at read
  · simp at read
  · rename_i lead _
    cases followed : follow lead.low lead.high lead.bits 1 lead.more rest with
    | error flaw => simp [followed, Except.map] at read
    | ok result =>
      obtain ⟨code, remaining⟩ := result
      simp only [followed, Except.map, Except.ok.injEq, Prod.mk.injEq] at read
      have := length_follow_le followed
      simp only [List.length_cons, ← read.2]
      omega

/-- The text of some bytes, the first of which stands at a place. -/
def decodeFrom (place : Nat) (bytes : Bytes) : Except Fault Text :=
  match bytes with
  | [] => .ok []
  | first :: rest =>
    match _ : next first rest with
    | .error (size, reason) => .error ⟨place, size, first, reason⟩
    | .ok (c, left) => (decodeFrom (place + c.utf8Size) left).map (c :: ·)
termination_by bytes.length
decreasing_by exact length_next_lt (by assumption)

/-- The text that some bytes are the UTF-8 form of. -/
def decode (bytes : Bytes) : Except Fault Text := decodeFrom 0 bytes

end Utf8

end Handbook
