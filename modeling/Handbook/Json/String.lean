/-
**Strings of a JSON text.**

The inside of a string is read byte by byte up to the closing quote, escapes being replaced by the
UTF-8 form of their character. Only then is the whole of it checked to be UTF-8.

* `length_escape_lt`: reading an escape takes at least one byte.
-/

import Handbook.Json.Failure

namespace Handbook.Json

/-! ### Bytes with a meaning -/

/-- The byte that opens and closes a string. -/
def quoteByte : UInt8 := 0x22

/-- The byte that begins an escape. -/
def backslashByte : UInt8 := 0x5C

/-- The letter of an escape by code unit. -/
def unicodeByte : UInt8 := 0x75

/-! ### Escapes -/

/-- The value of a hexadecimal digit. -/
def hexValue? (byte : UInt8) : Option Nat :=
  if 0x30 ≤ byte ∧ byte ≤ 0x39 then some (byte.toNat - 0x30)
  else if 0x41 ≤ byte ∧ byte ≤ 0x46 then some (byte.toNat - 0x41 + 10)
  else if 0x61 ≤ byte ∧ byte ≤ 0x66 then some (byte.toNat - 0x61 + 10)
  else none

/-- A code unit of four hexadecimal digits, and the bytes after it. -/
def codeUnit : Bytes → Except Failure (Nat × Bytes)
  | first :: second :: third :: fourth :: rest =>
    match hexValue? first, hexValue? second, hexValue? third, hexValue? fourth with
    | some a, some b, some c, some d => .ok (((a * 16 + b) * 16 + c) * 16 + d, rest)
    | none, _, _, _ => .error ⟨.invalidEscape, rest.length + 4⟩
    | _, none, _, _ => .error ⟨.invalidEscape, rest.length + 3⟩
    | _, _, none, _ => .error ⟨.invalidEscape, rest.length + 2⟩
    | _, _, _, none => .error ⟨.invalidEscape, rest.length + 1⟩
  | _ => .error ⟨.endInString, 0⟩

/-- Whether a code unit is the first one of a pair. -/
def isHighSurrogate (code : Nat) : Bool := 0xD800 ≤ code && code ≤ 0xDBFF

/-- Whether a code unit is the second one of a pair. -/
def isLowSurrogate (code : Nat) : Bool := 0xDC00 ≤ code && code ≤ 0xDFFF

/-- The second code unit of a pair, and the bytes after it. -/
def lowSurrogate : Bytes → Except Failure (Nat × Bytes)
  | [] => .error ⟨.endInString, 0⟩
  | [0x5C] => .error ⟨.endInString, 0⟩
  | 0x5C :: 0x75 :: rest =>
    match codeUnit rest with
    | .error failure => .error failure
    | .ok (low, left) =>
      if isLowSurrogate low then .ok (low, left)
      else .error ⟨.loneSurrogate, left.length + 1⟩
  | 0x5C :: other => .error ⟨.unexpectedEndOfEscape, other.length⟩
  | other => .error ⟨.unexpectedEndOfEscape, other.length⟩

/-- The character of one code unit, or of a pair of them, and the bytes after it. -/
def codeEscape (bytes : Bytes) : Except Failure (Char × Bytes) :=
  match codeUnit bytes with
  | .error failure => .error failure
  | .ok (code, rest) =>
    if isLowSurrogate code then .error ⟨.loneSurrogate, rest.length + 1⟩
    else if isHighSurrogate code then
      (lowSurrogate rest).map fun (low, left) =>
        (Char.ofNat (0x10000 + (code - 0xD800) * 0x400 + (low - 0xDC00)), left)
    else .ok (Char.ofNat code, rest)

/-- The character of a short escape, by its letter. -/
def shortEscape? (letter : UInt8) : Option Char :=
  if letter = quoteByte then some '"'
  else if letter = backslashByte then some '\\'
  else if letter = 0x2F then some '/'
  else if letter = 0x62 then some '\x08'
  else if letter = 0x66 then some '\x0c'
  else if letter = 0x6E then some '\n'
  else if letter = 0x72 then some '\r'
  else if letter = 0x74 then some '\t'
  else none

/-- The character of an escape, whose backslash has been read, and the bytes after it. -/
def escape : Bytes → Except Failure (Char × Bytes)
  | [] => .error ⟨.endInString, 0⟩
  | letter :: rest =>
    match shortEscape? letter with
    | some c => .ok (c, rest)
    | none =>
      if letter = unicodeByte then codeEscape rest
      else .error ⟨.invalidEscape, rest.length + 1⟩

theorem length_codeUnit_lt {bytes left : Bytes} {code : Nat}
    (read : codeUnit bytes = .ok (code, left)) : left.length < bytes.length := by
  unfold codeUnit at read
  split at read
  · split at read <;> simp_all
    omega
  · simp at read

theorem length_lowSurrogate_lt {bytes left : Bytes} {code : Nat}
    (read : lowSurrogate bytes = .ok (code, left)) : left.length < bytes.length := by
  unfold lowSurrogate at read
  split at read <;> try simp at read
  split at read
  · simp at read
  · rename_i units
    split at read
    · simp only [Except.ok.injEq, Prod.mk.injEq] at read
      have := length_codeUnit_lt units
      simp only [List.length_cons, ← read.2]
      omega
    · simp at read

/-- **Reading an escape takes at least one byte.** -/
theorem length_escape_lt {bytes left : Bytes} {c : Char} (read : escape bytes = .ok (c, left)) :
    left.length < bytes.length := by
  unfold escape at read
  split at read
  · simp at read
  · rename_i letter rest
    split at read
    · simp only [Except.ok.injEq, Prod.mk.injEq] at read
      simp [read.2]
    · split at read
      · unfold codeEscape at read
        split at read
        · simp at read
        · rename_i code units unit
          have taken := length_codeUnit_lt unit
          split at read
          · simp at read
          · split at read
            · cases low : lowSurrogate units with
              | error failure => simp [low, Except.map] at read
              | ok pair =>
                obtain ⟨value, remaining⟩ := pair
                simp only [low, Except.map, Except.ok.injEq, Prod.mk.injEq] at read
                have := length_lowSurrogate_lt low
                simp only [List.length_cons, ← read.2]
                omega
            · simp only [Except.ok.injEq, Prod.mk.injEq] at read
              simp only [List.length_cons, ← read.2]
              omega
      · simp at read

/-! ### Contents -/

/-- The unescaped content of a string, whose opening quote has been read, and the bytes after its
closing quote. -/
def content (bytes : Bytes) : Except Failure (Bytes × Bytes) :=
  match bytes with
  | [] => .error ⟨.endInString, 0⟩
  | byte :: rest =>
    if byte = quoteByte then .ok ([], rest)
    else if byte = backslashByte then
      match _ : escape rest with
      | .error failure => .error failure
      | .ok (c, left) =>
        (content left).map fun (others, after) => (Utf8.encode [c] ++ others, after)
    else if byte < 0x20 then .error ⟨.controlCharacter, rest.length + 1⟩
    else (content rest).map fun (others, after) => (byte :: others, after)
termination_by bytes.length
decreasing_by
  · have := length_escape_lt (by assumption)
    simp only [List.length_cons]
    omega
  · simp

/-- The text of a string, whose opening quote has been read, and the bytes after it. Content that is
no UTF-8 fails as many bytes after the opening quote as it has good ones. -/
def string (bytes : Bytes) : Except Failure (Text × Bytes) :=
  match content bytes with
  | .error failure => .error failure
  | .ok (inside, rest) =>
    match Utf8.decode inside with
    | .ok text => .ok (text, rest)
    | .error fault => .error ⟨.invalidCodePoint, bytes.length - fault.start⟩

end Handbook.Json
