/-
**Reading strings.**

The reader of strings takes exactly the insides that spell a text, up to the closing quote. Plain
bytes are copied and only then seen to be UTF-8; since no escape gives a byte that continues a
character, the bytes of a plain character stand together.

* `escape_eq_ok_iff`: escapes;
* `content_of_spells`, `spells_of_content`: the insides of strings;
* `string_eq_ok_iff`: a string is read exactly from what spells it.
-/

import Handbook.Proofs.Json.Spelling
import Handbook.Proofs.Utf8

namespace Handbook.Json

variable {bytes rest left : Bytes}

/-! ### Escapes -/

theorem codeUnit_of_spells {code : Nat} {digits : Bytes} (spells : SpellsUnit code digits)
    (left : Bytes) : codeUnit (digits ++ left) = .ok (code, left) := by
  obtain ⟨first, second, third, fourth⟩ := spells
  simp [codeUnit, first, second, third, fourth]

theorem codeUnit_eq_ok_iff {code : Nat} :
    codeUnit bytes = .ok (code, left) ↔ ∃ digits, SpellsUnit code digits ∧ bytes = digits ++ left := by
  constructor
  · intro read
    unfold codeUnit at read
    split at read
    · split at read
      · rename_i a b c d first second third fourth
        rw [Except.ok.injEq, Prod.mk.injEq] at read
        obtain ⟨rfl, rfl⟩ := read
        exact ⟨_, .digits first second third fourth, rfl⟩
      all_goals simp at read
    · simp at read
  · rintro ⟨digits, spells, rfl⟩
    exact codeUnit_of_spells spells left

theorem lowSurrogate_eq_ok_iff {low : Nat} :
    lowSurrogate bytes = .ok (low, left) ↔ ∃ digits, SpellsUnit low digits ∧
      isLowSurrogate low = true ∧ bytes = backslashByte :: unicodeByte :: (digits ++ left) := by
  constructor
  · intro read
    unfold lowSurrogate at read
    split at read <;> try simp at read
    rename_i others
    split at read
    · simp at read
    · rename_i code behind units
      split at read
      · rename_i isLow
        rw [Except.ok.injEq, Prod.mk.injEq] at read
        obtain ⟨rfl, rfl⟩ := read
        obtain ⟨digits, spells, rfl⟩ := codeUnit_eq_ok_iff.mp units
        exact ⟨digits, spells, isLow, rfl⟩
      · simp at read
  · rintro ⟨digits, spells, isLow, rfl⟩
    simp [lowSurrogate, backslashByte, unicodeByte, codeUnit_of_spells spells, isLow]

theorem not_isLowSurrogate {code : Nat} (isHigh : isHighSurrogate code = true) :
    isLowSurrogate code = false := by
  simp only [isHighSurrogate, isLowSurrogate, Bool.and_eq_true, decide_eq_true_eq,
    Bool.and_eq_false_iff, decide_eq_false_iff_not] at isHigh ⊢
  omega

theorem escapes_of_codeEscape {c : Char} (read : codeEscape bytes = .ok (c, left)) :
    ∃ spelled, Escapes c (unicodeByte :: spelled) ∧ bytes = spelled ++ left := by
  unfold codeEscape at read
  split at read
  · simp at read
  · rename_i code behind units
    obtain ⟨digits, spells, rfl⟩ := codeUnit_eq_ok_iff.mp units
    split at read
    · simp at read
    · rename_i notLow
      rw [Bool.not_eq_true] at notLow
      split at read
      · rename_i isHigh
        obtain ⟨⟨low, after⟩, second, same⟩ := map_eq_ok_iff.mp read
        rw [Prod.mk.injEq] at same
        obtain ⟨rfl, rfl⟩ := same
        obtain ⟨digits', spells', isLow, rfl⟩ := lowSurrogate_eq_ok_iff.mp second
        exact ⟨_, .pair spells isHigh spells' isLow, by simp⟩
      · rename_i notHigh
        rw [Bool.not_eq_true] at notHigh
        rw [Except.ok.injEq, Prod.mk.injEq] at read
        obtain ⟨rfl, rfl⟩ := read
        exact ⟨digits, .unit spells notHigh notLow, rfl⟩

/-- **An escape is read exactly from what spells it.** -/
theorem escape_eq_ok_iff {c : Char} :
    escape bytes = .ok (c, left) ↔ ∃ spelled, Escapes c spelled ∧ bytes = spelled ++ left := by
  have long : shortEscape? unicodeByte = none := by decide
  constructor
  · intro read
    unfold escape at read
    split at read
    · simp at read
    · rename_i letter rest
      split at read
      · rename_i short
        rw [Except.ok.injEq, Prod.mk.injEq] at read
        obtain ⟨rfl, rfl⟩ := read
        exact ⟨[letter], .short short, rfl⟩
      · split at read
        · rename_i isUnicode
          obtain ⟨spelled, escapes, rfl⟩ := escapes_of_codeEscape read
          rw [isUnicode]
          exact ⟨_, escapes, rfl⟩
        · simp at read
  · rintro ⟨spelled, escapes, rfl⟩
    cases escapes with
    | short short => simp [escape, short]
    | unit spells notHigh notLow =>
      simp [escape, long, codeEscape, codeUnit_of_spells spells, notHigh, notLow]
    | @pair high low digits digits' spells isHigh spells' isLow =>
      have second := lowSurrogate_eq_ok_iff.mpr ⟨digits', spells', isLow, @rfl _ (_ :: _ :: (_ ++ left))⟩
      simp [escape, long, codeEscape, codeUnit_of_spells spells, isHigh, not_isLowSurrogate isHigh,
        second, Except.map]

/-! ### The insides of strings -/

/-- Whether a byte inside a string stands for itself. -/
def IsPlain (byte : UInt8) : Prop := byte ≠ quoteByte ∧ byte ≠ backslashByte ∧ ¬ byte < 0x20

theorem content_quote : content (quoteByte :: rest) = .ok ([], rest) := by
  rw [content, if_pos rfl]

theorem content_escape {c : Char} {inside : Bytes} (escaped : escape bytes = .ok (c, left))
    (read : content left = .ok (inside, rest)) :
    content (backslashByte :: bytes) = .ok (String.utf8EncodeChar c ++ inside, rest) := by
  rw [content, if_neg (by decide), if_pos rfl]
  split
  · rename_i failed
    rw [escaped] at failed
    simp at failed
  · rename_i other behind same
    rw [escaped, Except.ok.injEq, Prod.mk.injEq] at same
    obtain ⟨rfl, rfl⟩ := same
    rw [read, ← Utf8.encode_singleton]
    rfl

theorem content_byte {byte : UInt8} (plain : IsPlain byte) :
    content (byte :: bytes) = (content bytes).map fun (others, after) => (byte :: others, after) := by
  rw [content, if_neg plain.1, if_neg plain.2.1, if_neg plain.2.2]

/-- The three ways in which the inside of a string begins. -/
inductive Begins : (bytes inside rest : Bytes) → Prop where
  | quote {rest : Bytes} : Begins (quoteByte :: rest) [] rest
  | escaped {bytes left inside rest : Bytes} {c : Char} : escape bytes = .ok (c, left) →
      content left = .ok (inside, rest) →
      Begins (backslashByte :: bytes) (String.utf8EncodeChar c ++ inside) rest
  | plain {byte : UInt8} {bytes inside rest : Bytes} : IsPlain byte → content bytes = .ok (inside, rest) →
      Begins (byte :: bytes) (byte :: inside) rest

theorem begins_of_content {inside : Bytes} (read : content bytes = .ok (inside, rest)) :
    Begins bytes inside rest := by
  cases bytes with
  | nil => simp [content] at read
  | cons byte behind =>
    by_cases isQuote : byte = quoteByte
    · rw [isQuote, content_quote, Except.ok.injEq, Prod.mk.injEq] at read
      obtain ⟨rfl, rfl⟩ := read
      rw [isQuote]
      exact .quote
    by_cases isBackslash : byte = backslashByte
    · rw [isBackslash, content, if_neg (by decide), if_pos rfl] at read
      split at read
      · simp at read
      · rename_i c left escaped
        obtain ⟨⟨others, after⟩, inner, same⟩ := map_eq_ok_iff.mp read
        rw [Prod.mk.injEq] at same
        obtain ⟨rfl, rfl⟩ := same
        rw [isBackslash, Utf8.encode_singleton]
        exact .escaped escaped inner
    by_cases control : byte < 0x20
    · rw [content, if_neg isQuote, if_neg isBackslash, if_pos control] at read
      simp at read
    · have plain : IsPlain byte := ⟨isQuote, isBackslash, control⟩
      rw [content_byte plain] at read
      obtain ⟨⟨others, after⟩, inner, same⟩ := map_eq_ok_iff.mp read
      rw [Prod.mk.injEq] at same
      obtain ⟨rfl, rfl⟩ := same
      exact .plain plain inner

theorem content_plain {plain : Bytes} (all : ∀ byte ∈ plain, IsPlain byte) {inside : Bytes}
    (read : content bytes = .ok (inside, rest)) :
    content (plain ++ bytes) = .ok (plain ++ inside, rest) := by
  induction plain with
  | nil => exact read
  | cons byte others step =>
    rw [List.cons_append, content_byte (all byte (List.mem_cons_self ..)),
      step fun other member => all other (List.mem_cons_of_mem _ member)]
    rfl

theorem isPlain_iff_toNat {byte : UInt8} :
    IsPlain byte ↔ byte.toNat ≠ 0x22 ∧ byte.toNat ≠ 0x5C ∧ 0x20 ≤ byte.toNat := by
  rw [IsPlain, UInt8.lt_iff_toNat_lt, ne_eq, ne_eq, ← UInt8.toNat_inj, ← UInt8.toNat_inj]
  exact and_congr Iff.rfl (and_congr Iff.rfl Nat.not_lt)

theorem isPlain_high {byte : UInt8} (high : 0x80 ≤ byte.toNat) : IsPlain byte := by
  rw [isPlain_iff_toNat]
  omega

/-- **A character stands for itself in a string exactly where each of its bytes does.** -/
theorem isPlain_encode_iff {c : Char} :
    (∀ byte ∈ String.utf8EncodeChar c, IsPlain byte) ↔ 0x20 ≤ c.toNat ∧ c ≠ '"' ∧ c ≠ '\\' := by
  have codes : c ≠ '"' ∧ c ≠ '\\' ↔ c.toNat ≠ 0x22 ∧ c.toNat ≠ 0x5C := by
    rw [ne_eq, ne_eq, ← Char.toNat_inj, ← Char.toNat_inj]
    rfl
  have written := Utf8.written_encode c
  rw [codes]
  generalize c.toNat = code at written
  generalize String.utf8EncodeChar c = bytes at written
  -- a byte of a character beyond the first row of the table is above all bytes with a meaning
  cases written with
  | one low =>
    rw [List.forall_mem_singleton, isPlain_iff_toNat]
    omega
  | two low high tail =>
    refine iff_of_true ?_ (by omega)
    rw [List.forall_mem_cons, List.forall_mem_singleton]
    exact ⟨isPlain_high (by omega), isPlain_high tail.1⟩
  | three low high tail tail' above below =>
    refine iff_of_true ?_ (by have := tail.1; omega)
    rw [List.forall_mem_cons, List.forall_mem_cons, List.forall_mem_singleton]
    exact ⟨isPlain_high (by omega), isPlain_high tail.1, isPlain_high tail'.1⟩
  | four low high tail tail' tail'' above below =>
    refine iff_of_true ?_ (by have := tail.1; omega)
    rw [List.forall_mem_cons, List.forall_mem_cons, List.forall_mem_cons,
      List.forall_mem_singleton]
    exact ⟨isPlain_high (by omega), isPlain_high tail.1, isPlain_high tail'.1, isPlain_high tail''.1⟩

/-- **Inside a string every spelling of a text is read as the text.** -/
theorem content_of_spells {text : Text} {spelled : Bytes} (spells : SpellsText text spelled) :
    content (spelled ++ quoteByte :: rest) = .ok (Utf8.encode text, rest) := by
  induction spells with
  | nil => exact content_quote
  | @cons c later spelled others char _ step =>
    rw [List.append_assoc]
    cases char with
    | plain visible notQuote notBackslash =>
      exact content_plain (isPlain_encode_iff.mpr ⟨visible, notQuote, notBackslash⟩) step
    | @escaped spelled escapes =>
      exact content_escape (escape_eq_ok_iff.mpr ⟨spelled, escapes, rfl⟩) step

/-! ### Plain characters -/

/-- Of the bytes of a character all but the first continue it. -/
theorem isTail_of_encode {c : Char} {first : UInt8} {more : Bytes}
    (bytes : String.utf8EncodeChar c = first :: more) :
    ¬ Utf8.IsTail first ∧ ∀ byte ∈ more, Utf8.IsTail byte := by
  have written := Utf8.written_encode c
  have outside {byte : UInt8} (range : byte.toNat < 0x80 ∨ 0xC0 ≤ byte.toNat) :
      ¬ Utf8.IsTail byte := by
    rintro ⟨low, high⟩
    omega
  rw [bytes] at written
  generalize c.toNat = code at written
  cases written with
  | one low => exact ⟨outside (by omega), by simp⟩
  | two low high tail => exact ⟨outside (by omega), by simp [tail]⟩
  | three low high tail tail' _ _ => exact ⟨outside (by omega), by simp [tail, tail']⟩
  | four low high tail tail' tail'' _ _ => exact ⟨outside (by omega), by simp [tail, tail', tail'']⟩

/-- Bytes that continue a character come from a plain one. -/
theorem content_tails {tails inside : Bytes} (all : ∀ byte ∈ tails, Utf8.IsTail byte)
    (read : content bytes = .ok (tails ++ inside, rest)) :
    ∃ behind, bytes = tails ++ behind ∧ content behind = .ok (inside, rest) := by
  induction tails generalizing bytes with
  | nil => exact ⟨bytes, rfl, read⟩
  | cons byte others step =>
    have tail := all byte (List.mem_cons_self ..)
    have begins := begins_of_content read
    generalize whole : byte :: others ++ inside = content at begins
    cases begins with
    | quote => exact absurd whole (List.cons_ne_nil _ _)
    | @escaped _ _ _ _ c _ _ =>
      cases bytes : String.utf8EncodeChar c with
      | nil => exact absurd bytes String.utf8EncodeChar_ne_nil
      | cons first more =>
        rw [bytes] at whole
        rw [(List.cons.inj whole).1] at tail
        exact absurd tail (isTail_of_encode bytes).1
    | plain plain inner =>
      obtain ⟨rfl, same⟩ := List.cons.inj whole
      rw [← same] at inner
      obtain ⟨behind, rfl, later⟩ :=
        step (fun other member => all other (List.mem_cons_of_mem _ member)) inner
      exact ⟨behind, rfl, later⟩

/-- **What is read as a text inside a string is a spelling of the text.** -/
theorem spells_of_content {text : Text} (read : content bytes = .ok (Utf8.encode text, rest)) :
    ∃ spelled, SpellsText text spelled ∧ bytes = spelled ++ quoteByte :: rest := by
  induction text generalizing bytes with
  | nil =>
    have begins := begins_of_content read
    generalize whole : Utf8.encode [] = inside at begins
    cases begins with
    | quote => exact ⟨[], .nil, rfl⟩
    | escaped _ _ =>
      exact absurd (List.append_eq_nil_iff.mp whole.symm).1 String.utf8EncodeChar_ne_nil
    | plain _ _ => exact absurd whole.symm (List.cons_ne_nil _ _)
  | cons c later step =>
    have begins := begins_of_content read
    generalize whole : Utf8.encode (c :: later) = inside at begins
    rw [Utf8.encode_cons] at whole
    cases begins with
    | quote => exact absurd (List.append_eq_nil_iff.mp whole).1 String.utf8EncodeChar_ne_nil
    | escaped escaped inner =>
      obtain ⟨rfl, rfl⟩ := Utf8.encode_cancel whole
      obtain ⟨spelled, escapes, rfl⟩ := escape_eq_ok_iff.mp escaped
      obtain ⟨others, spells, rfl⟩ := step inner
      exact ⟨_, .cons (.escaped escapes) spells, by simp⟩
    | plain plain inner =>
      cases bytes : String.utf8EncodeChar c with
      | nil => exact absurd bytes String.utf8EncodeChar_ne_nil
      | cons first more =>
        -- the bytes of the character that follow its first one are plain bytes as well
        rw [bytes] at whole
        obtain ⟨rfl, rfl⟩ := List.cons.inj whole
        have tails := (isTail_of_encode bytes).2
        obtain ⟨behind, rfl, outer⟩ := content_tails tails inner
        obtain ⟨others, spells, rfl⟩ := step outer
        have all : ∀ byte ∈ String.utf8EncodeChar c, IsPlain byte := by
          rw [bytes]
          exact List.forall_mem_cons.mpr ⟨plain, fun byte member =>
            isPlain_high (tails byte member).1⟩
        obtain ⟨visible, notQuote, notBackslash⟩ := isPlain_encode_iff.mp all
        refine ⟨_, .cons (.plain visible notQuote notBackslash) spells, ?_⟩
        rw [bytes, List.append_assoc]
        rfl

/-- **A string is read exactly from what spells it.** -/
theorem string_eq_ok_iff {text : Text} :
    string bytes = .ok (text, rest) ↔
      ∃ spelled, SpellsText text spelled ∧ bytes = spelled ++ quoteByte :: rest := by
  unfold string
  constructor
  · intro read
    split at read
    · simp at read
    · rename_i inside behind inner
      split at read
      · rename_i decoded
        rw [Except.ok.injEq, Prod.mk.injEq] at read
        obtain ⟨rfl, rfl⟩ := read
        rw [Utf8.decode_eq_ok_iff.mp decoded] at inner
        exact spells_of_content inner
      · simp at read
  · rintro ⟨spelled, spells, rfl⟩
    rw [content_of_spells spells]
    simp [Utf8.decode_eq_ok_iff.mpr (rfl : Utf8.encode text = Utf8.encode text)]

/-- A text without control characters, quotes and backslashes spells itself. -/
theorem SpellsText.plain {text : Text}
    (all : text.all fun c => 0x20 ≤ c.toNat && c != '"' && c != '\\') :
    SpellsText text (Utf8.encode text) := by
  induction text with
  | nil => exact .nil
  | cons c rest step =>
    simp only [List.all_cons, Bool.and_eq_true, decide_eq_true_eq, bne_iff_ne] at all
    obtain ⟨⟨⟨high, noQuote⟩, noBackslash⟩, others⟩ := all
    rw [Utf8.encode_cons]
    exact .cons (.plain high noQuote noBackslash) (step others)

end Handbook.Json
