/-
**Where bytes stop being UTF-8.**

Bytes are well-formed if they are cut into characters of the table. When they are not, the fault says
where the longest well-formed beginning ends. What follows there may begin a character that the end
cuts off, or begin with a byte that begins no character; otherwise a byte stands where it cannot
continue the character.

* `wellFormed_iff`: the well-formed bytes are those of texts;
* `decode_eq_error`: a fault stands behind the longest well-formed beginning;
* `unexpectedEnd_iff`, `invalidStart_iff`: what its reason says of the bytes that follow.
-/

import Handbook.Proofs.Utf8
import Mathlib.Order.Bounds.Defs
import Mathlib.Tactic.SplitIfs

namespace Handbook.Utf8

/-- Bytes that are cut into characters of the table. -/
inductive WellFormed : Bytes → Prop where
  | nil : WellFormed []
  | append {code bytes rest} : Written code bytes → WellFormed rest → WellFormed (bytes ++ rest)

/-! ### Well-formed bytes -/

theorem wellFormed_encode (text : Text) : WellFormed (encode text) := by
  induction text with
  | nil => exact .nil
  | cons c rest step => exact .append (written_encode c) step

/-- **The well-formed bytes are those of texts.** -/
theorem wellFormed_iff {bytes : Bytes} : WellFormed bytes ↔ ∃ text, bytes = encode text := by
  constructor
  · intro wellFormed
    induction wellFormed with
    | nil => exact ⟨[], rfl⟩
    | @append code _ _ written _ step =>
      obtain ⟨text, rfl⟩ := step
      exact ⟨Char.ofNat code :: text, by rw [encode_cons, written.encode_eq]⟩
  · rintro ⟨text, rfl⟩
    exact wellFormed_encode text

theorem encode_append (first second : Text) :
    encode (first ++ second) = encode first ++ encode second :=
  List.flatMap_append

theorem WellFormed.join {first second : Bytes} (one : WellFormed first) (two : WellFormed second) :
    WellFormed (first ++ second) := by
  obtain ⟨text, rfl⟩ := wellFormed_iff.mp one
  obtain ⟨text', rfl⟩ := wellFormed_iff.mp two
  exact encode_append text text' ▸ wellFormed_encode _

/-! ### The bytes of one character -/

/-- Bytes that may follow can be found for every first byte that promises some. -/
theorem follow_completes {low high : UInt8} (range : low ≤ high) (bits taken more : Nat) :
    ∃ rest code, rest.length = more ∧ follow low high bits taken more rest = .ok (code, []) := by
  induction more generalizing low high bits taken with
  | zero => exact ⟨[], bits, rfl, rfl⟩
  | succ more step =>
    obtain ⟨rest, code, length, followed⟩ := step (by decide : (0x80 : UInt8) ≤ 0xBF)
      (bits * 0x40 + (low.toNat - 0x80)) (taken + 1)
    refine ⟨low :: rest, code, by rw [List.length_cons, length], ?_⟩
    rw [follow, if_pos ⟨UInt8.le_refl low, range⟩, followed]

/-- Where bytes end too early, they can be completed. -/
theorem exists_of_unexpectedEnd {low high : UInt8} (range : low ≤ high) {bits taken more size : Nat}
    {bytes : Bytes}
    (failed : follow low high bits taken more bytes = .error (size, .unexpectedEnd)) :
    ∃ rest code, rest ≠ [] ∧ follow low high bits taken more (bytes ++ rest) = .ok (code, []) := by
  induction more generalizing low high bits taken bytes with
  | zero => simp [follow] at failed
  | succ more step =>
    cases bytes with
    | nil =>
      obtain ⟨rest, code, length, followed⟩ := follow_completes range bits taken (more + 1)
      exact ⟨rest, code, List.ne_nil_of_length_eq_add_one length, followed⟩
    | cons byte others =>
      rw [follow] at failed
      split at failed
      · rename_i inside
        obtain ⟨rest, code, nonempty, followed⟩ := step (by decide) failed
        exact ⟨rest, code, nonempty, by rw [List.cons_append, follow, if_pos inside, followed]⟩
      · simp at failed

/-- Bytes that can be completed, and only so, end too early. -/
theorem unexpectedEnd_of_follow {low high : UInt8} {bits taken more code : Nat}
    {bytes rest : Bytes} (nonempty : rest ≠ [])
    (followed : follow low high bits taken more (bytes ++ rest) = .ok (code, [])) :
    ∃ size, follow low high bits taken more bytes = .error (size, .unexpectedEnd) := by
  induction more generalizing low high bits taken bytes with
  | zero =>
    rw [follow_zero_eq_ok_iff, List.append_eq_nil_iff] at followed
    exact absurd followed.2.2 nonempty
  | succ more step =>
    cases bytes with
    | nil => exact ⟨taken, rfl⟩
    | cons byte others =>
      rw [List.cons_append, follow] at followed
      split at followed
      · rename_i inside
        obtain ⟨size, failed⟩ := step followed
        exact ⟨size, by rw [follow, if_pos inside, failed]⟩
      · simp at followed

theorem follow_ne_invalidStart {low high : UInt8} {bits taken more size : Nat} {bytes : Bytes} :
    follow low high bits taken more bytes ≠ .error (size, .invalidStart) := by
  induction more generalizing low high bits taken bytes with
  | zero => simp [follow]
  | succ more step =>
    cases bytes with
    | nil => simp [follow]
    | cons byte others =>
      rw [follow]
      split
      · exact step
      · simp

theorem range_of_lead {first : UInt8} {lead : Lead} (leads : lead? first = some lead) :
    lead.low ≤ lead.high := by
  unfold lead? at leads
  split_ifs at leads <;> cases leads <;> dsimp only <;> decide

section

variable {first : UInt8} {rest : Bytes} {size : Nat} {reason : Reason}

/-- A character fails to begin with a byte that promises nothing, or with one whose promise is not
kept. -/
theorem next_eq_error_iff :
    next first rest = .error (size, reason) ↔
      (lead? first = none ∧ size = 1 ∧ reason = .invalidStart) ∨ ∃ lead, lead? first = some lead ∧
        follow lead.low lead.high lead.bits 1 lead.more rest = .error (size, reason) := by
  unfold next
  cases lead? first with
  | none => simp [eq_comm]
  | some lead => simp [map_eq_error_iff]

/-- **A character begins with no byte that begins no bytes of the table.** -/
theorem invalidStart_iff (failed : next first rest = .error (size, reason)) :
    reason = .invalidStart ↔ ∀ code more, ¬ Written code (first :: more) := by
  rcases next_eq_error_iff.mp failed with ⟨leads, _, rfl⟩ | ⟨lead, leads, failed⟩
  · refine iff_of_true rfl fun code more written => ?_
    have read := next_eq_ok_iff_written.mpr ⟨code, more, written, (List.append_nil more).symm, rfl⟩
    obtain ⟨lead, _, leads', _⟩ := next_eq_ok_iff_follow.mp read
    rw [leads] at leads'
    exact absurd leads' (Option.some_ne_none lead).symm
  · refine iff_of_false (fun same => follow_ne_invalidStart (same ▸ failed)) fun none => ?_
    obtain ⟨more, code, _, followed⟩ := follow_completes (range_of_lead leads) lead.bits 1 lead.more
    obtain ⟨code, more, written, _⟩ := next_eq_ok_iff_written.mp
      (next_eq_ok_iff_follow.mpr ⟨lead, code, leads, followed, rfl⟩)
    exact none code more written

/-- **A character ends too early if more bytes would make bytes of the table.** -/
theorem unexpectedEnd_iff (failed : next first rest = .error (size, reason)) :
    reason = .unexpectedEnd ↔
      ∃ code bytes, Written code bytes ∧ first :: rest <+: bytes ∧ first :: rest ≠ bytes := by
  constructor
  · rintro rfl
    rcases next_eq_error_iff.mp failed with ⟨_, _, other⟩ | ⟨lead, leads, failed⟩
    · exact absurd other (by decide)
    · obtain ⟨more, code, nonempty, followed⟩ := exists_of_unexpectedEnd (range_of_lead leads) failed
      obtain ⟨code, bytes, written, same, _⟩ := next_eq_ok_iff_written.mp
        (next_eq_ok_iff_follow.mpr ⟨lead, code, leads, followed, rfl⟩)
      rw [List.append_nil] at same
      rw [← same] at written
      exact ⟨code, _, written, ⟨more, rfl⟩, by simpa using nonempty⟩
  · rintro ⟨code, _, written, ⟨more, rfl⟩, proper⟩
    have nonempty : more ≠ [] := by
      rintro rfl
      exact proper (List.append_nil _).symm
    obtain ⟨lead, _, leads, followed, _⟩ := next_eq_ok_iff_follow.mp <|
      next_eq_ok_iff_written.mpr ⟨code, rest ++ more, written, (List.append_nil _).symm, rfl⟩
    obtain ⟨size', early⟩ := unexpectedEnd_of_follow nonempty followed
    have same := failed.symm.trans (next_eq_error_iff.mpr (.inr ⟨lead, leads, early⟩))
    rw [Except.error.injEq, Prod.mk.injEq] at same
    exact same.2

end

/-! ### The place of a fault -/

/-- A fault stands behind a text, where no character begins. -/
theorem decodeFrom_eq_error {place : Nat} {bytes : Bytes} {fault : Fault}
    (failed : decodeFrom place bytes = .error fault) :
    ∃ text rest, bytes = encode text ++ fault.first :: rest ∧
      fault.start = place + (encode text).length ∧
      next fault.first rest = .error (fault.size, fault.reason) := by
  fun_induction decodeFrom place bytes with
  | case1 => simp at failed
  | case2 place first rest size reason read =>
    rw [Except.error.injEq] at failed
    subst failed
    exact ⟨[], rest, rfl, rfl, read⟩
  | case3 place first rest c left read step =>
    obtain ⟨text, others, rfl, start, none⟩ := step (map_eq_error_iff.mp failed)
    refine ⟨c :: text, others, ?_, ?_, none⟩
    · rw [next_eq_ok_iff.mp read, encode_cons, List.append_assoc]
    · rw [start, encode_cons, List.length_append, String.length_utf8EncodeChar, Nat.add_assoc]

/-- Bytes at which no character begins are not passed by a well-formed beginning. -/
theorem length_le_of_wellFormed {text : Text} {first : UInt8} {rest front : Bytes} {size : Nat}
    {reason : Reason} (failed : next first rest = .error (size, reason))
    (begins : front <+: encode text ++ first :: rest) (wellFormed : WellFormed front) :
    front.length ≤ (encode text).length := by
  obtain ⟨others, rfl⟩ := wellFormed_iff.mp wellFormed
  obtain ⟨behind, cut⟩ := begins
  -- Both texts are read off the same bytes, so they agree until the shorter one ends.
  induction others generalizing text with
  | nil => exact Nat.zero_le _
  | cons c others step =>
    rw [encode_cons, List.append_assoc] at cut
    cases text with
    | nil =>
      rw [next_eq_ok_iff.mpr cut.symm] at failed
      exact absurd failed (by simp)
    | cons d text =>
      rw [encode_cons, List.append_assoc] at cut
      obtain ⟨rfl, later⟩ := encode_cancel cut
      rw [encode_cons, encode_cons, List.length_append, List.length_append]
      exact Nat.add_le_add_left (step (wellFormed_encode others) later) _

/-- Whether bytes begin a character that is longer than they are. -/
def CutOff (bytes : Bytes) : Prop :=
  bytes ≠ [] ∧ ∃ code spelled, Written code spelled ∧ bytes <+: spelled ∧ bytes ≠ spelled

/-- Whether there is a first byte, and no character begins with it. -/
def BeginsNothing (bytes : Bytes) : Prop :=
  ∃ first, bytes.head? = some first ∧ ∀ code more, ¬ Written code (first :: more)

/-- **A fault stands where the longest well-formed beginning ends**, and its reason says what follows
there. -/
theorem decode_eq_error {bytes : Bytes} {fault : Fault} (failed : decode bytes = .error fault) :
    IsGreatest {length | ∃ front, front <+: bytes ∧ WellFormed front ∧ front.length = length}
      fault.start ∧
    (fault.reason = .unexpectedEnd ↔ CutOff (bytes.drop fault.start)) ∧
    (fault.reason = .invalidStart ↔ BeginsNothing (bytes.drop fault.start)) := by
  obtain ⟨text, rest, rfl, start, none⟩ := decodeFrom_eq_error failed
  rw [Nat.zero_add] at start
  rw [start, List.drop_left]
  refine ⟨⟨⟨_, ⟨_, rfl⟩, wellFormed_encode text, rfl⟩, ?_⟩, ?_, ?_⟩
  · rintro _ ⟨front, begins, wellFormed, rfl⟩
    exact length_le_of_wellFormed none begins wellFormed
  · rw [unexpectedEnd_iff none, CutOff, and_iff_right (List.cons_ne_nil _ _)]
  · rw [invalidStart_iff none, BeginsNothing, List.head?_cons]
    simp

/-- Bytes are read as a text exactly if they are well-formed. -/
theorem exists_decode_iff {bytes : Bytes} :
    (∃ text, decode bytes = .ok text) ↔ WellFormed bytes := by
  rw [wellFormed_iff]
  exact exists_congr fun text => decode_eq_ok_iff

end Handbook.Utf8
