/-
**What wrapping leaves of a text.**

Wrapping moves the characters of a text to other lines. It drops blanks at the ends of lines and
puts spaces and line feeds in their place, but brings in no other character.

* `flatten_takeLine`: a line and what is left for the lines after it are all chunks;
* `sublist_fillLines`: lines hold the characters of their chunks, in order;
* `mem_of_mem_wrap`: a character of a wrapped text stands in the text or is a space or a line feed.
-/

import Mathlib.Data.List.Flatten
import Handbook.Proofs.Text.Cut
import Handbook.Text.Fill

namespace Handbook.Text

/-! ### One line -/

theorem mem_of_mem_expandTabs {column : Nat} {line : Text} {c : Char}
    (member : c ∈ expandTabs column line) : c ∈ line ∨ c = ' ' := by
  induction line generalizing column with
  | nil => exact absurd member List.not_mem_nil
  | cons d rest step =>
    rw [expandTabs] at member
    split at member
    · rcases List.mem_append.mp member with space | later
      · exact Or.inr (List.eq_of_mem_replicate space)
      · exact (step later).imp_left (List.mem_cons_of_mem _)
    · rcases List.mem_cons.mp member with same | later
      · exact Or.inl (same ▸ List.mem_cons_self ..)
      · exact (step later).imp_left (List.mem_cons_of_mem _)

theorem mem_of_mem_levelBlanks {line : Text} {c : Char} (member : c ∈ levelBlanks line) :
    c ∈ line ∨ c = ' ' := by
  obtain ⟨d, inside, same⟩ := List.mem_map.mp member
  split at same
  · exact Or.inr same.symm
  · exact same ▸ mem_of_mem_expandTabs inside

theorem append_takeFitting (room : Nat) (chunks : List Text) :
    (takeFitting room chunks).1 ++ (takeFitting room chunks).2 = chunks := by
  induction chunks generalizing room with
  | nil => rfl
  | cons chunk others step =>
    rw [takeFitting]
    split
    · exact congrArg (chunk :: ·) (step (room - chunk.length))
    · rfl

theorem prefix_trimEnd (drops : Char → Bool) (text : Text) : trimEnd drops text <+: text := by
  rw [trimEnd, ← List.reverse_suffix, List.reverse_reverse]
  exact List.dropWhile_suffix _

/-- What is broken off a chunk is its beginning. -/
theorem prefix_breakOff (room : Nat) (chunk : Text) : breakOff room chunk <+: chunk := by
  rw [breakOff]
  split
  · exact (prefix_trimEnd _ _).trans (List.take_prefix _ _)
  · exact List.take_prefix _ _

/-- **A line and what is left for the lines after it are all chunks.** -/
theorem flatten_takeLine (width : Width) (chunks : List Text) :
    (takeLine width chunks).1.flatten ++ (takeLine width chunks).2.flatten = chunks.flatten := by
  have all := append_takeFitting width.columns chunks
  rw [takeLine]
  split
  · rename_i line fits
    rw [fits, List.append_nil] at all
    rw [all, List.flatten_nil, List.append_nil]
  · rename_i line chunk others fits
    rw [fits] at all
    have whole := List.prefix_iff_eq_append.mp
      (prefix_breakOff (width.columns - line.flatten.length) chunk)
    split
    · simp only [← all, List.flatten_append, List.flatten_cons, List.flatten_nil, List.append_nil,
        List.append_assoc]
      rw [← List.append_assoc (breakOff _ _), whole]
    · rw [← all, List.flatten_append]

theorem dropBlankEnd_sublist (line : List Text) : (dropBlankEnd line).Sublist line := by
  rw [dropBlankEnd]
  split
  · exact List.dropLast_sublist line
  · exact List.Sublist.refl line

/-! ### All lines -/

/-- A line behind another one leaves out a blank chunk at its start, and takes the others. -/
theorem sublist_taken (width : Width) (started : Bool) (chunk : Text) (others : List Text) :
    let taken := takeLine width (if started && isBlankText chunk then others else chunk :: others)
    (taken.1.flatten ++ taken.2.flatten).Sublist (chunk :: others).flatten := by
  intro taken
  rw [flatten_takeLine]
  split
  · exact (List.sublist_cons_self chunk others).flatten
  · exact List.Sublist.refl _

/-- **Lines hold the characters of their chunks, in order.** -/
theorem sublist_fillLines (width : Width) (started : Bool) (chunks : List Text) :
    (fillLines width started chunks).flatten.Sublist chunks.flatten := by
  fun_induction fillLines width started chunks with
  | case1 => exact List.Sublist.refl _
  | case2 started chunk others taken line empty step =>
    have left : taken.2.flatten.Sublist (taken.1.flatten ++ taken.2.flatten) :=
      List.sublist_append_right _ _
    exact (step.trans left).trans (sublist_taken width started chunk others)
  | case3 started chunk others taken line filled step =>
    have kept : line.flatten.Sublist taken.1.flatten := (dropBlankEnd_sublist _).flatten
    exact (kept.append step).trans (sublist_taken width started chunk others)

theorem mem_of_mem_intercalate {separator : Text} {parts : List Text} {c : Char}
    (member : c ∈ separator.intercalate parts) : c ∈ separator ∨ ∃ part ∈ parts, c ∈ part := by
  induction parts with
  | nil => exact absurd member List.not_mem_nil
  | cons part others step =>
    cases others with
    | nil =>
      rw [List.intercalate_singleton] at member
      exact Or.inr ⟨part, List.mem_cons_self .., member⟩
    | cons next rest =>
      rw [List.intercalate_cons_cons, List.mem_append, List.mem_append] at member
      rcases member with (inside | between) | later
      · exact Or.inr ⟨part, List.mem_cons_self .., inside⟩
      · exact Or.inl between
      · exact (step later).imp_right fun ⟨other, found, inside⟩ =>
          ⟨other, List.mem_cons_of_mem _ found, inside⟩

theorem mem_of_mem_fill {width : Width} {line : Text} {c : Char} (member : c ∈ fill width line) :
    c ∈ line ∨ c = ' ' ∨ c = '\n' := by
  rcases mem_of_mem_intercalate member with feed | ⟨filled, found, inside⟩
  · exact Or.inr (Or.inr (List.mem_singleton.mp feed))
  · have leveled := (sublist_fillLines width false (chunks (levelBlanks line))).subset
      (List.mem_flatten.mpr ⟨filled, found, inside⟩)
    rw [flatten_chunks] at leveled
    exact (mem_of_mem_levelBlanks leveled).imp_right Or.inl

/-- **A character of a wrapped text stands in the text or is a space or a line feed.** -/
theorem mem_of_mem_wrap {width : Width} {text : Text} {c : Char} (member : c ∈ wrap width text) :
    c ∈ text ∨ c = ' ' ∨ c = '\n' := by
  rcases mem_of_mem_intercalate member with feed | ⟨wrapped, found, inside⟩
  · exact Or.inr (Or.inr (List.mem_singleton.mp feed))
  · obtain ⟨line, piece, rfl⟩ := List.mem_map.mp found
    split at inside
    · exact absurd inside List.not_mem_nil
    · exact (mem_of_mem_fill inside).imp_left (mem_of_mem_split piece)

end Handbook.Text
