/-
**Arguments in emphasis.**

In Markdown an argument stands between two asterisks, and its own markup is behind a backslash. A
backslash of the argument itself is written as it is. So where an odd number of them stands right
before markup, the one that is put in only escapes the last of them, and the markup is active; and
where an odd number ends the argument, the closing asterisk is escaped.

* `backslashesAtEnd_escapeArgument`: escaping leaves the backslashes at the end of a text;
* `exists_of_escapeArgument_cut`: the markup of an escaped argument is that of the argument;
* `escapes_markup_iff`, `escapes_closing_iff`: which markup is escaped;
* `emphasized_iff`: only the delimiters are active exactly when no backslash is in their way.
-/

import Mathlib.Data.List.Induction
import Handbook.Layout.Entry

namespace Handbook

open Markdown

/-! ### Backslashes at the end of a text -/

/-- How many backslashes end a text. -/
def backslashesAtEnd (text : Text) : Nat := (text.reverse.takeWhile (· == '\\')).length

/-- A text escapes the character behind it: an odd number of backslashes ends it. -/
def Escapes (front : Text) : Prop := backslashesAtEnd front % 2 = 1

instance (front : Text) : Decidable (Escapes front) :=
  inferInstanceAs (Decidable (backslashesAtEnd front % 2 = 1))

@[simp] theorem backslashesAtEnd_nil : backslashesAtEnd [] = 0 := rfl

theorem backslashesAtEnd_concat (front : Text) (c : Char) :
    backslashesAtEnd (front ++ [c]) = if c = '\\' then backslashesAtEnd front + 1 else 0 := by
  rw [backslashesAtEnd, List.reverse_concat, List.takeWhile_cons]
  by_cases backslash : c = '\\' <;> simp [backslash, backslashesAtEnd]

/-- What stands before a character other than a backslash does not count. -/
theorem backslashesAtEnd_cons {c : Char} (other : c ≠ '\\') (rest : Text) :
    backslashesAtEnd (c :: rest) = backslashesAtEnd rest := by
  induction rest using List.reverseRecOn with
  | nil => rw [← List.nil_append [c], backslashesAtEnd_concat, if_neg other, backslashesAtEnd_nil]
  | append_singleton rest d step =>
    rw [← List.cons_append, backslashesAtEnd_concat, backslashesAtEnd_concat, step]

/-- A backslash more escapes exactly what was not escaped. -/
theorem escapes_backslash_iff (front : Text) : Escapes (front ++ ['\\']) ↔ ¬ Escapes front := by
  rw [Escapes, Escapes, backslashesAtEnd_concat, if_pos rfl]
  omega

/-! ### Escaped arguments -/

theorem ne_backslash_of_isMarkup {c : Char} (markup : isMarkup c = true) : c ≠ '\\' := by
  rintro rfl
  exact absurd markup (by decide)

theorem escapeArgument_nil : escapeArgument [] = [] := rfl

theorem escapeArgument_cons (c : Char) (rest : Text) :
    escapeArgument (c :: rest) = (if isMarkup c then ['\\', c] else [c]) ++ escapeArgument rest :=
  List.flatMap_cons

theorem escapeArgument_markup {c : Char} (markup : isMarkup c = true) (rest : Text) :
    escapeArgument (c :: rest) = '\\' :: c :: escapeArgument rest := by
  rw [escapeArgument_cons, if_pos markup]
  rfl

theorem escapeArgument_other {c : Char} (other : isMarkup c = false) (rest : Text) :
    escapeArgument (c :: rest) = c :: escapeArgument rest := by
  rw [escapeArgument_cons, other]
  rfl

/-- **Escaping leaves the backslashes at the end of a text**, since each that it puts in stands before
markup. -/
theorem backslashesAtEnd_escapeArgument (argument : Text) :
    backslashesAtEnd (escapeArgument argument) = backslashesAtEnd argument := by
  induction argument using List.reverseRecOn with
  | nil => rfl
  | append_singleton front c step =>
    rw [escapeArgument_append, backslashesAtEnd_concat]
    by_cases markup : isMarkup c = true
    · have other := ne_backslash_of_isMarkup markup
      rw [escapeArgument_markup markup, escapeArgument_nil, List.append_cons,
        backslashesAtEnd_concat, if_neg other, if_neg other]
    · rw [escapeArgument_other (Bool.not_eq_true _ ▸ markup), escapeArgument_nil,
        backslashesAtEnd_concat, step]

/-- **The markup of an escaped argument is that of the argument**, each behind a backslash that was
put in. -/
theorem exists_of_escapeArgument_cut {argument front rest : Text} {c : Char}
    (markup : isMarkup c = true) (cut : escapeArgument argument = front ++ c :: rest) :
    ∃ early late, argument = early ++ c :: late ∧ front = escapeArgument early ++ ['\\'] ∧
      rest = escapeArgument late := by
  induction argument generalizing front with
  | nil => exact absurd cut.symm (List.append_ne_nil_of_right_ne_nil _ (List.cons_ne_nil _ _))
  | cons d others step =>
    have later {more : Text} (cut : escapeArgument others = more ++ c :: rest) :
        ∃ early late, d :: others = early ++ c :: late ∧
          escapeArgument [d] ++ more = escapeArgument early ++ ['\\'] ∧
          rest = escapeArgument late := by
      obtain ⟨early, late, rfl, rfl, rfl⟩ := step cut
      exact ⟨d :: early, late, rfl, by rw [← List.append_assoc, ← escapeArgument_append]; rfl, rfl⟩
    by_cases active : isMarkup d = true
    · rw [escapeArgument_markup active] at cut
      rcases front with _ | ⟨first, _ | ⟨second, more⟩⟩
      · -- the backslash that was put in is no markup
        rw [List.nil_append, List.cons.injEq] at cut
        exact absurd cut.1.symm (ne_backslash_of_isMarkup markup)
      · simp only [List.cons_append, List.nil_append, List.cons.injEq] at cut
        obtain ⟨rfl, rfl, rfl⟩ := cut
        exact ⟨[], others, rfl, rfl, rfl⟩
      · simp only [List.cons_append, List.cons.injEq] at cut
        obtain ⟨rfl, rfl, cut⟩ := cut
        have whole := later cut
        rwa [escapeArgument_markup active] at whole
    · have other : isMarkup d = false := Bool.not_eq_true _ ▸ active
      rw [escapeArgument_other other] at cut
      rcases front with _ | ⟨first, more⟩
      · rw [List.nil_append, List.cons.injEq] at cut
        rw [cut.1] at active
        exact absurd markup active
      · rw [List.cons_append, List.cons.injEq] at cut
        obtain ⟨rfl, cut⟩ := cut
        have whole := later cut
        rwa [escapeArgument_other other] at whole

/-! ### Between the delimiters -/

/-- **Markup of an argument is escaped in emphasis exactly when it is not escaped already.** -/
theorem escapes_markup_iff (front : Text) :
    Escapes ('*' :: (escapeArgument front ++ ['\\'])) ↔ ¬ Escapes front := by
  rw [← List.cons_append, escapes_backslash_iff, Escapes, backslashesAtEnd_cons (by decide),
    backslashesAtEnd_escapeArgument]
  rfl

/-- **The closing asterisk is escaped exactly when the argument escapes what is behind it.** -/
theorem escapes_closing_iff (argument : Text) :
    Escapes ('*' :: escapeArgument argument) ↔ Escapes argument := by
  rw [Escapes, backslashesAtEnd_cons (by decide), backslashesAtEnd_escapeArgument]
  rfl

/-- Only the delimiters of a text are active: it begins and ends with an asterisk, and of its markup
exactly what stands between these two is escaped. -/
structure Emphasized (written : Text) : Prop where
  delimited : ∃ inside, written = ['*'] ++ inside ++ ['*']
  escaped : ∀ front c rest, written = front ++ c :: rest → isMarkup c = true →
    (Escapes front ↔ front ≠ [] ∧ rest ≠ [])

/-- **An argument in emphasis keeps only its delimiters active exactly when no odd number of
backslashes stands in it right before markup, or at its end.** -/
theorem emphasized_iff (argument : Text) :
    Emphasized (Entry.markdownArgument argument) ↔
      ∀ front rest, argument = front ++ rest → (∀ c ∈ rest.head?, isMarkup c = true) →
        ¬ Escapes front := by
  have asterisk : isMarkup '*' = true := by decide
  constructor
  · intro emphasized front rest cut ahead
    cases rest with
    | nil =>
      -- the whole argument stands before the closing asterisk
      rw [List.append_nil] at cut
      have last := emphasized.escaped ('*' :: escapeArgument argument) '*' [] rfl asterisk
      rw [← cut, ← escapes_closing_iff, last]
      exact fun both => both.2 rfl
    | cons c others =>
      have markup := ahead c rfl
      have written : Entry.markdownArgument argument =
          '*' :: (escapeArgument front ++ ['\\']) ++ c :: (escapeArgument others ++ ['*']) := by
        rw [Entry.markdownArgument, cut, escapeArgument_append, escapeArgument_markup markup]
        simp
      rw [← escapes_markup_iff, emphasized.escaped _ c _ written markup]
      exact ⟨List.cons_ne_nil _ _, by simp⟩
  · intro even
    refine ⟨⟨_, rfl⟩, fun front c rest cut markup => ?_⟩
    -- a character that is markup is the first delimiter, the last one, or in the argument
    rcases front with _ | ⟨first, inside⟩
    · exact iff_of_false (by decide) fun both => both.1 rfl
    rw [Entry.markdownArgument, List.append_assoc, List.cons_append, List.cons_append,
      List.cons.injEq, List.nil_append] at cut
    obtain ⟨rfl, cut⟩ := cut
    rcases List.eq_nil_or_concat rest with rfl | ⟨others, last, rfl⟩
    · obtain ⟨rfl, -⟩ := List.append_inj' cut rfl
      refine iff_of_false ?_ fun both => both.2 rfl
      rw [escapes_closing_iff]
      exact even argument [] (List.append_nil _).symm fun c member => by simp at member
    · rw [List.concat_eq_append, ← List.cons_append, ← List.append_assoc] at cut
      obtain ⟨early, late, rfl, rfl, rfl⟩ :=
        exists_of_escapeArgument_cut markup (List.append_inj' cut rfl).1
      refine iff_of_true ?_ ⟨List.cons_ne_nil _ _, by simp⟩
      rw [escapes_markup_iff]
      exact even early (c :: late) rfl fun d member => by
        rw [List.head?_cons, Option.mem_some_iff] at member
        rwa [← member]

/-- The backslash before the asterisk is escaped by the one that is put in, and the asterisk is not. -/
theorem escapedArgument_active : ¬ Emphasized (Entry.markdownArgument "\\*".toList) := fun emphasized =>
  absurd ((emphasized.escaped "*\\\\".toList '*' ['*'] (by decide) (by decide)).mpr (by decide))
    (by decide)

end Handbook
