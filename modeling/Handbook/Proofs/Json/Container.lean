/-
**Reading containers.**

If a reader takes what spells a value, the readers of items and members take what spells lists of
values and of named values. There is fuel for each of them, since commas part them.

* `items_sound`, `items_complete`: the items of an array;
* `members_sound`, `members_complete`: the members of an object.
-/

import Handbook.Proofs.Json.Number
import Handbook.Proofs.Json.String

namespace Handbook.Json

open Text

/-! ### Blanks -/

theorem skipBlanks_cut (bytes : Bytes) :
    ∃ blanks, Blank blanks ∧ bytes = blanks ++ skipBlanks bytes :=
  ⟨bytes.takeWhile isBlankByte, fun _ => of_mem_takeWhile, List.takeWhile_append_dropWhile.symm⟩

theorem skipBlanks_append {blanks rest : Bytes} (blank : Blank blanks)
    (stops : Stops isBlankByte rest) : skipBlanks (blanks ++ rest) = rest :=
  dropWhile_cut blank stops

theorem skipBlanks_cons {blanks : Bytes} {byte : UInt8} (blank : Blank blanks)
    (other : isBlankByte byte = false) (rest : Bytes) :
    skipBlanks (blanks ++ byte :: rest) = byte :: rest :=
  skipBlanks_append blank (stops_cons other rest)

theorem Blank.nil : Blank [] := fun _ member => absurd member List.not_mem_nil

theorem Blank.append {first second : Bytes} (one : Blank first) (two : Blank second) :
    Blank (first ++ second) := by
  intro byte member
  rcases List.mem_append.mp member with early | late
  · exact one byte early
  · exact two byte late

theorem stops_isNumberByte {blanks rest : Bytes} (blank : Blank blanks)
    (stops : Stops isNumberByte rest) : Stops isNumberByte (blanks ++ rest) := by
  cases blanks with
  | nil => exact stops
  | cons byte others =>
    refine stops_cons ?_ _
    have isBlank := blank byte (List.mem_cons_self ..)
    simp only [isBlankByte, List.mem_cons, List.not_mem_nil, or_false, decide_eq_true_eq] at isBlank
    rcases isBlank with rfl | rfl | rfl | rfl <;> decide

/-! ### Readers of what is spelled -/

/-- A byte that can begin a value: no blank, and none that closes a container. -/
def Opens (byte : UInt8) : Prop := isBlankByte byte = false ∧ byte ≠ 0x5D ∧ byte ≠ 0x7D

/-- A reader that takes blanks and then exactly what spells a value, if no byte follows that makes a
number longer. -/
structure Reads (read : Reader Value) (spells : Value → Bytes → Prop) : Prop where
  opens : ∀ {value spelled}, spells value spelled → ∃ byte others, spelled = byte :: others ∧
    Opens byte
  sound : ∀ {bytes value rest}, read bytes = .ok (value, rest) → ∃ before spelled, Blank before ∧
    spells value spelled ∧ bytes = before ++ (spelled ++ rest)
  complete : ∀ {before value spelled rest}, Blank before → spells value spelled →
    Stops isNumberByte rest → read (before ++ (spelled ++ rest)) = .ok (value, rest)

variable {read : Reader Value} {spells : Value → Bytes → Prop}

/-- A value is read up to a byte behind blanks that makes no number longer. -/
theorem Reads.upTo (reads : Reads read spells) {before spelled blanks : Bytes} {value : Value}
    {byte : UInt8} (blank : Blank before) (one : spells value spelled) (blank' : Blank blanks)
    (other : isNumberByte byte = false) (rest : Bytes) :
    read (before ++ (spelled ++ (blanks ++ byte :: rest))) = .ok (value, blanks ++ byte :: rest) :=
  reads.complete blank one (stops_isNumberByte blank' (stops_cons other rest))

/-! ### Items -/

theorem SpellsList.opens {Item : Type} {spells : Item → Bytes → Prop}
    (opens : ∀ {item spelled}, spells item spelled → ∃ byte others, spelled = byte :: others ∧
      Opens byte) {items : List Item} {spelled : Bytes} (list : SpellsList spells items spelled) :
    ∃ byte others, spelled = byte :: others ∧ Opens byte := by
  cases list with
  | last one _ =>
    obtain ⟨byte, others, rfl, opening⟩ := opens one
    exact ⟨byte, _, rfl, opening⟩
  | next one _ _ _ =>
    obtain ⟨byte, others, rfl, opening⟩ := opens one
    exact ⟨byte, _, rfl, opening⟩

/-- There are no more things than commas and one. -/
theorem SpellsList.length_le {Item : Type} {spells : Item → Bytes → Prop} {items : List Item}
    {spelled : Bytes} (list : SpellsList spells items spelled) :
    items.length ≤ spelled.length + 1 := by
  induction list with
  | last _ _ => simp
  | next _ _ _ _ step =>
    simp only [List.length_cons, List.length_append]
    omega

theorem items_sound (reads : Reads read spells) {fuel : Nat} {bytes rest : Bytes}
    {values : List Value} (whole : items read fuel bytes = .ok (values, rest)) :
    ∃ before spelled, Blank before ∧ SpellsList spells values spelled ∧
      bytes = before ++ (spelled ++ 0x5D :: rest) := by
  induction fuel generalizing bytes values with
  | zero => simp [items] at whole
  | succ fuel step =>
    obtain ⟨⟨value, behind⟩, first, done⟩ := bind_eq_ok_iff.mp whole
    obtain ⟨before, spelled, blank, one, rfl⟩ := reads.sound first
    obtain ⟨blanks, blank', cut⟩ := skipBlanks_cut behind
    dsimp only at done
    split at done
    · simp at done
    · rename_i after next
      simp only [pure, Except.pure, Except.ok.injEq, Prod.mk.injEq] at done
      obtain ⟨rfl, rfl⟩ := done
      rw [next] at cut
      refine ⟨before, _, blank, .last one blank', ?_⟩
      rw [cut, List.append_assoc]
    · rename_i after comma
      rw [comma] at cut
      obtain ⟨blanks', blankAfter, cut'⟩ := skipBlanks_cut after
      split at done
      · simp at done
      · simp at done
      · obtain ⟨⟨others, left⟩, later, done⟩ := bind_eq_ok_iff.mp done
        simp only [pure, Except.pure, Except.ok.injEq, Prod.mk.injEq] at done
        obtain ⟨rfl, rfl⟩ := done
        obtain ⟨blanks'', spelled', blankBehind, list, same⟩ := step later
        -- Blanks behind a comma may be skipped twice: by the container, and by the reader inside.
        refine ⟨before, _, blank, .next one blank' (blankAfter.append blankBehind) list, ?_⟩
        rw [cut, cut', same]
        simp
    · simp at done

/-- **The spelling of the items of an array is read as them.** -/
theorem items_complete (reads : Reads read spells) {fuel : Nat} {before spelled rest : Bytes}
    {values : List Value} (blank : Blank before) (list : SpellsList spells values spelled)
    (fueled : values.length ≤ fuel) :
    items read fuel (before ++ (spelled ++ 0x5D :: rest)) = .ok (values, rest) := by
  induction list generalizing fuel before with
  | @last value spelled blanks one blank' =>
    obtain ⟨fuel, rfl⟩ : ∃ less, fuel = less + 1 := ⟨fuel - 1, by simp at fueled; omega⟩
    have first := reads.upTo blank one blank' (by decide : isNumberByte 0x5D = false) rest
    have skipped := skipBlanks_cons blank' (by decide : isBlankByte 0x5D = false) rest
    rw [items, List.append_assoc, first]
    simp only [bind, Except.bind, skipped]
    rfl
  | @next value others spelled blanks blanks' later one blank' blankAfter list step =>
    obtain ⟨fuel, rfl⟩ : ∃ less, fuel = less + 1 := ⟨fuel - 1, by simp at fueled; omega⟩
    obtain ⟨byte, more, rfl, opening⟩ := list.opens reads.opens
    have first := reads.upTo blank one blank' (by decide : isNumberByte 0x2C = false)
      (blanks' ++ byte :: (more ++ 0x5D :: rest))
    have skipped := skipBlanks_cons blank' (by decide : isBlankByte 0x2C = false)
      (blanks' ++ byte :: (more ++ 0x5D :: rest))
    have skipped' := skipBlanks_cons blankAfter opening.1 (more ++ 0x5D :: rest)
    have further := @step fuel [] .nil (by simp at fueled; omega)
    have whole : before ++ (spelled ++ (blanks ++ 0x2C :: (blanks' ++ byte :: more)) ++
        0x5D :: rest) =
        before ++ (spelled ++ (blanks ++ 0x2C :: (blanks' ++ byte :: (more ++ 0x5D :: rest)))) := by
      simp
    rw [items, whole, first]
    simp only [bind, Except.bind, skipped, skipped']
    split
    · rename_i none
      exact absurd none (List.cons_ne_nil _ _)
    · rename_i closes
      exact absurd (List.cons.inj closes).1 opening.2.1
    · rw [List.nil_append, List.cons_append] at further
      rw [further]
      rfl

/-! ### Members -/

/-- **The name of a member is read exactly from what spells it.** -/
theorem memberName_eq_ok_iff {bytes rest : Bytes} {name : Text} :
    memberName bytes = .ok (name, rest) ↔ ∃ inside before, SpellsText name inside ∧ Blank before ∧
      bytes = inside ++ quoteByte :: (before ++ 0x3A :: rest) := by
  constructor
  · intro whole
    obtain ⟨⟨text, behind⟩, first, done⟩ := bind_eq_ok_iff.mp whole
    obtain ⟨inside, spells, rfl⟩ := string_eq_ok_iff.mp first
    obtain ⟨blanks, blank, cut⟩ := skipBlanks_cut behind
    dsimp only at done
    split at done
    · simp at done
    · rename_i after colon
      simp only [pure, Except.pure, Except.ok.injEq, Prod.mk.injEq] at done
      obtain ⟨rfl, rfl⟩ := done
      rw [colon] at cut
      exact ⟨inside, blanks, spells, blank, by rw [cut]⟩
    · simp at done
  · rintro ⟨inside, before, spells, blank, rfl⟩
    have first := string_eq_ok_iff.mpr
      ⟨inside, spells, @rfl _ (inside ++ quoteByte :: (before ++ 0x3A :: rest))⟩
    have skipped := skipBlanks_cons blank (by decide : isBlankByte 0x3A = false) rest
    rw [memberName, first]
    simp only [bind, Except.bind, skipped]
    rfl

/-- A member begins with the quote of its name. -/
theorem SpellsMember.quote {member : Text × Value} {spelled : Bytes}
    (one : SpellsMember spells member spelled) : ∃ others, spelled = quoteByte :: others := by
  obtain ⟨_, _, _, _⟩ := one
  exact ⟨_, rfl⟩

theorem SpellsList.quote {members : Members} {spelled : Bytes}
    (list : SpellsList (SpellsMember spells) members spelled) :
    ∃ others, spelled = quoteByte :: others := by
  cases list with
  | last one _ =>
    obtain ⟨others, rfl⟩ := one.quote
    exact ⟨_, rfl⟩
  | next one _ _ _ =>
    obtain ⟨others, rfl⟩ := one.quote
    exact ⟨_, rfl⟩

theorem members_sound (reads : Reads read spells) {fuel : Nat} {bytes rest : Bytes}
    {named : Members} (whole : members read fuel bytes = .ok (named, rest)) :
    ∃ spelled, SpellsList (SpellsMember spells) named spelled ∧
      quoteByte :: bytes = spelled ++ 0x7D :: rest := by
  induction fuel generalizing bytes named with
  | zero => simp [members] at whole
  | succ fuel step =>
    obtain ⟨⟨name, colon⟩, first, more⟩ := bind_eq_ok_iff.mp whole
    obtain ⟨⟨value, behind⟩, second, done⟩ := bind_eq_ok_iff.mp more
    obtain ⟨inside, before, text, blankName, rfl⟩ := memberName_eq_ok_iff.mp first
    obtain ⟨after, spelled, blankValue, one, rfl⟩ := reads.sound second
    have member : SpellsMember spells (name, value) _ := .member text blankName blankValue one
    obtain ⟨blanks, blank, cut⟩ := skipBlanks_cut behind
    dsimp only at done
    split at done
    · simp at done
    · rename_i others closing
      simp only [pure, Except.pure, Except.ok.injEq, Prod.mk.injEq] at done
      obtain ⟨rfl, rfl⟩ := done
      rw [closing] at cut
      refine ⟨_, .last member blank, ?_⟩
      rw [cut]
      simp
    · rename_i others comma
      rw [comma] at cut
      obtain ⟨blanks', blankAfter, cut'⟩ := skipBlanks_cut others
      split at done
      · simp at done
      · simp at done
      · rename_i next quote
        obtain ⟨⟨later, left⟩, last, done⟩ := bind_eq_ok_iff.mp done
        simp only [pure, Except.pure, Except.ok.injEq, Prod.mk.injEq] at done
        obtain ⟨rfl, rfl⟩ := done
        obtain ⟨spelled', list, same⟩ := step last
        refine ⟨_, .next member blank blankAfter list, ?_⟩
        have again : others = blanks' ++ (spelled' ++ 0x7D :: left) := by
          rw [cut', quote, ← same]
          rfl
        rw [cut, again]
        simp
      · simp at done
    · simp at done

/-- A member is read as its name and then its value. -/
theorem SpellsMember.reads (reads : Reads read spells) {member : Text × Value}
    {spelled behind : Bytes} (one : SpellsMember spells member (quoteByte :: spelled))
    (stops : Stops isNumberByte behind) :
    ∃ colon, memberName (spelled ++ behind) = .ok (member.1, colon) ∧
      read colon = .ok (member.2, behind) := by
  generalize whole : quoteByte :: spelled = bytes at one
  obtain @⟨name, value, inside, before, after, written, text, blankName, blankValue, one⟩ := one
  refine ⟨after ++ (written ++ behind), ?_, reads.complete blankValue one stops⟩
  refine memberName_eq_ok_iff.mpr ⟨inside, before, text, blankName, ?_⟩
  rw [(List.cons.inj whole).2]
  simp

/-- **The spelling of the members of an object is read as them.** -/
theorem members_complete (reads : Reads read spells) {fuel : Nat} {bytes rest : Bytes}
    {named : Members} (list : SpellsList (SpellsMember spells) named (quoteByte :: bytes))
    (fueled : named.length ≤ fuel) :
    members read fuel (bytes ++ 0x7D :: rest) = .ok (named, rest) := by
  generalize whole : quoteByte :: bytes = spelled at list
  induction list generalizing fuel bytes with
  | @last member spelled blanks one blank =>
    obtain ⟨fuel, rfl⟩ : ∃ less, fuel = less + 1 := ⟨fuel - 1, by simp at fueled; omega⟩
    obtain ⟨others, rfl⟩ := one.quote
    have stops : Stops isNumberByte (blanks ++ 0x7D :: rest) :=
      stops_isNumberByte blank (stops_cons (by decide) rest)
    obtain ⟨colon, first, second⟩ := one.reads reads stops
    have skipped := skipBlanks_cons blank (by decide : isBlankByte 0x7D = false) rest
    have cut : bytes = others ++ blanks := (List.cons.inj whole).2
    rw [members, cut, List.append_assoc, first]
    simp only [bind, Except.bind, second, skipped]
    rfl
  | @next member others spelled blanks blanks' later one blank blankAfter list step =>
    obtain ⟨fuel, rfl⟩ : ∃ less, fuel = less + 1 := ⟨fuel - 1, by simp at fueled; omega⟩
    obtain ⟨text, rfl⟩ := one.quote
    obtain ⟨next, rfl⟩ := list.quote
    have further := @step fuel _ (by simp at fueled; omega) rfl
    have stops : Stops isNumberByte
        (blanks ++ 0x2C :: (blanks' ++ quoteByte :: (next ++ 0x7D :: rest))) :=
      stops_isNumberByte blank (stops_cons (by decide) _)
    obtain ⟨colon, first, second⟩ := one.reads reads stops
    have skipped := skipBlanks_cons blank (by decide : isBlankByte 0x2C = false)
      (blanks' ++ quoteByte :: (next ++ 0x7D :: rest))
    have skipped' := skipBlanks_cons blankAfter (by decide : isBlankByte quoteByte = false)
      (next ++ 0x7D :: rest)
    have cut : bytes ++ 0x7D :: rest =
        text ++ (blanks ++ 0x2C :: (blanks' ++ quoteByte :: (next ++ 0x7D :: rest))) := by
      rw [(List.cons.inj whole).2]
      simp
    rw [members, cut, first]
    simp only [bind, Except.bind, second, skipped, skipped']
    show (members read fuel (next ++ 0x7D :: rest)).bind
      (fun found => pure (member :: found.1, found.2)) = _
    rw [further]
    rfl

end Handbook.Json
