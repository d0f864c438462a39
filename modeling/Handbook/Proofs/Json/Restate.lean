/-
**Saying a value again.**

Objects that differ in the order of their members, or in members that are null and left out, say the
same to whoever looks their members up by name. A spelling of a value can also be read with fewer
levels than it was made with, as long as the value is not deeper.

* `Spells.within`: a value is spelled at every level that it is within;
* `member?_eq_some_iff`: among members of different names each of them is found;
* `Restates`: what says a value again;
* `Keeps.found`: the members of an object are found in the object that says it again.
-/

import Handbook.Proofs.Json.Spelling
import Mathlib.Data.List.Forall2
import Mathlib.Data.List.Nodup

namespace Handbook.Json

/-! ### Levels -/

/-- The values in a container. -/
def Value.parts : Value → List Value
  | .array items => items
  | .object members => members.map Prod.snd
  | _ => []

/-- A value in which no more than so many containers that hold something are inside each other. -/
def Within : (levels : Nat) → Value → Prop
  | 0, value => value.parts = []
  | levels + 1, value => ∀ part ∈ value.parts, Within levels part

theorem Within.succ {levels : Nat} {value : Value} (within : Within levels value) :
    Within (levels + 1) value := by
  induction levels generalizing value with
  | zero =>
    intro part member
    rw [show value.parts = [] from within] at member
    exact absurd member List.not_mem_nil
  | succ levels step => exact fun part member => step (within part member)

theorem Within.mono {levels limit : Nat} {value : Value} (within : Within levels value)
    (le : levels ≤ limit) : Within limit value := by
  induction le with
  | refl => exact within
  | step _ step => exact step.succ

section

variable {value : Value} {bytes : Bytes}

theorem SpellsList.imp {Item : Type} {spells spells' : Item → Bytes → Prop} {items : List Item}
    (list : SpellsList spells items bytes)
    (every : ∀ item ∈ items, ∀ spelled, spells item spelled → spells' item spelled) :
    SpellsList spells' items bytes := by
  induction list with
  | last one blank => exact .last (every _ (List.mem_cons_self ..) _ one) blank
  | next one before after _ step =>
    exact .next (every _ (List.mem_cons_self ..) _ one) before after
      (step fun item member => every item (List.mem_cons_of_mem _ member))

/-- What is spelled at one level depends on how its parts are spelled only. -/
theorem SpellsAt.imp {inner inner' : Value → Bytes → Prop} (one : SpellsAt inner value bytes)
    (every : ∀ part ∈ value.parts, ∀ spelled, inner part spelled → inner' part spelled) :
    SpellsAt inner' value bytes := by
  cases one with
  | word listed => exact .word listed
  | number spelling => exact .number spelling
  | string spelling => exact .string spelling
  | emptyArray blank => exact .emptyArray blank
  | array blank list => exact .array blank (list.imp every)
  | emptyObject blank => exact .emptyObject blank
  | object blank list =>
    refine .object blank (list.imp ?_)
    rintro ⟨name, part⟩ member spelled ⟨text, before, after, spelling⟩
    exact .member text before after (every part (List.mem_map_of_mem member) _ spelling)

/-- **A value is spelled at every level that it is within.** -/
theorem Spells.within {levels limit : Nat} (spells : Spells levels value bytes)
    (within : Within limit value) : Spells limit value bytes := by
  -- The induction is on the levels of the spelling; the limit goes down along with them.
  induction levels generalizing limit value bytes with
  | zero =>
    cases limit with
    | zero => exact spells
    | succ limit => exact SpellsAt.imp spells fun _ _ _ => False.elim
  | succ levels step =>
    cases limit with
    | zero =>
      refine SpellsAt.imp spells fun part member => ?_
      rw [show value.parts = [] from within] at member
      exact absurd member List.not_mem_nil
    | succ limit =>
      exact SpellsAt.imp spells fun part member _ spelling => step spelling (within part member)

end

/-! ### Members -/

section

variable {name : Text} {value : Value} {members : Members}

theorem member?_eq_none_iff : member? name members = none ↔ name ∉ members.map Prod.fst := by
  unfold member?
  rw [List.lookup_eq_none_iff]
  simp only [List.mem_reverse, bne_iff_ne, List.mem_map, not_exists, not_and]
  exact forall₂_congr fun pair _ => ne_comm

/-- **Among members of different names each of them is found.** -/
theorem member?_eq_some_iff (distinct : (members.map Prod.fst).Nodup) :
    member? name members = some value ↔ (name, value) ∈ members := by
  unfold member?
  rw [List.lookup_eq_some_iff, ← List.mem_reverse]
  constructor
  · rintro ⟨before, after, cut, _⟩
    rw [cut]
    exact List.mem_append_right _ (List.mem_cons_self ..)
  · intro member
    obtain ⟨before, after, cut⟩ := List.append_of_mem member
    refine ⟨before, after, cut, fun pair early => ?_⟩
    have distinct' : ((before ++ (name, value) :: after).map Prod.fst).Nodup := by
      rw [← cut, List.map_reverse]
      exact List.nodup_reverse.mpr distinct
    rw [List.map_append, List.nodup_append] at distinct'
    rw [bne_iff_ne]
    exact (distinct'.2.2 _ (List.mem_map_of_mem early) _ (List.mem_cons_self ..)).symm

end

/-! ### Restating -/

/-- The members of an object, each said again, but for some of those that are null. -/
inductive Keeps (same : Value → Value → Prop) : Members → Members → Prop where
  | nil : Keeps same [] []
  | keep {name value other rest others} : same value other → Keeps same rest others →
      Keeps same ((name, value) :: rest) ((name, other) :: others)
  | drop {name rest others} : Keeps same rest others → Keeps same ((name, .null) :: rest) others

/-- What says a value again: in its objects, at any depth, the members may come in any order, and
those that are null may be left out. -/
inductive Restates : Value → Value → Prop where
  | refl (value) : Restates value value
  | array {items others} : List.Forall₂ Restates items others →
      Restates (.array items) (.array others)
  | object {members kept others} : Keeps Restates members kept → kept.Perm others →
      Restates (.object members) (.object others)

theorem Keeps.refl (members : Members) : Keeps Restates members members := by
  induction members with
  | nil => exact .nil
  | cons pair rest step => exact .keep (.refl pair.2) step

theorem Restates.array_cases {items : List Value} {other : Value}
    (restates : Restates (.array items) other) :
    ∃ others, other = .array others ∧ List.Forall₂ Restates items others := by
  cases restates with
  | refl => exact ⟨items, rfl, List.forall₂_same.mpr fun item _ => .refl item⟩
  | array each => exact ⟨_, rfl, each⟩

theorem Restates.object_cases {members : Members} {other : Value}
    (restates : Restates (.object members) other) :
    ∃ kept others, other = .object others ∧ Keeps Restates members kept ∧ kept.Perm others := by
  cases restates with
  | refl => exact ⟨members, members, rfl, .refl members, .refl members⟩
  | object keeps perm => exact ⟨_, _, rfl, keeps, perm⟩

theorem Keeps.names_sublist {same : Value → Value → Prop} {members kept : Members}
    (keeps : Keeps same members kept) : (kept.map Prod.fst).Sublist (members.map Prod.fst) := by
  induction keeps with
  | nil => exact .slnil
  | keep _ _ step => exact step.cons_cons _
  | drop _ step => exact step.cons _

theorem Keeps.of_mem {same : Value → Value → Prop} {members kept : Members}
    (keeps : Keeps same members kept) {name : Text} {other : Value} (member : (name, other) ∈ kept) :
    ∃ value, (name, value) ∈ members ∧ same value other := by
  induction keeps with
  | nil => exact absurd member List.not_mem_nil
  | keep one _ step =>
    rcases List.mem_cons.mp member with first | later
    · obtain ⟨rfl, rfl⟩ := Prod.mk.inj first
      exact ⟨_, List.mem_cons_self .., one⟩
    · obtain ⟨value, found, restates⟩ := step later
      exact ⟨value, List.mem_cons_of_mem _ found, restates⟩
  | drop _ step =>
    obtain ⟨value, found, restates⟩ := step member
    exact ⟨value, List.mem_cons_of_mem _ found, restates⟩

theorem Keeps.exists_or_null {same : Value → Value → Prop} {members kept : Members}
    (keeps : Keeps same members kept) {name : Text} {value : Value}
    (member : (name, value) ∈ members) :
    (∃ other, (name, other) ∈ kept ∧ same value other) ∨ value = .null := by
  induction keeps with
  | nil => exact absurd member List.not_mem_nil
  | keep one _ step =>
    rcases List.mem_cons.mp member with first | later
    · obtain ⟨rfl, rfl⟩ := Prod.mk.inj first
      exact .inl ⟨_, List.mem_cons_self .., one⟩
    · exact (step later).imp_left fun ⟨other, found, restates⟩ =>
        ⟨other, List.mem_cons_of_mem _ found, restates⟩
  | drop _ step =>
    rcases List.mem_cons.mp member with first | later
    · exact .inr (Prod.mk.inj first).2
    · exact step later

/-- **The members of an object are found in what says it again**, if their names are different. Only
members that are null may be missing. -/
theorem Keeps.found {same : Value → Value → Prop} {members kept others : Members}
    (keeps : Keeps same members kept) (perm : kept.Perm others)
    (distinct : (members.map Prod.fst).Nodup) {name : Text} {value : Value}
    (member : (name, value) ∈ members) :
    (∃ other, member? name others = some other ∧ same value other) ∨
      member? name others = none ∧ value = .null := by
  have distinct' : (others.map Prod.fst).Nodup :=
    (perm.map Prod.fst).nodup_iff.mp (distinct.sublist keeps.names_sublist)
  cases missing : member? name others with
  | some other =>
    obtain ⟨source, found, restates⟩ :=
      keeps.of_mem (perm.mem_iff.mpr ((member?_eq_some_iff distinct').mp missing))
    have unique := (member?_eq_some_iff distinct).mpr found
    rw [(member?_eq_some_iff distinct).mpr member, Option.some.injEq] at unique
    exact .inl ⟨other, rfl, unique ▸ restates⟩
  | none =>
    rcases keeps.exists_or_null member with ⟨other, found, _⟩ | null
    · have present := List.mem_map_of_mem (f := Prod.fst) (perm.mem_iff.mp found)
      exact absurd present (member?_eq_none_iff.mp missing)
    · exact .inr ⟨rfl, null⟩

theorem Restates.exists_part {value other : Value} (restates : Restates value other) {part : Value}
    (member : part ∈ other.parts) : ∃ source ∈ value.parts, Restates source part := by
  cases restates with
  | refl => exact ⟨part, member, .refl part⟩
  | array each =>
    obtain ⟨position, short, rfl⟩ := List.getElem_of_mem member
    have short' : position < _ := each.length_eq ▸ short
    exact ⟨_, List.getElem_mem short', each.get short' short⟩
  | object keeps perm =>
    obtain ⟨⟨name, _⟩, found, rfl⟩ := List.mem_map.mp member
    obtain ⟨source, listed, one⟩ := keeps.of_mem (perm.mem_iff.mpr found)
    exact ⟨source, List.mem_map_of_mem listed, one⟩

/-- What says a value again is no deeper. -/
theorem Restates.within {levels : Nat} {value other : Value} (restates : Restates value other)
    (within : Within levels value) : Within levels other := by
  induction levels generalizing value other with
  | zero =>
    refine List.eq_nil_iff_forall_not_mem.mpr fun part member => ?_
    obtain ⟨source, found, _⟩ := restates.exists_part member
    rw [show value.parts = [] from within] at found
    exact absurd found List.not_mem_nil
  | succ levels step =>
    intro part member
    obtain ⟨source, found, one⟩ := restates.exists_part member
    exact step one (within source found)

end Handbook.Json
