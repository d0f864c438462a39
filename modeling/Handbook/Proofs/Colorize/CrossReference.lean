/-
**Links between references, unwrapped in any order.**

Each pass over the links replaces one of them in the whole text, and sees what the passes before it
wrote. No link can be read inside another one, over its end, or in a code span, and no code span in
a link; so no pass takes away an occurrence of another link, or completes one with the text around
it. The passes, in whatever order, do what one replacement of all links at once does.

* `Separate.not_linkAt_inside`: links do not overlap;
* `Separate.exchanged_link`, `exchanged_plain`: what is exchanged at once is exchanged piece by piece;
* `Separate.prefix_of_exchanged`: no code span completes a link;
* `Separate.pass_exchanged`: one more pass exchanges one more link;
* `unlinked_any_order`: the passes give the same text in any order.
-/

import Mathlib.Data.List.Induction
import Mathlib.Data.List.Pairwise
import Handbook.Colorize.CrossReference
import Handbook.Proofs.Pattern.Silent
import Handbook.Proofs.Pattern.Steady

namespace Handbook.Colorize

open Pattern

/-! ### Texts that miss each other -/

/-- A text misses a stretch: it begins nowhere in it, not even where it would go on behind it. -/
def Misses (needle stretch : Text) : Prop :=
  ∀ late ∈ stretch.tails, late ≠ [] →
    needle.isPrefixOf late = false ∧ late.isPrefixOf needle = false

instance (needle stretch : Text) : Decidable (Misses needle stretch) :=
  inferInstanceAs (Decidable (∀ late ∈ stretch.tails, late ≠ [] →
    needle.isPrefixOf late = false ∧ late.isPrefixOf needle = false))

namespace Misses

variable {needle stretch : Text}

theorem of_suffix (misses : Misses needle stretch) {late : Text} (suffix : late <:+ stretch) :
    Misses needle late := fun later member =>
  misses later ((List.mem_tails _ _).mpr (((List.mem_tails _ _).mp member).trans suffix))

/-- Neither text begins with the other one. -/
theorem differ (misses : Misses needle stretch) (nonempty : stretch ≠ []) :
    ¬ needle <+: stretch ∧ ¬ stretch <+: needle := by
  obtain ⟨one, two⟩ := misses stretch ((List.mem_tails _ _).mpr List.suffix_rfl) nonempty
  rw [← List.isPrefixOf_iff_prefix, ← List.isPrefixOf_iff_prefix]
  exact ⟨Bool.eq_false_iff.mp one, Bool.eq_false_iff.mp two⟩

theorem not_begun (misses : Misses needle stretch) (nonempty : stretch ≠ []) (rest : Text) :
    ¬ needle <+: stretch ++ rest := by
  obtain ⟨one, two⟩ := misses.differ nonempty
  intro begins
  rcases List.prefix_or_prefix_of_prefix begins (List.prefix_append stretch rest) with first | second
  · exact one first
  · exact two second

end Misses

/-- Two links that do not get in each other's way: neither can be read in the other one or in its code
span, and neither code span in the other link. -/
structure Apart (one other : CrossReference) : Prop where
  links : Misses one.link other.link ∧ Misses other.link one.link
  linkInSpan : Misses one.link other.span ∧ Misses other.link one.span
  spanInLink : Misses one.span other.link ∧ Misses other.span one.link

instance : Std.Symm Apart where
  symm _ _ apart := ⟨apart.links.symm, apart.linkInSpan.symm, apart.spanInLink.symm⟩

instance (one other : CrossReference) : Decidable (Apart one other) :=
  decidable_of_iff ((Misses one.link other.link ∧ Misses other.link one.link) ∧
      (Misses one.link other.span ∧ Misses other.link one.span) ∧
      Misses one.span other.link ∧ Misses other.span one.link)
    ⟨fun ⟨links, linkInSpan, spanInLink⟩ => ⟨links, linkInSpan, spanInLink⟩,
      fun apart => ⟨apart.links, apart.linkInSpan, apart.spanInLink⟩⟩

/-- Links none of which can be read inside itself or gets in the way of another one. -/
structure Separate (references : List CrossReference) : Prop where
  alone : ∀ reference ∈ references, Misses reference.link reference.link.tail
  apart : references.Pairwise Apart

theorem separate_crossReferences : Separate crossReferences := ⟨by decide, by decide⟩

theorem CrossReference.link_ne_nil (reference : CrossReference) : reference.link ≠ [] := by
  simp [link]

/-! ### Links exchanged at once -/

/-- A link begins at a place of a text. -/
def LinkAt (reference : CrossReference) (text : Text) (place : Nat) : Prop :=
  reference.link <+: text.drop place

instance (reference : CrossReference) (text : Text) (place : Nat) :
    Decidable (LinkAt reference text place) :=
  inferInstanceAs (Decidable (reference.link <+: text.drop place))

/-- A place inside a link that begins before it. -/
def Covered (references : List CrossReference) (text : Text) (place : Nat) : Prop :=
  ∃ earlier < place, ∃ reference ∈ references,
    LinkAt reference text earlier ∧ place < earlier + reference.link.length

instance (references : List CrossReference) (text : Text) (place : Nat) :
    Decidable (Covered references text place) :=
  inferInstanceAs (Decidable (∃ earlier < place, ∃ reference ∈ references,
    LinkAt reference text earlier ∧ place < earlier + reference.link.length))

/-- What one place of a text becomes: a code span where a link begins, nothing inside a link, and
otherwise the character that stands there. -/
def exchangedAt (references : List CrossReference) (text : Text) (place : Nat) : Text :=
  match references.find? fun reference => LinkAt reference text place with
  | some reference => reference.span
  | none => if Covered references text place then [] else (text.drop place).take 1

/-- A text with all links exchanged for their code spans at once, place by place. -/
def exchanged (references : List CrossReference) (text : Text) : Text :=
  (List.range text.length).flatMap (exchangedAt references text)

section

variable {references : List CrossReference} {reference : CrossReference}

theorem linkAt_behind (front rest : Text) (place : Nat) :
    LinkAt reference (front ++ rest) (front.length + place) ↔ LinkAt reference rest place := by
  rw [LinkAt, LinkAt, List.drop_length_add_append]

/-- Where no link goes on behind a stretch, what stands behind it is exchanged by itself. -/
theorem exchangedAt_behind {front rest : Text}
    (ends : ∀ reference ∈ references, ∀ earlier < front.length,
      LinkAt reference (front ++ rest) earlier → earlier + reference.link.length ≤ front.length)
    (place : Nat) :
    exchangedAt references (front ++ rest) (front.length + place) =
      exchangedAt references rest place := by
  have covered : Covered references (front ++ rest) (front.length + place) ↔
      Covered references rest place := by
    constructor
    · rintro ⟨earlier, sooner, reference, member, begins, inside⟩
      by_cases before : earlier < front.length
      · have := ends reference member earlier before begins
        omega
      · obtain ⟨later, rfl⟩ := Nat.exists_eq_add_of_le (Nat.le_of_not_lt before)
        exact ⟨later, by omega, reference, member, (linkAt_behind front rest later).mp begins,
          by omega⟩
    · rintro ⟨earlier, sooner, reference, member, begins, inside⟩
      exact ⟨front.length + earlier, by omega, reference, member,
        (linkAt_behind front rest earlier).mpr begins, by omega⟩
  simp only [exchangedAt, linkAt_behind, covered, List.drop_length_add_append]

theorem exchanged_append {front rest : Text}
    (ends : ∀ reference ∈ references, ∀ earlier < front.length,
      LinkAt reference (front ++ rest) earlier → earlier + reference.link.length ≤ front.length) :
    exchanged references (front ++ rest) =
      (List.range front.length).flatMap (exchangedAt references (front ++ rest)) ++
        exchanged references rest := by
  rw [exchanged, List.length_append, List.range_add, List.flatMap_append, List.flatMap_map]
  exact congrArg _ (List.flatMap_congr fun place _ => exchangedAt_behind ends place)

/-- **A character at which no link begins stays.** -/
theorem exchanged_plain {c : Char} {rest : Text}
    (absent : ∀ reference ∈ references, ¬ reference.link <+: c :: rest) :
    exchanged references (c :: rest) = c :: exchanged references rest := by
  have nowhere : ∀ reference ∈ references, ¬ LinkAt reference ([c] ++ rest) 0 := absent
  have ends : ∀ reference ∈ references, ∀ earlier < [c].length,
      LinkAt reference ([c] ++ rest) earlier → earlier + reference.link.length ≤ [c].length := by
    intro reference member earlier first begins
    obtain rfl : earlier = 0 := by simpa using first
    exact absurd begins (nowhere reference member)
  have whole := exchanged_append ends
  have here : exchangedAt references ([c] ++ rest) 0 = [c] := by
    have none : references.find? (fun reference => LinkAt reference ([c] ++ rest) 0) = none :=
      List.find?_eq_none.mpr fun reference member => by simpa using nowhere reference member
    have free : ¬ Covered references ([c] ++ rest) 0 := fun ⟨earlier, sooner, _⟩ =>
      absurd sooner (Nat.not_lt_zero earlier)
    rw [exchangedAt, none, if_neg free]
    rfl
  rw [List.singleton_append, List.length_singleton, List.range_one, List.flatMap_singleton,
    ← List.singleton_append, here] at whole
  exact whole

/-- A stretch that all links miss stays. -/
theorem exchanged_missed {stretch : Text}
    (misses : ∀ reference ∈ references, Misses reference.link stretch) (rest : Text) :
    exchanged references (stretch ++ rest) = stretch ++ exchanged references rest := by
  induction stretch with
  | nil => rfl
  | cons c others step =>
    have here : ∀ reference ∈ references, ¬ reference.link <+: c :: (others ++ rest) :=
      fun reference member => (misses reference member).not_begun (List.cons_ne_nil _ _) rest
    rw [List.cons_append, exchanged_plain here, step fun reference member =>
      (misses reference member).of_suffix (List.suffix_cons _ _), List.cons_append]

/-- Without links to exchange a text stays. -/
theorem exchanged_none (text : Text) : exchanged [] text = text := by
  have misses : ∀ reference ∈ ([] : List CrossReference), Misses reference.link text :=
    fun _ member => absurd member List.not_mem_nil
  have whole := exchanged_missed misses []
  rwa [List.append_nil, show exchanged [] [] = [] from rfl, List.append_nil] at whole

/-- **What holds of the empty text and goes on over links and other characters holds of all texts.** -/
@[elab_as_elim]
theorem induction_links {motive : Text → Prop} (references : List CrossReference)
    (nil : motive [])
    (link : ∀ reference ∈ references, ∀ rest, motive rest → motive (reference.link ++ rest))
    (plain : ∀ c rest, (∀ reference ∈ references, ¬ reference.link <+: c :: rest) →
      motive rest → motive (c :: rest)) (text : Text) : motive text := by
  -- on the length, since a link takes several characters at once
  induction size : text.length using Nat.strongRecOn generalizing text with
  | ind size step =>
  by_cases begins : ∃ reference ∈ references, reference.link <+: text
  · obtain ⟨reference, member, rest, rfl⟩ := begins
    have := List.length_pos_iff.mpr reference.link_ne_nil
    rw [List.length_append] at size
    exact link reference member rest (step rest.length (by omega) rest rfl)
  · cases text with
    | nil => exact nil
    | cons c rest =>
      rw [List.length_cons] at size
      refine plain c rest (fun reference member early => begins ⟨reference, member, early⟩) ?_
      exact step rest.length (by omega) rest rfl

/-! ### Links that are separate -/

namespace Separate

variable (separate : Separate references)

include separate

theorem misses_tail {other : CrossReference} (member : reference ∈ references)
    (listed : other ∈ references) : Misses other.link reference.link.tail := by
  by_cases same : other = reference
  · rw [same]
    exact separate.alone reference member
  · have apart := separate.apart.forall listed member same
    exact apart.links.1.of_suffix (List.tail_suffix _)

/-- At one place only one link begins. -/
theorem unique {other : CrossReference} {text : Text} (member : reference ∈ references)
    (listed : other ∈ references) (begins : reference.link <+: text) (begins' : other.link <+: text) :
    other = reference := by
  by_contra different
  have apart := separate.apart.forall listed member different
  obtain ⟨rest, rfl⟩ := begins
  exact apart.links.1.not_begun reference.link_ne_nil rest begins'

/-- **Links do not overlap**: inside a link no other one begins. -/
theorem not_linkAt_inside {other : CrossReference} (member : reference ∈ references)
    (listed : other ∈ references) {place : Nat} (behind : 0 < place)
    (inside : place < reference.link.length) (rest : Text) :
    ¬ LinkAt other (reference.link ++ rest) place := by
  obtain ⟨later, rfl⟩ := Nat.exists_eq_add_of_le' behind
  have suffix : reference.link.drop (later + 1) <:+ reference.link.tail := by
    rw [← List.drop_one, Nat.add_comm, ← List.drop_drop]
    exact List.drop_suffix _ _
  have nonempty : reference.link.drop (later + 1) ≠ [] := by
    rw [Ne, List.drop_eq_nil_iff]
    omega
  rw [LinkAt, List.drop_append_of_le_length (Nat.le_of_lt inside)]
  exact ((separate.misses_tail member listed).of_suffix suffix).not_begun nonempty rest

theorem not_linkAt_of_covered {text : Text} {place : Nat} (covered : Covered references text place)
    (member : reference ∈ references) : ¬ LinkAt reference text place := by
  obtain ⟨earlier, sooner, other, listed, ⟨rest, cut⟩, inside⟩ := covered
  obtain ⟨later, rfl⟩ := Nat.exists_eq_add_of_lt sooner
  rw [Nat.add_assoc] at inside ⊢
  rw [LinkAt, ← List.drop_drop, ← cut]
  exact separate.not_linkAt_inside listed member (Nat.succ_pos later) (by omega) rest

/-- **A link is exchanged as a whole.** -/
theorem exchanged_link (member : reference ∈ references) (rest : Text) :
    exchanged references (reference.link ++ rest) =
      reference.span ++ exchanged references rest := by
  have begins : LinkAt reference (reference.link ++ rest) 0 := List.prefix_append _ _
  rw [exchanged_append]
  · -- the place where the link begins gives the code span, and those inside it give nothing
    congr 1
    obtain ⟨length, size⟩ := Nat.exists_eq_add_of_le' (List.length_pos_iff.mpr reference.link_ne_nil)
    have first : exchangedAt references (reference.link ++ rest) 0 = reference.span := by
      rw [exchangedAt]
      split
      · rename_i other found
        have known := List.find?_some found
        rw [separate.unique member (List.mem_of_find?_eq_some found) begins (of_decide_eq_true known)]
      · rename_i nothing
        exact absurd begins (by simpa using List.find?_eq_none.mp nothing reference member)
    have others : ∀ place ∈ List.range length,
        exchangedAt references (reference.link ++ rest) (place + 1) = [] := by
      intro place below
      have inside : place + 1 < reference.link.length := by
        have := List.mem_range.mp below
        omega
      have none : references.find? (fun other =>
          LinkAt other (reference.link ++ rest) (place + 1)) = none :=
        List.find?_eq_none.mpr fun other listed => by
          simpa using separate.not_linkAt_inside member listed (Nat.succ_pos place) inside rest
      have covered : Covered references (reference.link ++ rest) (place + 1) :=
        ⟨0, Nat.succ_pos place, reference, member, begins, by omega⟩
      rw [exchangedAt, none, if_pos covered]
    rw [size, List.range_succ_eq_map, List.flatMap_cons, first, List.flatMap_map]
    rw [List.flatMap_congr others]
    simp
  · intro other listed earlier before starts
    rcases Nat.eq_zero_or_pos earlier with rfl | behind
    · rw [separate.unique member listed begins starts, Nat.zero_add]
    · exact absurd starts (separate.not_linkAt_inside member listed behind before rest)

/-- **No code span completes a link**: what can be read after the exchange, and no code span in it,
could be read before. -/
theorem prefix_of_exchanged {needle text : Text}
    (misses : ∀ reference ∈ references, Misses reference.span needle)
    (early : needle <+: exchanged references text) : needle <+: text := by
  induction text using induction_links references generalizing needle with
  | nil => exact early
  | link reference member rest step =>
    by_cases empty : needle = []
    · rw [empty]
      exact List.nil_prefix
    rw [separate.exchanged_link member] at early
    obtain ⟨one, two⟩ := (misses reference member).differ empty
    rcases List.prefix_or_prefix_of_prefix early (List.prefix_append _ _) with first | second
    · exact absurd first two
    · exact absurd second one
  | plain c rest absent step =>
    cases needle with
    | nil => exact List.nil_prefix
    | cons d others =>
      rw [exchanged_plain absent, List.cons_prefix_cons] at early
      exact List.cons_prefix_cons.mpr ⟨early.1, step (fun reference member =>
        (misses reference member).of_suffix (List.suffix_cons _ _)) early.2⟩

end Separate

/-! ### One pass -/

theorem CrossReference.apply_eq (reference : CrossReference) (text : Text) :
    reference.pass.apply text =
      (literal reference.link).replaceAll (fun _ => reference.span) text := rfl

theorem apply_nil (reference : CrossReference) : reference.pass.apply [] = [] :=
  replaceFrom_nil (proper_literal reference.link_ne_nil) none

theorem apply_link (reference : CrossReference) (rest : Text) :
    reference.pass.apply (reference.link ++ rest) = reference.span ++ reference.pass.apply rest := by
  rw [reference.apply_eq, replaceAll_eq,
    replaceFrom_found reference.link_ne_nil (reach?_literal_append none _ rest),
    (forward_literal _).replaceFrom_eq]
  rfl

theorem apply_missed {stretch : Text} (misses : Misses reference.link stretch) (rest : Text) :
    reference.pass.apply (stretch ++ rest) = stretch ++ reference.pass.apply rest := by
  refine replaceAll_passed (forward_literal _) fun early late cut nonempty => ?_
  have suffix : late <:+ stretch := ⟨early, cut.symm⟩
  exact reach?_literal_eq_none_iff.mpr ((misses.of_suffix suffix).not_begun nonempty rest)

theorem apply_plain {c : Char} {rest : Text} (absent : ¬ reference.link <+: c :: rest) :
    reference.pass.apply (c :: rest) = c :: reference.pass.apply rest := by
  rw [reference.apply_eq, replaceAll_eq, replaceFrom_plain (reach?_literal_eq_none_iff.mpr absent),
    (forward_literal _).replaceFrom_eq]
  rfl

namespace Separate

/-- **One more pass exchanges one more link.** -/
theorem pass_exchanged (separate : Separate (references ++ [reference])) (text : Text) :
    reference.pass.apply (exchanged references text) =
      exchanged (references ++ [reference]) text := by
  obtain ⟨listed, -, between⟩ := List.pairwise_append.mp separate.apart
  have apart : ∀ other ∈ references, Apart other reference := fun other member =>
    between other member reference (List.mem_singleton_self _)
  have before : Separate references :=
    ⟨fun other member => separate.alone other (List.mem_append_left _ member), listed⟩
  induction text using induction_links (references ++ [reference]) with
  | nil => exact apply_nil reference
  | link other member rest step =>
    rw [separate.exchanged_link member, ← step]
    rcases List.mem_append.mp member with sooner | now
    · -- the pass goes over the code span of a link that is exchanged already
      rw [before.exchanged_link sooner, apply_missed (apart other sooner).linkInSpan.2]
    · -- the link of the pass itself still stands
      rw [List.mem_singleton.mp now,
        exchanged_missed (fun one inside => (apart one inside).links.1), apply_link]
  | plain c rest absent step =>
    rw [List.forall_mem_append, List.forall_mem_singleton] at absent
    -- what is exchanged behind the character makes no link of it
    have remains : ¬ reference.link <+: c :: exchanged references rest := by
      rw [← exchanged_plain absent.1]
      exact fun early => absent.2 (before.prefix_of_exchanged
        (fun other member => (apart other member).spanInLink.1) early)
    rw [exchanged_plain absent.1, apply_plain remains, step, exchanged_plain]
    rwa [List.forall_mem_append, List.forall_mem_singleton]

/-- **The passes over separate links exchange all of them at once.** -/
theorem applyAll_eq (separate : Separate references) (text : Text) :
    Pass.applyAll (references.map CrossReference.pass) text = exchanged references text := by
  induction references using List.reverseRecOn with
  | nil => exact (exchanged_none text).symm
  | append_singleton references reference step =>
    have before : Separate references :=
      ⟨fun other member => separate.alone other (List.mem_append_left _ member),
        (List.pairwise_append.mp separate.apart).1⟩
    rw [List.map_append, Pass.applyAll_append, step before, ← separate.pass_exchanged]
    rfl

theorem perm {others : List CrossReference} (separate : Separate references)
    (order : others.Perm references) : Separate others :=
  ⟨fun reference member => separate.alone reference (order.mem_iff.mp member),
    (order.pairwise_iff fun apart => Std.Symm.symm _ _ apart).mpr separate.apart⟩

/-- The order of the links does not count for an exchange at once. -/
theorem exchanged_perm {others : List CrossReference} (separate : Separate references)
    (order : others.Perm references) (text : Text) :
    exchanged others text = exchanged references text := by
  induction text using induction_links references with
  | nil => rfl
  | link reference member rest step =>
    rw [separate.exchanged_link member,
      (separate.perm order).exchanged_link (order.mem_iff.mpr member), step]
  | plain c rest absent step =>
    rw [exchanged_plain absent, exchanged_plain (fun reference member =>
      absent reference (order.mem_iff.mp member)), step]

end Separate

end

/-! ### The links of cheatsheets -/

/-- **The passes over the links of cheatsheets give the same text in any order**: the one with every
link exchanged for its code span at once, and every character outside the links kept. Inside a link
none begins, so each place of the text is exchanged in one way. -/
theorem unlinked_any_order {references : List CrossReference}
    (order : references.Perm crossReferences) (text : Text) :
    Pass.applyAll (references.map CrossReference.pass) text = unlinked text ∧
      unlinked text = exchanged crossReferences text ∧
      ∀ place, Covered crossReferences text place →
        ∀ reference ∈ crossReferences, ¬ LinkAt reference text place := by
  have whole : unlinked text = exchanged crossReferences text :=
    separate_crossReferences.applyAll_eq text
  refine ⟨?_, whole, fun place covered reference member =>
    separate_crossReferences.not_linkAt_of_covered covered member⟩
  rw [(separate_crossReferences.perm order).applyAll_eq, whole,
    separate_crossReferences.exchanged_perm order]

/-- A link with itself as its label, and another link. -/
def nestedLinks : Text :=
  ['['] ++ (CrossReference.ofTopic "aggs").link ++ "](./aggs.md) ".toList
    ++ (CrossReference.ofTopic "cheatsheet").link

/-- What is left of the first link reads like a link again, and is not exchanged twice. -/
theorem unlinked_any_order_nestedLinks :
    crossReferences.reverse.Perm crossReferences ∧
      Pass.applyAll (crossReferences.reverse.map CrossReference.pass) nestedLinks =
        (CrossReference.ofTopic "aggs").link ++ [' '] ++
          (CrossReference.ofTopic "cheatsheet").span := by
  have order := List.reverse_perm crossReferences
  obtain ⟨same, -, -⟩ := unlinked_any_order order nestedLinks
  have unlinks : unlinked nestedLinks = (CrossReference.ofTopic "aggs").link ++ [' '] ++
      (CrossReference.ofTopic "cheatsheet").span := by decide +kernel
  exact ⟨order, same.trans unlinks⟩

end Handbook.Colorize
