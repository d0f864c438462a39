/-
**Queries for sections.**

A query is looked for in the titles with both in small letters. So the case of letters does not
matter, neither in the query nor in the titles. A query that stands in a title as it is written is
nevertheless missed where it cuts a word at a sigma: at the end of a word a capital sigma becomes
another small letter than inside it.

* `occursIn_lower_of_cut`: what stands in a title is found where its sigmas end words alike;
* `verbatim_query_kept_iff`: a query is found in every title that holds it exactly when its sigmas
  are settled;
* `filter_ignores_case`: the case of letters does not matter.
-/

import Mathlib.Data.List.Forall2
import Handbook.Layout.Reference
import Handbook.Proofs.Text.Lower

namespace Handbook

open Text

/-! ### Queries that stand in a title -/

theorem mem_filterSections_iff {query : Text} {sections : List FunctionSection}
    {part : FunctionSection} : part ∈ filterSections (some query) sections ↔
      part ∈ sections ∧ occursIn (lower query) (lower part.title) = true :=
  List.mem_filter

/-- **What stands in a title is found there where its sigmas end words alike.** -/
theorem occursIn_lower_of_cut {front query back : Text}
    (alike : ∀ before after, query = before ++ 'Σ' :: after →
      isFinalSigma false (front ++ before) (after ++ back) = isFinalSigma false before after) :
    occursIn (lower query) (lower (front ++ query ++ back)) = true := by
  have same : lowerBetween (endsCasedAfter false front) back query = lower query := by
    rw [lower, ← lowerBetween_nil, lowerBetween_eq_iff]
    intro before after cut
    rw [List.append_nil, ← alike before after cut, isFinalSigma, isFinalSigma,
      endsCasedAfter_append]
  rw [lower_append, same]
  exact occursIn_iff.mpr ⟨_, _, rfl⟩

/-- **A query is found in every title that holds it exactly when its sigmas are settled.** In any
case it is found in a title around which its sigmas end words as they do in the query, so that a
query without capital sigmas is always found. -/
theorem verbatim_query_kept_iff (query : Text) :
    ((∀ sections : List FunctionSection, ∀ part ∈ sections, occursIn query part.title = true →
        part ∈ filterSections (some query) sections) ↔
      ∀ before after, query = before ++ 'Σ' :: after → Settled before after) ∧
    ∀ sections : List FunctionSection, ∀ part ∈ sections, ∀ front back,
      part.title = front ++ query ++ back →
      (∀ before after, query = before ++ 'Σ' :: after →
        isFinalSigma false (front ++ before) (after ++ back) = isFinalSigma false before after) →
      part ∈ filterSections (some query) sections := by
  have aligned : ∀ sections : List FunctionSection, ∀ part ∈ sections, ∀ front back,
      part.title = front ++ query ++ back →
      (∀ before after, query = before ++ 'Σ' :: after →
        isFinalSigma false (front ++ before) (after ++ back) = isFinalSigma false before after) →
      part ∈ filterSections (some query) sections := by
    intro sections part member front back cut alike
    exact mem_filterSections_iff.mpr ⟨member, cut ▸ occursIn_lower_of_cut alike⟩
  refine ⟨⟨fun kept => ?_, fun settled sections part member occurs => ?_⟩, aligned⟩
  · have found (title : Text) (occurs : occursIn query title = true) :
        occursIn (lower query) (lower title) = true :=
      (mem_filterSections_iff.mp
        (kept [⟨title, []⟩] ⟨title, []⟩ (List.mem_singleton_self _) occurs)).2
    exact settled_of_occursIn
      (found ('a' :: query) (occursIn_iff.mpr ⟨['a'], [], by simp⟩))
      (found (query ++ ['a']) (occursIn_iff.mpr ⟨[], ['a'], rfl⟩))
  · obtain ⟨front, back, cut⟩ := occursIn_iff.mp occurs
    refine aligned sections part member front back cut fun before after whole => ?_
    rw [isFinalSigma, endsCasedAfter_append]
    exact (settled before after whole).isFinalSigma_eq _ back

/-- A title in capitals, with a sigma inside the word. -/
def musicTitle : Text := ['Μ', 'Ο', 'Υ', 'Σ', 'Ι', 'Κ', 'Η']

/-- A title in capitals, with a sigma at the end of a word. -/
def roadTitle : Text := ['Ο', 'Δ', 'Ο', 'Σ', ' ', '1']

/-- A sigma in front of a letter is settled. One that ends the query is not, but it ends the word of
the title as well. -/
theorem verbatim_query_kept_iff_music :
    (⟨musicTitle, []⟩ : FunctionSection) ∈
        filterSections (some ['Υ', 'Σ', 'Ι']) [⟨musicTitle, []⟩] ∧
      (⟨roadTitle, []⟩ : FunctionSection) ∈
        filterSections (some ['Δ', 'Ο', 'Σ']) [⟨roadTitle, []⟩] := by
  constructor
  · refine (verbatim_query_kept_iff _).1.mpr (fun before after cut => ?_) _ _
      (List.mem_singleton_self _) (by decide)
    have cut : ['Υ'] ++ 'Σ' :: ['Ι'] = before ++ 'Σ' :: after := cut
    obtain ⟨rfl, -, rfl⟩ := (List.append_cons_inj_of_notMem (by decide) (by decide)).mp cut
    exact Or.inl (by decide +kernel)
  · refine (verbatim_query_kept_iff _).2 _ _ (List.mem_singleton_self _) ['Ο'] [' ', '1'] rfl
      fun before after cut => ?_
    have cut : ['Δ', 'Ο'] ++ 'Σ' :: [] = before ++ 'Σ' :: after := cut
    obtain ⟨rfl, -, rfl⟩ := (List.append_cons_inj_of_notMem (by decide) (by decide)).mp cut
    decide +kernel

/-- The beginning of the title up to its sigma stands in the title and is missed. -/
theorem musicQuery_missed :
    occursIn ['Μ', 'Ο', 'Υ', 'Σ'] musicTitle = true ∧
      filterSections (some ['Μ', 'Ο', 'Υ', 'Σ']) [⟨musicTitle, []⟩] = [] := by
  decide +kernel

/-! ### The case of letters -/

/-- Whether a query keeps a section. Without a query each is kept. -/
def keepsPart (query : Option Text) (part : FunctionSection) : Bool := query.all part.isKeptBy

theorem filterSections_eq (query : Option Text) (sections : List FunctionSection) :
    filterSections query sections = sections.filter (keepsPart query) := by
  cases query with
  | none => exact (List.filter_eq_self.mpr fun _ _ => rfl).symm
  | some query => rfl

/-- What a query keeps of some sections is what stands at certain places, in order. -/
structure KeepsAt (query : Option Text) (sections : List FunctionSection) (places : List Nat) :
    Prop where
  ascending : places.Pairwise (· < ·)
  inside : ∀ place ∈ places, place < sections.length
  kept : filterSections query sections = places.filterMap (sections[·]?)

theorem KeepsAt.cons {query : Option Text} {part : FunctionSection}
    {sections : List FunctionSection} {places : List Nat} (keeps : KeepsAt query sections places)
    {first : List Nat} (chosen : first = if keepsPart query part then [0] else []) :
    KeepsAt query (part :: sections) (first ++ places.map (· + 1)) := by
  have start : List.Sublist first [0] := by
    rw [chosen]
    split
    · exact List.Sublist.refl _
    · exact List.nil_sublist _
  have later : (places.map (· + 1)).filterMap ((part :: sections)[·]?) =
      places.filterMap (sections[·]?) := by
    rw [List.filterMap_map]
    rfl
  constructor
  · refine List.pairwise_append.mpr ⟨List.Pairwise.sublist start (List.pairwise_singleton _ _),
      List.pairwise_map.mpr (keeps.ascending.imp Nat.succ_lt_succ), ?_⟩
    intro place member next found
    obtain ⟨other, -, rfl⟩ := List.mem_map.mp found
    rw [List.mem_singleton.mp (start.subset member)]
    exact Nat.succ_pos other
  · intro place member
    rcases List.mem_append.mp member with first | later
    · rw [List.mem_singleton.mp (start.subset first)]
      exact Nat.succ_pos _
    · obtain ⟨place, found, rfl⟩ := List.mem_map.mp later
      exact Nat.succ_lt_succ (keeps.inside place found)
  · rw [List.filterMap_append, later, ← keeps.kept, filterSections_eq, filterSections_eq, chosen,
      List.filter_cons]
    split <;> rfl

/-- **Sections whose titles are lowered alike are kept at the same places.** -/
theorem exists_keepsAt {query : Option Text} {sections others : List FunctionSection}
    (alike : List.Forall₂ (fun part other => lower part.title = lower other.title)
      sections others) :
    ∃ places, KeepsAt query sections places ∧ KeepsAt query others places := by
  induction alike with
  | nil =>
    have empty : KeepsAt query [] [] :=
      ⟨List.Pairwise.nil, fun _ member => absurd member List.not_mem_nil, by cases query <;> rfl⟩
    exact ⟨[], empty, empty⟩
  | @cons part other sections others same _ step =>
    obtain ⟨places, one, two⟩ := step
    have both : keepsPart query other = keepsPart query part := by
      cases query with
      | none => rfl
      | some query => exact congrArg (occursIn (lower query)) same.symm
    exact ⟨_, one.cons rfl, two.cons (by rw [both])⟩

/-- **The case of letters does not matter.** Queries that differ only in the case of letters of
ASCII keep the same sections, and all the operators or none of them; titles that differ so are kept
at the same places; and a query in small letters keeps what the query keeps. -/
theorem filter_ignores_case :
    (∀ (sections : List FunctionSection) (query other : Text), SameLetters query other →
      filterSections (some query) sections = filterSections (some other) sections ∧
        keepsOperators (some query) = keepsOperators (some other)) ∧
    (∀ (query : Option Text) (sections others : List FunctionSection),
      List.Forall₂ (fun part other => SameLetters part.title other.title) sections others →
        ∃ places, KeepsAt query sections places ∧ KeepsAt query others places) ∧
    ∀ (sections : List FunctionSection) (query : Text),
      filterSections (some (lower query)) sections = filterSections (some query) sections := by
  have lowered {query other : Text} (same : lower query = lower other)
      (sections : List FunctionSection) :
      filterSections (some query) sections = filterSections (some other) sections := by
    refine List.filter_congr fun part _ => ?_
    rw [FunctionSection.isKeptBy, FunctionSection.isKeptBy, same]
  refine ⟨fun sections query other same => ⟨lowered same.lower_eq sections, ?_⟩,
    fun query sections others same => exists_keepsAt (same.imp fun _ _ same => same.lower_eq),
    fun sections query => lowered (lower_lower query) sections⟩
  rw [keepsOperators, keepsOperators, same.lower_eq]

/-- Titles with a dotted capital I and a final sigma, in capitals and in small letters. -/
theorem filter_ignores_case_dotted :
    keepsOperators (some "Oper".toList) = keepsOperators (some "oPER".toList) ∧
      ∃ places, KeepsAt (some ['I']) [⟨['İ', 'N', 'T'], []⟩, ⟨['Α', 'Σ', ' ', 'I'], []⟩] places ∧
        KeepsAt (some ['I']) [⟨['İ', 'n', 't'], []⟩, ⟨['Α', 'Σ', ' ', 'i'], []⟩] places :=
  ⟨(filter_ignores_case.1 [] "Oper".toList "oPER".toList (by decide)).2,
    filter_ignores_case.2.1 _ _ _ (.cons (by decide) (.cons (by decide) .nil))⟩

end Handbook
