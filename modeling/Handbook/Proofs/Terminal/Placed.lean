/-
**Places of color sequences.**

Where a sequence may stand is told by the text before it, by its code and by what is shown behind
it. Such a rule is checked part by part, and a pass follows it when it does so in each occurrence.

* `Placed.append`, `Placed.of_append`: the rule holds of a text when it holds of its parts;
* `Placed.supported`, `Placed.followed`: what stands before a text and behind it can be replaced;
* `Woven.placed`: a pass that follows a rule in every occurrence follows it in the whole text.
-/

import Handbook.Proofs.Pattern.Weave

namespace Handbook.Terminal

open Text

/-- Each sequence of a text stands where a rule allows it, given the text before it, its code and
what is shown behind it. -/
def Placed (rule : Text → Text → Text → Prop) (behind painted ahead : Text) : Prop :=
  ∀ before code after, IsCode code → painted = before ++ (select code ++ after) →
    rule (behind ++ before) code (stripColors after ++ ahead)

/-- A rule that allows at least as much behind one text as behind another. -/
def Supports (rule : Text → Text → Text → Prop) (behind behind' : Text) : Prop :=
  ∀ more code ahead, rule (behind ++ more) code ahead → rule (behind' ++ more) code ahead

variable {rule : Text → Text → Text → Prop}
  {behind behind' painted first second ahead ahead' : Text}

theorem Supports.refl (behind : Text) : Supports rule behind behind := fun _ _ _ allowed => allowed

theorem Supports.append (supports : Supports rule behind behind') (more : Text) :
    Supports rule (behind ++ more) (behind' ++ more) := by
  intro later code ahead allowed
  rw [List.append_assoc] at allowed ⊢
  exact supports _ code ahead allowed

theorem placed_of_not_mem (clear : escape ∉ painted) : Placed rule behind painted ahead := by
  intro before code after _ cut
  exact absurd (by simp [cut, select]) clear

theorem Placed.code {code : Text} (isCode : IsCode code)
    (placed : Placed rule behind (select code) ahead) : rule behind code ahead := by
  have allowed := placed [] code [] isCode (by simp)
  rwa [List.append_nil, stripColors_of_not_mem List.not_mem_nil, List.nil_append] at allowed

theorem placed_select {code : Text} (isCode : IsCode code) (allowed : rule behind code ahead) :
    Placed rule behind (select code) ahead := by
  intro before other after isOther cut
  have whole : select code ++ ([] ++ []) = before ++ (select other ++ after) := by
    rw [List.append_nil, List.append_nil, cut]
  rcases exists_of_select isCode isOther List.not_mem_nil whole with ⟨rfl, rfl⟩ | ⟨_, _, absent⟩
  · obtain ⟨rfl, -⟩ := select_append_inj isCode isOther whole
    rw [List.append_nil, List.append_nil, stripColors_of_not_mem List.not_mem_nil, List.nil_append]
    exact allowed
  · exact absurd absent (by simp [select])

/-- **What stands before a text can be replaced.** -/
theorem Placed.supported (placed : Placed rule behind painted ahead)
    (supports : Supports rule behind behind') : Placed rule behind' painted ahead :=
  fun before code after isCode cut => supports before code _ (placed before code after isCode cut)

/-- **What is shown behind a text can be replaced.** -/
theorem Placed.followed (placed : Placed rule behind painted ahead)
    (allows : ∀ before code shown, rule before code (shown ++ ahead) →
      rule before code (shown ++ ahead')) : Placed rule behind painted ahead' :=
  fun before code after isCode cut => allows _ code _ (placed before code after isCode cut)

/-- **A rule that holds of the parts of a text holds of the text.** -/
theorem Placed.append (intact : Intact first)
    (one : Placed rule behind first (stripColors second ++ ahead))
    (two : Placed rule (behind ++ first) second ahead) :
    Placed rule behind (first ++ second) ahead := by
  intro before code after isCode cut
  rcases List.append_eq_append_iff.mp cut with ⟨between, rfl, later⟩ | ⟨between, rfl, later⟩
  · have allowed := two between code after isCode later
    rwa [List.append_assoc] at allowed
  · cases between with
    | nil =>
      have allowed := two [] code after isCode later.symm
      rwa [List.append_nil, List.append_nil] at allowed
    | cons c others =>
      have isEscape : escape = c := (List.cons.inj later).1
      subst isEscape
      obtain ⟨code', rest, isCode', whole⟩ := intact.of_append_right.whole
      rw [whole, List.append_assoc] at later
      obtain ⟨rfl, rfl⟩ := select_append_inj isCode isCode' later
      have tail : Intact rest := by
        have behind := intact.of_append_right
        rw [whole] at behind
        exact behind.of_append_right
      have allowed := one before code rest isCode (by rw [whole])
      rwa [← List.append_assoc, ← stripColors_append tail] at allowed

/-- **A rule that holds of a text holds of its parts.** -/
theorem Placed.of_append (intact : Intact first)
    (placed : Placed rule behind (first ++ second) ahead) :
    Placed rule behind first (stripColors second ++ ahead) ∧
      Placed rule (behind ++ first) second ahead := by
  refine ⟨?_, ?_⟩
  · rintro before code after isCode rfl
    have tail : Intact after := intact.of_append_right.of_append_right
    have allowed := placed before code (after ++ second) isCode (by simp)
    rwa [stripColors_append tail, List.append_assoc] at allowed
  · rintro before code after isCode rfl
    have allowed := placed (first ++ before) code after isCode (by simp)
    rwa [← List.append_assoc] at allowed

theorem Placed.cons {c : Char} (plain : c ≠ escape)
    (placed : Placed rule (behind ++ [c]) painted ahead) :
    Placed rule behind (c :: painted) ahead := by
  have clear : escape ∉ [c] := by simpa using plain.symm
  exact .append (intact_of_not_mem clear) (placed_of_not_mem clear) placed

theorem Placed.of_cons {c : Char} (plain : c ≠ escape)
    (placed : Placed rule behind (c :: painted) ahead) :
    Placed rule (behind ++ [c]) painted ahead := by
  have whole : Placed rule behind ([c] ++ painted) ahead := placed
  exact (whole.of_append (intact_nil.cons plain)).2

end Handbook.Terminal

namespace Handbook.Pattern

open Terminal Text

variable {pattern : Pattern} {rule : Text → Text → Text → Prop} {text behind behind' ahead : Text}
  {pieces : List Piece} {replace : Match → Text}

/-- **A pass that follows a rule in every occurrence follows it in the whole text.** -/
theorem Woven.placed (woven : Woven pattern text pieces)
    (shows : ∀ {before lexeme groups rest}, Intact lexeme →
      pattern.reach? before (lexeme ++ rest) = some ⟨lexeme.length, groups⟩ →
      Intact (replace ⟨lexeme, groups⟩) ∧
        stripColors (replace ⟨lexeme, groups⟩) = stripColors lexeme)
    (kept : ∀ {before lexeme groups rest behind behind' ahead}, Intact lexeme →
      pattern.reach? before (lexeme ++ rest) = some ⟨lexeme.length, groups⟩ →
      Placed rule behind lexeme ahead →
      Placed rule behind' (replace ⟨lexeme, groups⟩) ahead ∧
        Supports rule (behind ++ lexeme) (behind' ++ replace ⟨lexeme, groups⟩))
    (supports : Supports rule behind behind') (placed : Placed rule behind text ahead) :
    Placed rule behind' (pieces.flatMap (Piece.replaced replace)) ahead := by
  induction woven generalizing behind behind' with
  | nil => exact placed_of_not_mem List.not_mem_nil
  | plain plain _ step => exact .cons plain (step (supports.append _) (placed.of_cons plain))
  | @sequence code rest pieces isCode woven step =>
    obtain ⟨one, two⟩ := placed.of_append (intact_select isCode)
    rw [List.flatMap_append, flatMap_replaced_plain]
    refine .append (intact_select isCode) ?_ (step (supports.append _) two)
    rw [woven.stripColors_eq shows]
    exact one.supported supports
  | found _ one found woven step =>
    obtain ⟨first, later⟩ := placed.of_append one
    obtain ⟨intact, same⟩ := shows one found
    obtain ⟨here, supports⟩ := kept one found first
    rw [List.flatMap_cons]
    refine .append intact ?_ (step supports later)
    rw [woven.stripColors_eq shows]
    exact here

end Handbook.Pattern
