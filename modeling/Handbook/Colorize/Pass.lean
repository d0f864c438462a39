/-
**Passes over a text.**

A pass replaces every occurrence of a pattern in a whole text. A pipeline is a list of passes, each
of which sees what the passes before it wrote.

* `applyAll_append`: a pipeline cut in two is two pipelines, one after the other;
* `getLast?_trace`: the last text of a trace is the text that the pipeline gives.
-/

import Handbook.Pattern.Basic

namespace Handbook.Colorize

/-- A replacement of every occurrence of a pattern, under a name. -/
structure Pass where
  name : String
  pattern : Pattern
  replace : Match → Text

namespace Pass

/-- A text after a pass. -/
def apply (pass : Pass) (text : Text) : Text := pass.pattern.replaceAll pass.replace text

/-- The pass that replaces one exact text. -/
def literal (name : String) (needle replacement : Text) : Pass :=
  ⟨name, Pattern.literal needle, fun _ => replacement⟩

/-- A text after the passes of a pipeline, in their order. -/
def applyAll (passes : List Pass) (text : Text) : Text :=
  passes.foldl (fun current pass => pass.apply current) text

/-- The text after each pass of a pipeline, with the name of the pass. -/
def trace : List Pass → Text → List (String × Text)
  | [], _ => []
  | pass :: others, text => (pass.name, pass.apply text) :: trace others (pass.apply text)

/-- **A pipeline cut in two is two pipelines, one after the other.** -/
theorem applyAll_append (first second : List Pass) (text : Text) :
    applyAll (first ++ second) text = applyAll second (applyAll first text) := by
  simp [applyAll]

/-- **The last text of a trace is the text that the pipeline gives.** -/
theorem getLast?_trace (passes : List Pass) (pass : Pass) (text : Text) :
    ((trace (passes ++ [pass]) text).getLast?.map Prod.snd) =
      some (applyAll (passes ++ [pass]) text) := by
  induction passes generalizing text with
  | nil => rfl
  | cons first others step =>
    have later := step (first.apply text)
    simp only [List.cons_append, trace, applyAll, List.foldl_cons] at later ⊢
    rw [← later, List.getLast?_cons]
    cases traced : (trace (others ++ [pass]) (first.apply text)).getLast? with
    | none => simp [traced] at later
    | some last => rfl

end Pass

end Handbook.Colorize
