/-
**The layout of entries.**

On the terminal an entry is a list of signatures, one for each way to call it, above its help text.
In Markdown it is one item of a list, and one more for each alternative; its help text stands on the
same line.
-/

import Handbook.Document.Entry
import Handbook.Layout.Ink
import Handbook.Markdown.Escape
import Handbook.Text.Fill
import Handbook.Text.Lines

namespace Handbook

/-- What parts the members of a list of texts. -/
def commaSpace : Text := [',', ' ']

/-! ### On the terminal -/

/-- An argument of a signature: dimmed when it stands for a type of value, and red otherwise. -/
def Ink.argument (ink : Ink) (argument : Text) : Text :=
  if isPlaceholder argument then ink.style .dim argument else ink.color .red argument

/-- The arguments of a signature. -/
def Ink.arguments (ink : Ink) (arguments : List Text) : Text :=
  commaSpace.intercalate (arguments.map ink.argument)

namespace Entry

/-- The signature of one way to call an entry. -/
def signatureText (ink : Ink) (entry : Entry) (name : Text) (arguments : Option (List Text)) :
    Text :=
  let call :=
    match arguments with
    | none => []
    | some arguments => ['('] ++ ink.arguments arguments ++ [')']
  "- ".toList ++ ink.color .cyan name ++ call ++ " -> ".toList
    ++ ink.color .magenta entry.returns ++ ['\n']

/-- The help text of an entry, wrapped and with a margin. -/
def helpText (ink : Ink) (entry : Entry) : Text :=
  ink.prose (Text.indent (Text.wrap .prose entry.help))

/-- An entry on the terminal. -/
def terminalText (ink : Ink) (entry : Entry) : Text :=
  entry.callForms.flatMap (fun (name, arguments) => entry.signatureText ink name arguments)
    ++ entry.helpText ink ++ "\n\n".toList

/-! ### In Markdown -/

/-- An argument in emphasis. -/
def markdownArgument (argument : Text) : Text :=
  ['*'] ++ Markdown.escapeArgument argument ++ ['*']

/-- The arguments of a call, in parentheses if there is a list of them. -/
def callMarkdown : Option (List Text) → Text
  | none => []
  | some arguments => ['('] ++ commaSpace.intercalate (arguments.map markdownArgument) ++ [')']

/-- The aliases of an entry, in parentheses if there is a list of them. -/
def aliasesMarkdown : Option (List Text) → Text
  | none => []
  | some aliases =>
    let emphasized := aliases.map fun other => "**".toList ++ other ++ "**".toList
    " (aliases: ".toList ++ commaSpace.intercalate emphasized ++ [')']

/-- The item of an entry for one list of arguments. -/
def signatureMarkdown (entry : Entry) (arguments : Option (List Text)) : Text :=
  "- **".toList ++ entry.name ++ "**".toList ++ callMarkdown arguments ++ " -> `".toList
    ++ entry.returns ++ "`".toList ++ aliasesMarkdown entry.aliases ++ ": ".toList
    ++ Markdown.escapeLineBreaks entry.help

/-- The items of an entry: one for its list of arguments, and one for each alternative. -/
def markdownItems (entry : Entry) : List Text :=
  entry.signatureMarkdown entry.arguments
    :: (entry.alternatives.getD []).map fun arguments => entry.signatureMarkdown (some arguments)

/-- An entry in Markdown. -/
def markdown (entry : Entry) : Text := ['\n'].intercalate entry.markdownItems ++ ['\n']

end Entry

/-! ### Lists of entries -/

/-- Entries on the terminal, with a margin. -/
def entriesText (ink : Ink) (entries : List Entry) : Text :=
  entries.flatMap fun entry => Text.indent (entry.terminalText ink)

/-- Entries in Markdown. -/
def entriesMarkdown (entries : List Entry) : Text := entries.flatMap Entry.markdown

end Handbook
