/-
**Patterns, passes and pipelines by name.**

Every pattern, pass and pipeline has a name under which it can be looked up.
-/

import Handbook.Colorize.Cheatsheet

namespace Handbook.Colorize

/-- The patterns, by name. -/
def namedPatterns : List (String × Pattern) :=
  [("quote", .quote), ("section_header", .sectionHeader), ("url", .url),
    ("unary_operator", .unaryOperator), ("binary_operator", .binaryOperator),
    ("pipeline_operator", .pipelineOperator), ("slice", .slice), ("flag", .flag),
    ("number", .number), ("list_link", .listLink), ("code_fence", .codeFence),
    ("comment", .comment), ("fence_literal", .codeLiteral), ("fence_call", .codeCall),
    ("fence_operator", .codeOperator), ("ansi_color", .colorSequence)]

/-- The pattern of a name. -/
def pattern? (name : String) : Option Pattern := namedPatterns.lookup name

/-- The pipelines, by name. -/
def namedPipelines : List (String × List Pass) :=
  [("inline", prosePasses), ("cheatsheet", cheatsheetPasses),
    ("cross_reference", crossReferencePasses), ("fence", codePasses)]

/-- The pipeline of a name. -/
def pipeline? (name : String) : Option (List Pass) := namedPipelines.lookup name

/-- The pass of a name, of whichever pipeline. -/
def pass? (name : String) : Option Pass :=
  (cheatsheetPasses ++ codePasses).find? (·.name == name)

end Handbook.Colorize
