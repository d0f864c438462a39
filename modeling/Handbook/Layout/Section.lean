/-
**The layout of sections.**

A section is a header above its entries. The scraping helpers are two sections with fixed titles.
-/

import Handbook.Document.Section
import Handbook.Layout.Entry

namespace Handbook

namespace FunctionSection

/-- The header of a section. -/
def header (part : FunctionSection) : Text := "## ".toList ++ part.title ++ "\n\n".toList

/-- A section on the terminal. Its header is colored with the blank line after it. -/
def terminalText (ink : Ink) (part : FunctionSection) : Text :=
  ink.heading part.header ++ entriesText ink part.functions ++ ['\n']

/-- A section in Markdown. -/
def markdown (part : FunctionSection) : Text :=
  part.header ++ entriesMarkdown part.functions ++ ['\n']

end FunctionSection

namespace ScrapingHelpers

/-- The header of the selectors. -/
def selectorsHeader : Text := "## Selector functions".toList

/-- The header of the extractors. -/
def extractorsHeader : Text := "## Extractor functions".toList

/-- The scraping helpers on the terminal. -/
def terminalText (ink : Ink) (helpers : ScrapingHelpers) : Text :=
  ink.heading selectorsHeader ++ "\n\n".toList ++ entriesText ink helpers.selectors ++ ['\n']
    ++ ink.heading extractorsHeader ++ "\n\n".toList ++ entriesText ink helpers.extractors

/-- The scraping helpers in Markdown. -/
def markdown (helpers : ScrapingHelpers) : Text :=
  selectorsHeader ++ "\n\n".toList ++ entriesMarkdown helpers.selectors ++ ['\n']
    ++ extractorsHeader ++ "\n\n".toList ++ entriesMarkdown helpers.extractors

end ScrapingHelpers

end Handbook
