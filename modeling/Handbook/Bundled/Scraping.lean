/-
**The scraping helpers.**

The helpers that select parts of an HTML document and extract values from them.
-/

import Handbook.Bundled.Describe
import Handbook.Document.Section

namespace Handbook.Bundled

/-- The scraping helpers. -/
def scraping : ScrapingHelpers where
  selectors :=
    [describe "root" none "selection"
       "Select the root of the document.",
     describe "first" (some ["css"]) "selection"
       "Select the first element matching given css selector.",
     describe "all" (some ["css"]) "selection"
       "Select all elements matching given css selector.",
     describe "parent" none "selection"
       "Select the parent of the current selection."]
  extractors :=
    [describe "attr" (some ["name"]) "string"
       "Return the value of the given attribute of the selected element.",
     describe "attrs" none "map"
       "Return a map of every attribute of the selected element.",
     describe "text" none "string"
       "Return the text of the selected element, with whitespace normalized."
       |>.alsoNamed ["inner_text"],
     describe "json_ld" (some ["type"]) "map"
       "Return the first JSON-LD item of the given type found in the document.",
     describe "html" none "string"
       "Return the inner HTML of the selected element."]

end Handbook.Bundled
