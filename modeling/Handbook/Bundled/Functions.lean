/-
**The functions.**

The functions of the expression language, in their sections.
-/

import Handbook.Bundled.Describe
import Handbook.Document.Section

namespace Handbook.Bundled

/-- Functions on numbers. -/
def arithmetics : FunctionSection where
  title := "Arithmetics".toList
  functions :=
    [describe "abs" (some ["x"]) "number"
       "Return absolute value of number.",
     describe "add" (some ["x", "y", "*n"]) "number"
       "Add two or more numbers.",
     describe "argmax" (some ["numbers", "labels?"]) "any"
       "Return the index or label of the largest number in the list.",
     describe "ceil" (some ["x"]) "number"
       "Return the smallest integer greater than or equal to x.",
     describe "div" (some ["x", "y", "*n"]) "number"
       "Divide two or more numbers.",
     describe "idiv" (some ["x", "y"]) "number"
       "Integer division of two numbers.",
     describe "max" (some ["x", "y", "*n"]) "number"
       "Return the maximum number."
       |>.alsoTaking [["list_of_numbers"]],
     describe "min" (some ["x", "y", "*n"]) "number"
       "Return the minimum number."
       |>.alsoTaking [["list_of_numbers"]],
     describe "round" (some ["x"]) "number"
       "Return x rounded to the nearest integer."]

/-- Functions on truth values. -/
def logic : FunctionSection where
  title := "Boolean operations & branching".toList
  functions :=
    [describe "and" (some ["a", "b", "*n"]) "T"
       "Perform boolean AND operation on two or more values.",
     describe "if" (some ["cond", "then", "else?"]) "T"
       "Evaluate condition and switch to correct branch. Will actually short-circuit.",
     describe "unless" (some ["cond", "then", "else?"]) "T"
       "Shorthand for `if(not(cond), then, else?)`.",
     describe "not" (some ["a"]) "bool"
       "Perform boolean NOT operation.",
     describe "or" (some ["a", "b", "*n"]) "T"
       "Perform boolean OR operation on two or more values."]

/-- Functions on strings. -/
def strings : FunctionSection where
  title := "Strings".toList
  functions :=
    [describe "count" (some ["string", "substring"]) "int"
       ("Count number of times substring appear in string. Or count the number of times a regex "
       ++ "pattern matched the strings. Note that only non-overlapping matches will be "
       ++ "counted in both cases.")
       |>.alsoTaking [["string", "regex"]],
     describe "endswith" (some ["string", "substring"]) "bool"
       "Test if string ends with substring.",
     describe "escape_regex" (some ["string"]) "string"
       "Escape a string so it can be used safely in a regular expression.",
     describe "len" (some ["<string>"]) "int"
       ("Return length of string, in number of graphemes.\n\nNote that this is a different "
       ++ "notion from the number of bytes."),
     describe "lower" (some ["string"]) "string"
       "Lowercase string.",
     describe "split" (some ["string", "substring", "max?"]) "[string]"
       "Split a string by a given separator substring. Can also split using a regex pattern."
       |>.alsoTaking [["string", "regex", "max?"]],
     describe "startswith" (some ["string", "substring"]) "bool"
       "Test if string starts with substring.",
     describe "trim" (some ["string", "chars?"]) "string"
       "Trim string of leading & trailing whitespace or provided characters.",
     describe "upper" (some ["string"]) "string"
       "Uppercase string."]

/-- Functions on lists and maps. -/
def collections : FunctionSection where
  title := "Lists & maps".toList
  functions :=
    [describe "compact" (some ["list"]) "list"
       "Drop all falsey values from given list.",
     describe "first" (some ["seq"]) "T"
       "Get first element of sequence.",
     describe "get" (some ["target", "index_or_key", "default?"]) "T"
       ("Get nth element of sequence (can use negative indexing), or key of mapping. Returns "
       ++ "nothing if index or key is not found or alternatively the provided default value.")
       |>.alsoTaking [["target", "path", "default?"]],
     describe "join" (some ["seq", "sep"]) "string"
       "Join sequence by separator.",
     describe "keys" (some ["map"]) "[string]"
       "Return a list of the map's keys.",
     describe "last" (some ["seq"]) "T"
       "Get last element of sequence."]

/-- Functions on dates and times. -/
def dates : FunctionSection where
  title := "Dates & time".toList
  functions :=
    [describe "datetime" (some ["string", "format=?", "timezone=?"]) "datetime"
       ("Parse a string as a datetime according to format and timezone "
       ++ "(https://docs.rs/jiff/latest/jiff/fmt/strtime/index.html#conversion-specifications). "
       ++ "If no format is provided, string is parsed as ISO 8601 date format. Default "
       ++ "timezone is the system timezone.")
       |>.alsoNamed ["to_datetime"],
     describe "now" none "datetime"
       "Return the current local time.",
     describe "strftime" (some ["target", "format", "timezone=?"]) "string"
       ("Format target (a time in ISO 8601 format, or the result of datetime() function) "
       ++ "according to format.")
       |>.alsoNamed ["format_datetime"],
     describe "year" (some ["target", "timezone=?"]) "int"
       "Return the year of the given datetime."]

/-- Functions on columns and rows. -/
def columns : FunctionSection where
  title := "Utils".toList
  functions :=
    [describe "col" (some ["name_or_pos", "nth?"]) "bytes"
       ("Return value of cell for given column, by name, by position or by name & nth, in case "
       ++ "of duplicate header names."),
     describe "col?" (some ["name_or_pos", "nth?"]) "bytes"
       ("Return value of cell for given column, by name, by position or by name & nth, in case "
       ++ "of duplicate header names. Allow selecting inexisting columns, in which case it "
       ++ "will return null."),
     describe "index" none "int?"
       "Return the row's index, if applicable.",
     describe "typeof" (some ["value"]) "string"
       "Return type of value."]

/-- Functions on files and paths. -/
def paths : FunctionSection where
  title := "IO & path wrangling".toList
  functions :=
    [describe "abspath" (some ["string"]) "string"
       "Return absolute & canonicalized path.",
     describe "read" (some ["path", "encoding=?", "errors=?"]) "string"
       ("Read file at path. Default encoding is \"utf-8\". Default error handling policy is "
       ++ "\"replace\", and can be one of \"replace\", \"ignore\" or \"strict\"."),
     describe "read_json" (some ["path"]) "any"
       "Read json file at path.",
     describe "write" (some ["string", "path"]) "string"
       ("Write string to path as utf-8 text. Will create any intermediary directory if needed. "
       ++ "Returns the path.")]

/-- The sections of functions. -/
def functions : List FunctionSection :=
  [arithmetics, logic, strings, collections, dates, columns, paths]

end Handbook.Bundled
