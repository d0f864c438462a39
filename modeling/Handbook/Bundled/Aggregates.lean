/-
**The aggregations.**

The functions that aggregate the rows of a group.
-/

import Handbook.Bundled.Describe

namespace Handbook.Bundled

/-- The aggregations. -/
def aggregates : List Entry :=
  [describe "all" (some ["<expr>"]) "bool"
     "Returns true if all elements returned by given expression are truthy.",
   describe "any" (some ["<expr>"]) "bool"
     "Returns true if one of the elements returned by given expression is truthy.",
   describe "approx_cardinality" (some ["<expr>"]) "int"
     ("Returns the approximate cardinality of the set of values returned by given expression "
     ++ "using the HyperLogLog+ algorithm."),
   describe "argmax" (some ["<expr>", "<expr>?"]) "any"
     ("Return the index of the row where the first expression is maximized, or the result of "
     ++ "the second expression where the first expression is maximized.\nTies will be broken "
     ++ "by original row index."),
   describe "count" (some ["<expr>?"]) "int"
     ("Count the number of row. Works like in SQL in that \"count(<expr>)\" will count all "
     ++ "non-empty values returned by given expression, while \"count()\" without any "
     ++ "expression will count every matching row."),
   describe "distinct_values" (some ["<expr>", "separator?"]) "string"
     ("List of sorted distinct values joined by a pipe character (\"|\") by default or by the "
     ++ "provided separator."),
   describe "first" (some ["<expr>"]) "string"
     "Return first seen non empty element of the values returned by the given expression.",
   describe "mean" (some ["<expr>"]) "number"
     "Mean of numerical values. Same as average."
     |>.alsoNamed ["avg"],
   describe "quantile" (some ["<expr>", "p"]) "number"
     "Return the desired quantile of numerical values."
     |>.alsoTaking [["<expr>", "p", "method"]],
   describe "sum" (some ["<expr>"]) "number"
     ("Sum of numerical values. Will return nothing if the sum overflows. Uses the "
     ++ "Kahan-Babuska routine for precise float summation."),
   describe "values" (some ["<expr>", "separator?"]) "string"
     "List of values joined by a pipe character (\"|\") by default or by the provided separator."]

end Handbook.Bundled
