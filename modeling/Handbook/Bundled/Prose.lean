/-
**The prose.**

The cheatsheets and introductions of the handbook, line by line.
-/

import Handbook.Text.Basic

namespace Handbook.Bundled

/-- The cheatsheet of the expression language. -/
def cheatsheet : Text := Text.ofLines
  ["# xan expression language cheatsheet",
    "",
    "## Summary",
    "",
    "- [Literals](#literals)",
    "- [Referencing columns](#referencing-columns)",
    "- [Function calls & operators](#function-calls--operators)",
    "- [Pipelines](#pipelines)",
    "",
    "## Literals",
    "",
    "```python",
    "# Integers",
    "1",
    "-2",
    "1_000",
    "",
    "# Floats",
    "0.5",
    "-3.14",
    "",
    "# Strings",
    "\"hello\"",
    "'world'",
    "`with backticks`",
    "",
    "# Regexes",
    "/john/i",
    "",
    "# Booleans & null",
    "true",
    "false",
    "null",
    "```",
    "",
    "## Referencing columns",
    "",
    "Column names can be used directly in expressions, as long as they only",
    "contain ASCII letters, digits or underscores. Any other column can be",
    "referenced with the `col` function: `col(\"first name\")`.",
    "",
    "```python",
    "# Column \"name\"",
    "name",
    "",
    "# Column \"first name\"",
    "col(\"first name\")",
    "",
    "# Second column named \"name\"",
    "col(\"name\", 1)",
    "```",
    "",
    "## Function calls & operators",
    "",
    "Functions are called with parenthesis and can take named arguments. Refer to",
    "[`xan help functions`](./functions.md) for the full list of functions and",
    "operators, and to [`xan help aggs`](./aggs.md) for aggregation functions.",
    "",
    "```python",
    "# Simple call",
    "trim(name)",
    "",
    "# Operators",
    "count + 1",
    "name eq \"John\"",
    "tweet in \"politics\"",
    "",
    "# Named arguments",
    "read(path, encoding=\"latin1\")",
    "```",
    "",
    "## Pipelines",
    "",
    "The pipeline operator can be used to chain calls, `_` standing for the result",
    "of the previous step. See [`xan help cheatsheet`](./cheatsheet.md) again at",
    "any time, or run xan map --help for more examples.",
    "",
    "```python",
    "trim(name) | lower(_) | len(_) > 5",
    "```"]

/-- The cheatsheet of scraping. -/
def scrapingCheatsheet : Text := Text.ofLines
  ["# xan scraping DSL",
    "",
    "The `xan scrape` command relies on a small DSL to describe what should be",
    "extracted from HTML documents. Expressions have the same syntax as the one",
    "described in [`xan help cheatsheet`](./cheatsheet.md).",
    "",
    "## Summary",
    "",
    "- [Selecting elements](#selecting-elements)",
    "- [Extracting values](#extracting-values)",
    "",
    "## Selecting elements",
    "",
    "```scss",
    "title: first(\"h1\") > text;",
    "links: all(\"a\") > attr(\"href\");",
    "```",
    "",
    "## Extracting values",
    "",
    "```javascript",
    "// Extract the first JSON-LD article",
    "article = json_ld(\"NewsArticle\");",
    "author = article.author || null;",
    "```",
    "",
    "Run xan scrape --help for the list of flags, such as --evaluate-file."]

/-- The introduction of the functions. -/
def functionsPrelude : Text := Text.ofLines
  ["# Available functions & operators",
    "",
    "Use the -S/--section flag to only keep the sections whose title contains a",
    "given query, e.g. \"string\" or \"dates\".",
    "",
    "Note that most functions taking a \"column\" argument will also accept a",
    "column index or a \"name\" with a nth selector like \"name[1]\".",
    "",
    "## Summary",
    ""]

/-- The introduction of the aggregations. -/
def aggregatesPrelude : Text := Text.ofLines
  ["# Available aggregation functions",
    "",
    "Note that most functions ignore null values (empty strings), but that",
    "functions operating on numbers will yield an error if they encounter a",
    "value that cannot be safely cast to a number, e.g. when using --strict.",
    "",
    "Aggregation functions are used by commands such as `xan agg` or",
    "`xan groupby` and can be found online at:",
    "https://github.com/medialab/xan/blob/master/docs/moonblade/aggs.md",
    "",
    "## Functions",
    ""]

end Handbook.Bundled
