/-!
# Bundled queries

The query that assigns captures to the parts of a script that are highlighted, and the query whose
captures may be folded.
-/

namespace RenpyScript

def highlightsQuery : String :=
  r#"; Keywords

(header
  keyword: _ @keyword)

(renpy_statement
  keyword: _ @keyword)

(control_statement
  keyword: _ @keyword.conditional)

(define_statement
  keyword: _ @keyword)

(python_block
  keyword: _ @keyword)

(python_block
  "python" @keyword)

; Names

(header
  identifier: (identifier) @function)

(header
  priority: (number) @number)

(python_block
  priority: (number) @number)

(arguments
  (identifier) @variable.parameter)

(define_statement
  (identifier) @variable)

(renpy_statement
  (identifier) @variable)

((identifier) @constant.builtin
  (#any-of? @constant.builtin "True" "False" "None"))

; Python

"$" @punctuation.special

(python_expression) @embedded

; Literals

(string) @string

[
  (escape_sequence)
  (escape_interpolation)
] @string.escape

(number) @number

(comment) @comment

; Punctuation

[
  ":"
  ","
] @punctuation.delimiter

[
  "("
  ")"
] @punctuation.bracket

"=" @operator

(ERROR) @error
"#

def foldsQuery : String :=
  r#"(header) @fold

(python_block) @fold

(renpy_statement
  body: (block)) @fold

(control_statement
  body: (block)) @fold
"#

end RenpyScript
