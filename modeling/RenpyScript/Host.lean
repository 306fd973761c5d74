import RenpyScript.Json.Compact
import RenpyScript.Parser

/-!
# The interface for C programs

C programs see the grammar as a handle and give and take bytes. A handle that is not that of the grammar
is no language. Texts are handed out only if they hold no NUL character, which would end them early.
-/

namespace RenpyScript.Host

def languageName? (handle : Option Language) : Option String :=
  handle.map (·.name)

/-- Number of node kinds of the grammar behind a handle. -/
def kindCount (handle : Option Language) : Nat :=
  if handle.isSome then Language.kindCount else 0

/-- Reads the first `length` bytes of a script. There is no tree without a grammar, without bytes where
some are promised, and for bytes that are no UTF-8. -/
def parse? (handle : Option Language) (bytes : Option ByteArray) (length : Nat) : Option Tree := do
  let language ← handle
  let given ← if length = 0 then some ByteArray.empty else bytes
  let text ← String.fromUTF8? (given.extract 0 length)
  let parser ← (Parser.empty.setLanguage language).toOption
  parser.parse? text

/-- Whether a tree has an error; without a tree there is none. -/
def hasError (tree : Option Tree) : Bool :=
  tree.any (·.root.hasError)

def handOut? (text : String) : Option String :=
  if text.toList.contains '\x00' then none else some text

def sexp? (tree : Option Tree) : Option String :=
  tree.bind fun t => handOut? t.root.sexp

def json? [JsonWriter] (tree : Option Tree) : Option String :=
  tree.bind fun t => (JsonWriter.write t.toJson).bind handOut?

def header : String :=
  "\n".intercalate
    [ "#ifndef TREE_SITTER_RENPY_H_",
      "#define TREE_SITTER_RENPY_H_",
      "",
      "#include <stdbool.h>",
      "#include <stddef.h>",
      "",
      "typedef struct TSLanguage TSLanguage;",
      "typedef struct RenpyTree RenpyTree;",
      "",
      "#ifdef __cplusplus",
      "extern \"C\" \x7b",
      "#endif",
      "",
      "const TSLanguage *tree_sitter_renpy(void);",
      "",
      "const char *renpy_language_name(const TSLanguage *language);",
      "size_t renpy_language_node_kind_count(const TSLanguage *language);",
      "",
      "RenpyTree *renpy_parse(const TSLanguage *language, const char *text, size_t length);",
      "bool renpy_tree_has_error(const RenpyTree *tree);",
      "char *renpy_tree_sexp(const RenpyTree *tree);",
      "char *renpy_tree_json(const RenpyTree *tree);",
      "void renpy_string_free(char *string);",
      "void renpy_tree_delete(RenpyTree *tree);",
      "",
      "#ifdef __cplusplus",
      "\x7d",
      "#endif",
      "",
      "#endif // TREE_SITTER_RENPY_H_",
      "" ]

end RenpyScript.Host
