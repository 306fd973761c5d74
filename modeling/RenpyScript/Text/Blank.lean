/-!
# Blank characters

Two notions of white space: what the script language passes over between tokens, and what Unicode
calls white space.
-/

namespace RenpyScript

/-- Characters without meaning between the tokens of a script. -/
def isBlank (c : Char) : Bool :=
  c = ' ' || c = '\t' || c = '\r' || c = '\n' || c = '\x0c' ||
    c = '\ufeff' || c = '\u2060' || c = '\u200b'

/-- Characters with the Unicode property `White_Space`. -/
def isWhiteSpace (c : Char) : Bool :=
  ('\t' ≤ c && c ≤ '\r') || c = ' ' || c = '\u0085' || c = '\u00a0' || c = '\u1680' ||
    ('\u2000' ≤ c && c ≤ '\u200a') || c = '\u2028' || c = '\u2029' || c = '\u202f' ||
    c = '\u205f' || c = '\u3000'

end RenpyScript
