import RenpyScript.Query.Pattern
import RenpyScript.Regex.Parse

/-!
# The engine of the program

The program compares with the regular expressions of this library. Words for an expression that is not well formed
are the same for every one.
-/

namespace RenpyScript

instance : RegexEngine where
  Regex := Regex
  compile pattern := (Regex.parse? pattern).elim (.error "regex parse error") .ok
  isMatch := Regex.isMatch

end RenpyScript
