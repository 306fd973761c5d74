import RenpyScript.Proofs.Tree.Locality
import RenpyScript.Proofs.Tree.Indentation
import RenpyScript.Files.Tree
import RenpyScript.Host
import RenpyScript.Main
import RenpyScript.Tree.Cursor
import RenpyScript.Tree.Place
import RenpyScript.Proofs.Checked.Misaligned
import RenpyScript.Grammar.Production
import RenpyScript.Proofs.Tree.Derivation
import RenpyScript.Proofs.Line.Derivation
import RenpyScript.Proofs.Outline.Derivation
import RenpyScript.Proofs.Layout.Returns
import RenpyScript.Proofs.Line.Neutral
import RenpyScript.Proofs.Tree.LineEndings
import RenpyScript.Checked.Builder
import RenpyScript.Checked.Descent
import RenpyScript.Proofs.Checked.Body
import RenpyScript.Proofs.Checked.Descent
import RenpyScript.Proofs.Checked.Parse
import RenpyScript.Proofs.Query.Walk
import RenpyScript.Proofs.Query.Range
import RenpyScript.Proofs.Checked.Strings
import RenpyScript.Proofs.Tree.Errors
import RenpyScript.Proofs.Highlight.Intervals
import RenpyScript.Proofs.Tree.Blank
import RenpyScript.Proofs.Checked.Expressions
import RenpyScript.Proofs.Highlight.Rows
import RenpyScript.Proofs.Highlight.Folds
import RenpyScript.Proofs.Query.Composition
import RenpyScript.Proofs.Checked.Query
import RenpyScript.Proofs.Query.Repetition
import RenpyScript.Proofs.Highlight.History
import RenpyScript.Proofs.Query.CaptureErrors
import RenpyScript.Proofs.Query.Clause
import RenpyScript.Proofs.Tree.Comments
import RenpyScript.Proofs.Checked.Alternatives
import RenpyScript.Proofs.Arena.Cursor
import RenpyScript.Proofs.Arena.Smallest
import RenpyScript.Proofs.Checked.Tiling
import RenpyScript.Proofs.Arena.Points
import RenpyScript.Proofs.Checked.Levels
import RenpyScript.Proofs.Tree.Skeleton
import RenpyScript.Proofs.Checked.StyleTables
import RenpyScript.Proofs.Highlight.Errors
import RenpyScript.Proofs.Checked.Interface
