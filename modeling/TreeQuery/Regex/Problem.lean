import TreeQuery.Text.Span

/-! What can be wrong with a regular expression. -/

namespace TreeQuery.Regex
open Text (Span)

inductive Problem where
  | classUnclosed | classEscape | rangeLiteral | rangeReversed
  | decimalInvalid
  | escapeUnfinished | escapeUnrecognized | hexEmpty | hexInvalid | hexDigit
  | flagDangling | flagDuplicate | flagNegatedTwice | flagUnfinished | flagUnrecognized
  | nameDuplicate | nameEmpty | nameInvalid | nameUnclosed
  | groupUnclosed | groupUnopened
  | nestedTooDeep (limit : Nat)
  | countReversed | countEmpty | countUnclosed | repetitionMissing
  | boundaryUnclosed | boundaryUnrecognized | boundaryUnfinished
  | classNameInvalid
  | backreference | lookaround
deriving Repr, DecidableEq

def Problem.message : Problem → String
  | classUnclosed => "unclosed character class"
  | classEscape => "invalid escape sequence found in character class"
  | rangeLiteral => "invalid range boundary, must be a literal"
  | rangeReversed => "invalid character class range, the start must be <= the end"
  | decimalInvalid => "decimal literal invalid"
  | escapeUnfinished => "incomplete escape sequence, reached end of pattern prematurely"
  | escapeUnrecognized => "unrecognized escape sequence"
  | hexEmpty => "hexadecimal literal empty"
  | hexInvalid => "hexadecimal literal is not a Unicode scalar value"
  | hexDigit => "invalid hexadecimal digit"
  | flagDangling => "dangling flag negation operator"
  | flagDuplicate => "duplicate flag"
  | flagNegatedTwice => "flag negation operator repeated"
  | flagUnfinished => "expected flag but got end of regex"
  | flagUnrecognized => "unrecognized flag"
  | nameDuplicate => "duplicate capture group name"
  | nameEmpty => "empty capture group name"
  | nameInvalid => "invalid capture group character"
  | nameUnclosed => "unclosed capture group name"
  | groupUnclosed => "unclosed group"
  | groupUnopened => "unopened group"
  | nestedTooDeep limit =>
    "exceed the maximum number of nested parentheses/brackets (" ++ toString limit ++ ")"
  | countReversed => "invalid repetition count range, the start must be <= the end"
  | countEmpty => "repetition quantifier expects a valid decimal"
  | countUnclosed => "unclosed counted repetition"
  | repetitionMissing => "repetition operator missing expression"
  | boundaryUnclosed => "special word boundary assertion is either unclosed or contains an invalid character"
  | boundaryUnrecognized =>
    "unrecognized special word boundary assertion, valid choices are: start, end, start-half or end-half"
  | boundaryUnfinished =>
    "found either the beginning of a special word boundary or a bounded repetition on a \\b with an " ++
      "opening brace, but no closing brace"
  | classNameInvalid => "invalid Unicode character class"
  | backreference => "backreferences are not supported"
  | lookaround => "look-around, including look-ahead and look-behind, is not supported"

structure Fault where
  span : Span
  problem : Problem
deriving Repr, DecidableEq

/-- What tells the fault of a pattern, if it has one. Patterns are checked with whichever is given. -/
abbrev Finder := String → Option Fault

/-- Every fault is told at characters of its pattern. -/
def Finder.Bounded (finder : Finder) : Prop := ∀ ⦃pattern fault⦄, finder pattern = some fault → fault.span.Fits pattern

end TreeQuery.Regex
