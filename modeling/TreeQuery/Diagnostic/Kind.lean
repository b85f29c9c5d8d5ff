/-! What can be found wrong with a query, and how each finding is worded. -/

namespace TreeQuery.Diagnostic

inductive Severity where
  | error
  | warning
deriving Repr, DecidableEq

def Severity.name : Severity → String
  | error => "error"
  | warning => "warning"

/-- Findings of the parser come first, then those about incomplete constructs, then those
that need the grammar. The order also settles which of two findings at one place comes first. -/
inductive Kind where
  | unclosedNode | unclosedList | unclosedString
  | expectedFieldName | expectedSubtype | expectedPredicateName | expectedPredicateType
  | nestingTooDeep | bareIdentifier | captureWithoutTarget | unexpectedToken
  | emptyGrouping | emptyList | hangingCapture | missingFieldValue | missingPredicateParameters
  | unknownNodeType | unknownField | invalidSubtype | nodeHasNoChildren | noLiteralChildren
  | invalidChildType | invalidChildLiteral | invalidFieldValue
  | invalidRegex
  | redundantNegation | negatedRequiredField | unknownPredicate
deriving Repr, DecidableEq

structure Template where
  before : String
  after : String
deriving Repr, DecidableEq

namespace Template

def fill (template : Template) (detail : String) : String := template.before ++ detail ++ template.after

def text (template : Template) : String := template.fill "\x7b\x7d"

end Template

namespace Kind

def all : List Kind :=
  [unclosedNode, unclosedList, unclosedString,
   expectedFieldName, expectedSubtype, expectedPredicateName, expectedPredicateType,
   nestingTooDeep, bareIdentifier, captureWithoutTarget, unexpectedToken,
   emptyGrouping, emptyList, hangingCapture, missingFieldValue, missingPredicateParameters,
   unknownNodeType, unknownField, invalidSubtype, nodeHasNoChildren, noLiteralChildren,
   invalidChildType, invalidChildLiteral, invalidFieldValue,
   invalidRegex,
   redundantNegation, negatedRequiredField, unknownPredicate]

def name : Kind → String
  | unclosedNode => "UnclosedNode"
  | unclosedList => "UnclosedList"
  | unclosedString => "UnclosedString"
  | expectedFieldName => "ExpectedFieldName"
  | expectedSubtype => "ExpectedSubtype"
  | expectedPredicateName => "ExpectedPredicateName"
  | expectedPredicateType => "ExpectedPredicateType"
  | nestingTooDeep => "NestingTooDeep"
  | bareIdentifier => "BareIdentifier"
  | captureWithoutTarget => "CaptureWithoutTarget"
  | unexpectedToken => "UnexpectedToken"
  | emptyGrouping => "EmptyGrouping"
  | emptyList => "EmptyList"
  | hangingCapture => "HangingCapture"
  | missingFieldValue => "MissingFieldValue"
  | missingPredicateParameters => "MissingPredicateParameters"
  | unknownNodeType => "UnknownNodeType"
  | unknownField => "UnknownField"
  | invalidSubtype => "InvalidSubtype"
  | nodeHasNoChildren => "NodeHasNoChildren"
  | noLiteralChildren => "NoLiteralChildren"
  | invalidChildType => "InvalidChildType"
  | invalidChildLiteral => "InvalidChildLiteral"
  | invalidFieldValue => "InvalidFieldValue"
  | invalidRegex => "InvalidRegex"
  | redundantNegation => "RedundantNegation"
  | negatedRequiredField => "NegatedRequiredField"
  | unknownPredicate => "UnknownPredicate"

def ofName? (name : String) : Option Kind := all.find? (·.name = name)

def rank (kind : Kind) : Nat := all.idxOf kind

def severity : Kind → Severity
  | redundantNegation | negatedRequiredField | unknownPredicate => .warning
  | _ => .error

def source : Kind → String
  | unclosedNode | unclosedList | unclosedString | expectedFieldName | expectedSubtype
  | expectedPredicateName | expectedPredicateType | nestingTooDeep | bareIdentifier
  | captureWithoutTarget | unexpectedToken => "syntax"
  | emptyGrouping | emptyList => "empty_container"
  | hangingCapture => "hanging_capture"
  | missingFieldValue => "missing_field_value"
  | missingPredicateParameters => "missing_parameters"
  | unknownNodeType | unknownField | invalidSubtype | nodeHasNoChildren | noLiteralChildren
  | invalidChildType | invalidChildLiteral | invalidFieldValue | redundantNegation
  | negatedRequiredField => "node"
  | unknownPredicate => "predicate"
  | invalidRegex => "regex_predicate"

def hint? : Kind → Option String
  | expectedSubtype => some "e.g., `expression/binary_expression`"
  | expectedFieldName => some "e.g., `!body`"
  | bareIdentifier => some "wrap it in parentheses to match a named node"
  | emptyGrouping => some "use `(_)` to match any named node"
  | emptyList => some "a list needs at least one alternative"
  | missingFieldValue => some "e.g., `name: (identifier)`"
  | _ => none

def summary : Kind → String
  | unclosedNode => "missing closing `)`"
  | unclosedList => "missing closing `]`"
  | unclosedString => "missing closing `\"`"
  | expectedFieldName => "expected field name"
  | expectedSubtype => "expected subtype name"
  | expectedPredicateName => "expected predicate name"
  | expectedPredicateType => "expected `?` or `!` after predicate name"
  | nestingTooDeep => "pattern is nested too deeply"
  | bareIdentifier => "bare identifier is not a pattern"
  | captureWithoutTarget => "capture has no target"
  | unexpectedToken => "unexpected token"
  | emptyGrouping => "empty grouping"
  | emptyList => "empty list"
  | hangingCapture => "capture is missing a name"
  | missingFieldValue => "field is missing a value"
  | missingPredicateParameters => "predicate has no parameters"
  | unknownNodeType => "unrecognized kind"
  | unknownField => "unrecognized field"
  | invalidSubtype => "not a subtype"
  | nodeHasNoChildren => "kind has no children"
  | noLiteralChildren => "kind has no literal children"
  | invalidChildType => "kind not valid as a child here"
  | invalidChildLiteral => "literal not valid as a child here"
  | invalidFieldValue => "not a valid value for this field"
  | invalidRegex => "invalid regular expression"
  | redundantNegation => "negated field can never be present"
  | negatedRequiredField => "negated field is required"
  | unknownPredicate => "unknown predicate"

def template : Kind → Template
  | unknownNodeType => ⟨"unrecognized kind `", "`"⟩
  | unknownField => ⟨"unrecognized field `", "`"⟩
  | nodeHasNoChildren => ⟨"`", "` has no children"⟩
  | noLiteralChildren => ⟨"`", "` has no literal children"⟩
  | unknownPredicate => ⟨"unknown predicate `", "`"⟩
  | invalidSubtype | invalidChildType | invalidChildLiteral | invalidFieldValue
  | redundantNegation | negatedRequiredField => ⟨"", ""⟩
  | kind@unclosedNode | kind@unclosedList | kind@unclosedString => ⟨kind.summary ++ "; ", ""⟩
  | kind => ⟨kind.summary ++ ": ", ""⟩

def message (kind : Kind) : Option String → String
  | none => kind.summary
  | some detail => kind.template.fill detail

end Kind

end TreeQuery.Diagnostic
