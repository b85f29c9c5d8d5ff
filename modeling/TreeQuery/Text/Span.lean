/-! Ranges of bytes of a text. -/

namespace TreeQuery.Text

/-- The bytes from `start` up to and not including `stop`. -/
structure Span where
  start : Nat
  stop : Nat
deriving Repr, DecidableEq

/-- Whether a span is of a text, with no character at its ends that is only half inside. -/
structure Span.Fits (span : Span) (text : String) : Prop where
  ordered : span.start ≤ span.stop
  within : span.stop ≤ text.utf8ByteSize
  start : (String.Pos.Raw.mk span.start).IsValid text
  stop : (String.Pos.Raw.mk span.stop).IsValid text

end TreeQuery.Text
