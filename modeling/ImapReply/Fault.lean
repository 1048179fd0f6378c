import ImapReply.Visible

/-! Reasons why a line cannot be read. Positions count octets from the start of the line. -/
namespace ImapReply

inductive Fault where
  /-- The quote at `position` is never closed. -/
  | unterminatedQuoted (position : Nat)
  /-- The parenthesis at `position` is never closed. -/
  | unterminatedList (position : Nat)
  /-- Reading a literal's header stopped at `position`. -/
  | invalidHeader (position : Nat) (reason : String)
  /-- The payload that starts at `position` is shorter than announced. -/
  | truncatedLiteral (position expected available : Nat)
  /-- The octets that start at `position` are not UTF-8. -/
  | invalidText (position : Nat)
  /-- The parenthesis at `position` opens one list too many. -/
  | nestingTooDeep (position max : Nat)
  /-- No value can start with the character at `position`. -/
  | unexpected (position : Nat) (found : Char)
  /-- The line was rejected before it was read. -/
  | lineTooLong (length max : Nat)
deriving DecidableEq, Repr

namespace Fault

/-- A line that is too long is at fault as a whole, so its position is the start. -/
def position : Fault → Nat
  | .unterminatedQuoted position | .unterminatedList position | .invalidHeader position _
  | .truncatedLiteral position _ _ | .invalidText position | .nestingTooDeep position _
  | .unexpected position _ => position
  | .lineTooLong _ _ => 0

/-- One sentence without a full stop. -/
def message : Fault → String
  | .unterminatedQuoted position => s!"Unterminated quoted string starting at position {position}"
  | .unterminatedList position => s!"Unterminated list starting at position {position}"
  | .invalidHeader position reason =>
    s!"Invalid literal header at position {position}: {reason}"
  | .truncatedLiteral position expected available =>
    s!"Truncated literal at position {position}: expected {expected} bytes, {available} available"
  | .invalidText position => s!"Invalid UTF-8 in token at position {position}"
  | .nestingTooDeep position max => s!"List at position {position} nested deeper than {max}"
  | .unexpected position found => s!"Unexpected {Visible.quote found} at position {position}"
  | .lineTooLong length max => s!"Line of {length} bytes exceeds maximum of {max}"

end Fault

end ImapReply
