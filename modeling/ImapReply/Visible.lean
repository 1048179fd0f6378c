import ImapReply.Visible.Shapeless

/-! Characters written in single quotes so that each one can be seen. -/
namespace ImapReply.Visible

/-- Digits of a code point in base sixteen, lower case, without leading zeros. -/
def hexadecimal (code : Nat) : String := String.ofList (Nat.toDigits 16 code)

/-- A backslash stands before a single quote and before itself. Four control characters have a
sign of their own; what else has no shape is named by code point. -/
def escape (c : Char) : String :=
  if c = '\'' then "\\'"
  else if c = '\\' then "\\\\"
  else if c = '\x00' then "\\0"
  else if c = '\t' then "\\t"
  else if c = '\r' then "\\r"
  else if c = '\n' then "\\n"
  else if isShapeless c then "\\u\x7b" ++ hexadecimal c.toNat ++ "\x7d"
  else String.singleton c

def quote (c : Char) : String := "'" ++ escape c ++ "'"

end ImapReply.Visible
