import ImapReply.RecursiveList
import ImapReply.VerbatimList

/-! Reading one whole line of a reply, and reading later what was kept as text. A line comes
without its end and with every announced payload in place. -/
namespace ImapReply

namespace Line

/-- Items of the list whose parenthesis is at the point. -/
def readList (s : Settings) (p : Point) : Except Fault (List Value × Point) :=
  match s.nesting with
  | .verbatim => VerbatimList.read s.literalChunk p
  | .recursive => RecursiveList.read s s.maxDepth p

theorem readList_shorter {s : Settings} {p after : Point} {items : List Value}
    (found : readList s p = .ok (items, after)) : after.rest.length < p.rest.length := by
  unfold readList VerbatimList.read at found
  split at found
  · have past : (p.skip 1).rest.length ≤ p.rest.length := by simp
    exact Nat.lt_of_lt_of_le (VerbatimList.readItems_shorter found) past
  · exact RecursiveList.read_shorter found

/-- Values from the point to the end of the line, after those collected already. -/
def readValues (s : Settings) (c : Collector) (p : Point) : Except Fault (List Value) :=
  match _next : Lexeme.next s.literalChunk p with
  | .error fault => .error fault
  | .ok none => .ok c.items
  | .ok (some (.closeParen, _)) => .error (.unexpected p.skipBlanks.offset ')')
  | .ok (some (.piece piece, after)) => readValues s (c.add piece) after
  | .ok (some (.openParen, _)) =>
    match _list : readList s p.skipBlanks with
    | .error fault => .error fault
    | .ok (items, after) => readValues s (c.push (.list items)) after
termination_by p.rest.length
decreasing_by
  · exact Lexeme.next_shorter _next
  · exact Nat.lt_of_lt_of_le (readList_shorter _list) p.length_rest_skipBlanks_le

theorem readValues_eq (s : Settings) (c : Collector) (p : Point) :
    readValues s c p =
      match Lexeme.next s.literalChunk p with
      | .error fault => .error fault
      | .ok none => .ok c.items
      | .ok (some (.closeParen, _)) => .error (.unexpected p.skipBlanks.offset ')')
      | .ok (some (.piece piece, after)) => readValues s (c.add piece) after
      | .ok (some (.openParen, _)) =>
        match readList s p.skipBlanks with
        | .error fault => .error fault
        | .ok (items, after) => readValues s (c.push (.list items)) after := by
  rw [readValues]
  grind

end Line

/-- Values of a line. Its length is judged before anything in it. -/
def decode (s : Settings) (line : List UInt8) : Except Fault (List Value) :=
  match s.maxLineLength.filter (· < line.length) with
  | some max => .error (.lineTooLong line.length max)
  | none => Line.readValues s { mapsNil := true } (.start line)

/-- Reads an atom as a line if its text starts with a parenthesis, as that of a list kept verbatim
does; any other value is returned as it is. Values that are not one single list are put into one. -/
def expand (s : Settings) (v : Value) : Except Fault Value :=
  match v.text? with
  | none => .ok v
  | some text =>
    let line := Octets.ofText text
    if line.head? = some Octet.openParen then
      match decode s line with
      | .error fault => .error fault
      | .ok [.list items] => .ok (.list items)
      | .ok values => .ok (.list values)
    else .ok v

end ImapReply
