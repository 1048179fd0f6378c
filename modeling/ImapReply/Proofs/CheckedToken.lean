import ImapReply.Proofs.CheckedLiteral
import ImapReply.Proofs.Continuation

/-! Quoted strings, words and tokens of any form, read on the machine. The search for a closing
quote may go one place past the end of the line, behind a backslash, but takes no octet from
there. -/
namespace ImapReply

open Octet Octets Checked

/-- A backslash at the end keeps nothing, and then no quote follows either. -/
theorem Quoted.contentLength_kept (after : List UInt8) :
    contentLength (backslash :: after) = (contentLength (after.drop 1)).map (2 + ·) := by
  cases after with
  | nil => rfl
  | cons b later => exact contentLength_backslash b later

namespace Cursor

variable {octets : List UInt8} {p : Point} {owed : Option Nat}

/-- Goes on to the next octet, or past it if a backslash keeps it. -/
def quotedTurn (octets : List UInt8) (start place : Nat) : Checked (Turn Nat Nat) :=
  if place < octets.length then do
    let b ← itemAt octets place
    if b = backslash then .again <$> add place 2
    else if b = quote then .done <$> add place 1
    else .again <$> add place 1
  else fault (.unterminatedQuoted start)

/-- The place behind the quote that closes a string whose opening quote is at `start`. -/
def quotedEnd (octets : List UInt8) (start : Nat) : Checked Nat := do
  iterate octets.length id (quotedTurn octets start) (← add start 1)

/-- What a search that has come to a place is to come to. -/
def closingFrom (octets : List UInt8) (start place : Nat) : Checked Nat :=
  match Quoted.contentLength (octets.drop place) with
  | some n => .ok (place + n + 1)
  | none => fault (.unterminatedQuoted start)

theorem closingFrom_backslash {start place : Nat} {after : List UInt8}
    (left : octets.drop place = backslash :: after) :
    closingFrom octets start place = closingFrom octets start (place + 2) := by
  have later : octets.drop (place + 2) = after.drop 1 := by
    rw [← List.drop_drop, left]
    rfl
  rw [closingFrom, closingFrom, left, later, Quoted.contentLength_kept]
  cases Quoted.contentLength (after.drop 1) with
  | none => rfl
  | some n => simp only [Option.map_some, Nat.add_assoc]

theorem closingFrom_plain {start place : Nat} {b : UInt8} {after : List UInt8}
    (left : octets.drop place = b :: after) (notQuote : b ≠ quote) (notBackslash : b ≠ backslash) :
    closingFrom octets start place = closingFrom octets start (place + 1) := by
  have later : octets.drop (place + 1) = after := by
    rw [← List.drop_drop, left]
    rfl
  rw [closingFrom, closingFrom, left, later, Quoted.contentLength_plain _ notQuote notBackslash]
  cases Quoted.contentLength after with
  | none => rfl
  | some n => simp only [Option.map_some, Nat.add_assoc]

theorem goesOn_quotedTurn (fits : octets.length ≤ longest) (start place : Nat) :
    GoesOn octets.length id (quotedTurn octets start)
      (fun place result => result = closingFrom octets start place) place
      (closingFrom octets start place) := by
  have room := longest_add_two_le
  unfold GoesOn quotedTurn
  by_cases inside : place < octets.length
  · have left := List.drop_eq_getElem_cons inside
    have taken : itemAt octets place = .ok octets[place] :=
      itemAt_eq (List.getElem?_eq_getElem inside)
    rw [if_pos inside, taken, ok_bind]
    generalize octets[place] = b at left
    by_cases slash : b = backslash
    · right
      refine ⟨place + 2, ?_, ⟨Nat.lt_add_of_pos_right Nat.two_pos, inside⟩,
        closingFrom_backslash (slash ▸ left)⟩
      rw [if_pos slash, add_eq (by omega)]
      rfl
    by_cases closing : b = quote
    · left
      rw [if_neg slash, if_pos closing, add_eq (by omega), closingFrom, left, closing,
        Quoted.contentLength_quote]
    · right
      refine ⟨place + 1, ?_, ⟨Nat.lt_add_one place, inside⟩, closingFrom_plain left closing slash⟩
      rw [if_neg slash, if_neg closing, add_eq (by omega)]
      rfl
  · left
    rw [if_neg inside, closingFrom, List.drop_of_length_le (by omega), Quoted.contentLength_nil]
    rfl

theorem quotedEnd_eq (within : p.Within octets) :
    quotedEnd octets p.offset = match Quoted.contentLength (p.rest.drop 1) with
      | some n => .ok (p.offset + n + 2)
      | none => fault (.unterminatedQuoted p.offset) := by
  have opened : p.rest.drop 1 = octets.drop (p.offset + 1) := by
    rw [← within.line, ← List.drop_drop, Point.drop_offset_line]
  have started : add p.offset 1 = .ok (p.offset + 1) := within.add (by omega)
  have found : iterate octets.length id (quotedTurn octets p.offset) (p.offset + 1) =
      closingFrom octets p.offset (p.offset + 1) := by
    refine iterate_eq (fun place result => result = closingFrom octets p.offset place) ?_ rfl
    rintro place _ rfl
    exact goesOn_quotedTurn within.fits p.offset place
  rw [quotedEnd, started, ok_bind, opened, found, closingFrom]
  cases Quoted.contentLength (octets.drop (p.offset + 1)) with
  | none => rfl
  | some n => exact congrArg Except.ok (by omega)

def readQuoted (octets : List UInt8) (k : Cursor) : Checked (Token × Cursor) := do
  let stop ← quotedEnd octets k.position
  let raw ← text octets (← add k.position 1) (← sub stop 1)
  return (.quoted (Quoted.unescape raw), ← k.moveTo octets stop)

theorem readQuoted_eq (within : p.Within octets) :
    p.cursor.readQuoted octets = landing .quoted <$> lift (Quoted.read p) := by
  rw [readQuoted, Point.position_cursor, quotedEnd_eq within, Quoted.read]
  cases closed : Quoted.contentLength (p.rest.drop 1) with
  | none => rfl
  | some n =>
    have inside : n + 2 ≤ p.rest.length := Quoted.extent_le (by rw [Quoted.extent, closed])
    have place : (p.skip 1).offset = p.offset + 1 := Point.offset_skip_of_le (by omega)
    have raw := (within.skip 1).text (n := n) (by rw [Point.rest_skip, List.length_drop]; omega)
    have stop : sub (p.offset + n + 2) 1 = .ok (p.offset + 1 + n) := by
      rw [sub_eq (by omega)]
      exact congrArg Except.ok (by omega)
    rw [place] at raw
    dsimp only
    rw [ok_bind, within.add (by omega), ok_bind, stop, ok_bind, raw, Point.rest_skip,
      Nat.add_assoc, within.moveTo inside]
    cases text? ((p.rest.drop 1).take n) with
    | none => rfl
    | some content => rfl

def skipQuoted (octets : List UInt8) (k : Cursor) : Checked Cursor := do
  k.moveTo octets (← quotedEnd octets k.position)

theorem skipQuoted_eq (within : p.Within octets) :
    (p.cursor owed).skipQuoted octets =
      (fun n => (p.skip n).cursor owed) <$> lift (Quoted.extent p) := by
  rw [skipQuoted, Point.position_cursor, quotedEnd_eq within]
  cases closed : Quoted.contentLength (p.rest.drop 1) with
  | none => rw [Quoted.extent, closed]; rfl
  | some n =>
    have extent : Quoted.extent p = .ok (n + 2) := by rw [Quoted.extent, closed]
    rw [extent]
    exact within.moveTo (Quoted.extent_le extent)

def readWord (octets : List UInt8) (k : Cursor) : Checked (Token × Cursor) := do
  let stop ← k.skipWhile octets (!isDelimiter ·)
  return (.bare (← text octets k.position stop.position), stop)

theorem readWord_eq (within : p.Within octets) :
    p.cursor.readWord octets = landing .bare <$> lift (Lexeme.word p) := by
  have inside : (p.rest.takeWhile (!isDelimiter ·)).length ≤ p.rest.length :=
    (List.takeWhile_prefix _).length_le
  have word : p.rest.take (p.rest.takeWhile (!isDelimiter ·)).length =
      p.rest.takeWhile (!isDelimiter ·) :=
    List.prefix_iff_eq_take.mp (List.takeWhile_prefix _) |>.symm
  rw [readWord, skipWhile_eq within, ok_bind, Point.position_cursor, Point.position_cursor,
    Point.offset_skip_of_le inside, within.text inside, word, Lexeme.word]
  cases text? (p.rest.takeWhile (!isDelimiter ·)) <;> rfl

/-- Whether a literal is next. Its header is then read and the payload owed. -/
def looksLikeLiteral (octets : List UInt8) (k : Cursor) : Checked (Bool × Cursor) := do
  let k ← k.skipSpaces octets
  if k.peek octets = some openBrace then
    let (announced, k) ← k.readHeader octets
    return (true, { k with owed := some announced })
  else return (false, k)

theorem looksLikeLiteral_openBrace (within : p.Within octets) {body : List UInt8}
    (start : p.rest = openBrace :: body) :
    (p.cursor owed).looksLikeLiteral octets =
      (fun h => (true, (p.skip h.extent).cursor (some h.length))) <$> lift (Literal.header p) := by
  rw [looksLikeLiteral, skipSpaces_of_ne within start (by decide), ok_bind, within.peek, start,
    List.head?_cons, if_pos rfl, readHeader_eq within start]
  cases Literal.header p <;> rfl

theorem looksLikeLiteral_of_ne {b : UInt8} {later : List UInt8} (within : p.Within octets)
    (start : p.rest = b :: later) (notSpace : b ≠ space) (notBrace : b ≠ openBrace) :
    (p.cursor owed).looksLikeLiteral octets = .ok (false, p.cursor owed) := by
  rw [looksLikeLiteral, skipSpaces_of_ne within start notSpace, ok_bind, within.peek, start,
    List.head?_cons, if_neg (by simpa using notBrace)]
  rfl

theorem looksLikeLiteral_end (within : p.Within octets) (left : p.rest = []) :
    (p.cursor owed).looksLikeLiteral octets = .ok (false, p.cursor owed) := by
  rw [looksLikeLiteral, skipSpaces, skipWhile_eq within, left, List.takeWhile_nil, ok_bind]
  have ended : ((p.skip 0).cursor owed).peek octets = none := by
    rw [Point.skip_zero, within.peek, left]
    rfl
  rw [List.length_nil, ended, Point.skip_zero]
  rfl

def looksLikeString (octets : List UInt8) (k : Cursor) : Bool :=
  match k.peek octets with
  | some b => !isDelimiter b || b = quote
  | none => false

/-- Reads the payload that is owed or, if there is none, the token at the cursor. -/
def readToken (octets : List UInt8) (chunk : Nat) (k : Cursor) : Checked (Token × Cursor) := do
  let k ← if k.owed.isNone then Prod.snd <$> k.looksLikeLiteral octets else pure k
  if k.owed.isSome then k.readLiteral octets chunk
  else
    let k ← k.skipSpaces octets
    if k.peek octets = some quote then k.readQuoted octets else k.readWord octets

theorem readToken_openBrace (within : p.Within octets) (chunk : Nat) {body : List UInt8}
    (start : p.rest = openBrace :: body) :
    p.cursor.readToken octets chunk = landing .literal <$> lift (Literal.read chunk p) := by
  rw [readToken, Point.owed_cursor, Option.isNone_none, if_pos rfl,
    looksLikeLiteral_openBrace within start]
  cases found : Literal.header p with
  | error fault =>
    simp only [Literal.read, Literal.announced, found]
    rfl
  | ok h => exact readLiteral_header within chunk found

/-- Reads what starts right at the point as a token. -/
theorem readToken_eq (within : p.Within octets) (chunk : Nat) {b : UInt8} {later : List UInt8}
    (start : p.rest = b :: later) (inToken : isDelimiter b = false ∨ b = quote) :
    ∃ (form : String → Token) (read : Except Fault (String × Point)),
      Lexeme.next chunk p = Lexeme.asToken form read ∧
      p.cursor.readToken octets chunk = landing form <$> lift read := by
  have nonblank : isBlank b = false := by
    rcases inToken with plain | rfl
    · exact Lexeme.isBlank_of_undelimited plain
    · decide
  have notSpace : b ≠ space := by
    rintro rfl
    contradiction
  rw [Lexeme.next, Point.skipBlanks_of_cons start nonblank]
  simp only [Lexeme.here, start]
  by_cases brace : b = openBrace
  · subst brace
    rw [role_eq_openBrace_iff.mpr rfl]
    exact ⟨_, _, rfl, readToken_openBrace within chunk start⟩
  have unannounced : p.cursor.readToken octets chunk =
      if b = quote then p.cursor.readQuoted octets else p.cursor.readWord octets := by
    rw [readToken, Point.owed_cursor, Option.isNone_none, if_pos rfl,
      looksLikeLiteral_of_ne within start notSpace brace, Except.map_ok, ok_bind]
    simp [skipSpaces_of_ne within start notSpace, within.peek, start]
  rw [unannounced]
  by_cases quoted : b = quote
  · rw [role_eq_quote_iff.mpr quoted, if_pos quoted]
    exact ⟨_, _, rfl, readQuoted_eq within⟩
  · rw [if_neg quoted]
    have plain : role b = .plain := by
      have inWord := inToken.resolve_right quoted
      simpa [isDelimiter, role_eq_openBrace_iff, brace] using inWord
    rw [plain]
    exact ⟨_, _, rfl, readWord_eq within⟩

end Cursor

end ImapReply
