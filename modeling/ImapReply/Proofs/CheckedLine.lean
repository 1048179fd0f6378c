import ImapReply.Proofs.CheckedList
import Mathlib.Control.Monad.Basic

/-! Whole lines and values, read on the machine. A line and a value give the same there as the
reading of points gives, and the machine traps on none that fits into its memory. -/
namespace ImapReply

open Octet Octets

namespace Checked

variable {octets : List UInt8} {c : Collector} {p : Point} {s : Settings} {b : UInt8}
  {later : List UInt8}

/-- What is left of a line, in the terms of the machine. -/
def restOfLine (s : Settings) (c : Collector) (p : Point) : Checked (List Value) :=
  lift (Line.readValues s c p)

/-- How a line ends on the machine. -/
def endOfLine (p : Point) (items : List Value) (halt : Halt) : Checked (List Value) :=
  lift (ImapReply.endOfLine p items halt)

theorem onward_restOfLine (s : Settings) :
    Onward s.literalChunk (.outermost s) endOfLine (restOfLine s) where
  toLoop := (Line.loop_readValues s).map lift
  broken := rfl
  alike := by
    intro p q items halt same
    cases halt with
    | finished | broken => rfl
    | closing => rw [endOfLine, endOfLine, ImapReply.endOfLine, ImapReply.endOfLine, same]

/-- Takes in what stands at the cursor outside of lists, where no space stands. -/
def takeValue (octets : List UInt8) (s : Settings) (c : Collector) (k : Cursor) :
    Checked (Turn (Collector × Cursor) (List Value)) := do
  if k.peek octets = some openParen then
    let (items, k) ← readList octets s k
    return .again (c.push (.list items), k)
  else
    let (announced, k) ← k.looksLikeLiteral octets
    if announced || k.looksLikeString octets then
      let (token, k) ← k.readToken octets s.literalChunk
      return .again (c.add (.token token), k)
    else
      match k.peek octets with
      | none => return .done c.items
      | some b =>
        match role b with
        | .openBracket => return .again (c.add .openBracket, ← k.skip octets 1)
        | .closeBracket => return .again (c.add .closeBracket, ← k.skip octets 1)
        | .blank => return .again (c, ← k.skipLineBreaks octets)
        | _ => fault (.unexpected k.position (Char.ofNat b.toNat))

def valuesTurn (octets : List UInt8) (s : Settings) :
    Collector × Cursor → Checked (Turn (Collector × Cursor) (List Value)) := fun (c, k) => do
  if octets.length ≤ k.position then return .done c.items
  else takeValue octets s c (← k.skipSpaces octets)

/-- Where a token is read next, the turn takes it in. -/
theorem proceeds_token (within : p.Within octets) {form : String → Token}
    {read : Except Fault (String × Point)}
    (found : Lexeme.next s.literalChunk p = Lexeme.asToken form read) :
    Proceeds octets (restOfLine s) c p (do
      let (token, k) ← landing form <$> lift read
      return .again (c.add (.token token), k)) := by
  cases read with
  | error fault => exact (Taken.failed found).proceeds (onward_restOfLine s)
  | ok result =>
    obtain ⟨text, after⟩ := result
    have reached := within.reaches (Lexeme.next_reaches found)
    exact (Taken.piece found reached (Lexeme.next_shorter found) rfl).proceeds (onward_restOfLine s)

theorem takeValue_end (within : p.Within octets) (left : p.rest = []) :
    takeValue octets s c p.cursor = .ok (.done c.items) := by
  simp [takeValue, Cursor.looksLikeLiteral_end within left, Cursor.looksLikeString, within.peek,
    left]

theorem takeValue_openParen (within : p.Within octets) (left : p.rest = openParen :: later) :
    Proceeds octets (restOfLine s) c p (takeValue octets s c p.cursor) := by
  rw [takeValue, within.peek, left, List.head?_cons, if_pos rfl,
    readList_eq within (by simp [left])]
  exact proceeds_list (onward_restOfLine s) (Line.advancing_outermost s) left rfl within

theorem takeValue_openBrace (within : p.Within octets) (left : p.rest = openBrace :: later) :
    Proceeds octets (restOfLine s) c p (takeValue octets s c p.cursor) := by
  have next : Lexeme.next s.literalChunk p =
      Lexeme.asToken .literal (Literal.read s.literalChunk p) :=
    Lexeme.next_openBrace left
  have token := proceeds_token (c := c) within next
  rw [takeValue, within.peek, left, List.head?_cons, if_neg (by decide),
    Cursor.looksLikeLiteral_openBrace within left]
  cases found : Literal.header p with
  | error fault =>
    simp only [Literal.read, Literal.announced, found] at token
    exact token
  | ok h =>
    rw [← Cursor.readLiteral_header within s.literalChunk found] at token
    exact token

theorem takeValue_proceeds (within : p.Within octets) (left : p.rest = b :: later)
    (notSpace : b ≠ space) :
    Proceeds octets (restOfLine s) c p (takeValue octets s c p.cursor) := by
  by_cases opens : b = openParen
  · subst opens
    exact takeValue_openParen within left
  by_cases brace : b = openBrace
  · subst brace
    exact takeValue_openBrace within left
  rw [takeValue, within.peek, left, List.head?_cons, if_neg (by simpa using opens),
    Cursor.looksLikeLiteral_of_ne within left notSpace brace, ok_bind]
  dsimp only
  rw [Bool.false_or, Cursor.looksLikeString, within.peek, left, List.head?_cons]
  dsimp only
  by_cases inToken : isDelimiter b = false ∨ b = quote
  · obtain ⟨form, read, found, same⟩ := Cursor.readToken_eq within s.literalChunk left inToken
    rw [if_pos (by simpa using inToken), same]
    exact proceeds_token within found
  rw [if_neg (by simpa using inToken)]
  have bracket (kind : role b = .openBracket ∨ role b = .closeBracket) :
      Proceeds octets (restOfLine s) c p
        (.again <$> takeElement octets s.literalChunk b c p.cursor) :=
    (taken_takeElement within left (by rcases kind with kind | kind <;> simp [kind])
      (by rcases kind with kind | kind <;> simp [kind])).proceeds (onward_restOfLine s)
  cases kind : role b with
  | openBracket | closeBracket =>
    have proceeds := bracket (by simp [kind])
    simp only [takeElement, kind, within.skip_cursor] at proceeds
    rw [within.skip_cursor]
    exact proceeds
  | blank =>
    have lineBreak : b = carriageReturn ∨ b = lineFeed :=
      (role_eq_blank_iff.mp kind).resolve_left notSpace
    dsimp only
    rw [Cursor.skipLineBreaks, Cursor.skipWhile_eq within]
    refine (Taken.passed (within.skip _) ?_
      (skipBlanks_skipWhile (fun b => isBlank_of_lineBreak) p)).proceeds (onward_restOfLine s)
    rw [left, List.takeWhile_cons_of_pos (by simpa using lineBreak), Point.rest_skip, left,
      List.length_drop, List.length_cons, List.length_cons]
    omega
  | closeParen =>
    obtain rfl := role_eq_closeParen_iff.mp kind
    left
    rw [restOfLine, Line.readValues_eq, Lexeme.next_closeParen left,
      Point.skipBlanks_closeParen left]
    rfl
  | openParen => exact absurd (role_eq_openParen_iff.mp kind) opens
  | openBrace => exact absurd (role_eq_openBrace_iff.mp kind) brace
  | quote => exact absurd (.inr (role_eq_quote_iff.mp kind)) inToken
  | plain => exact absurd (.inl (by simp [isDelimiter, kind])) inToken

theorem valuesTurn_proceeds (within : p.Within octets) :
    Proceeds octets (restOfLine s) c p (valuesTurn octets s (c, p.cursor)) := by
  have whole := within.length_eq
  unfold valuesTurn
  dsimp only
  rw [Point.position_cursor]
  by_cases finished : octets.length ≤ p.offset
  · left
    have left : p.rest = [] := List.length_eq_zero_iff.mp (by omega)
    rw [if_pos finished, restOfLine, Line.readValues_eq, Lexeme.next_end left]
    rfl
  have rest := Point.rest_skip_append
    (List.takeWhile_append_dropWhile (p := (· = space)) (l := p.rest)).symm
  have spaces : ∀ b, decide (b = space) = true → isBlank b = true := by simp [isBlank, role]
  have blanks := skipBlanks_skipWhile spaces p
  have next := within.skip (p.rest.takeWhile (· = space)).length
  have fewer : (p.skip (p.rest.takeWhile (· = space)).length).rest.length ≤ p.rest.length := by
    simp
  rw [if_neg finished, Cursor.skipSpaces, Cursor.skipWhile_eq within, ok_bind]
  unfold Proceeds
  rw [← (onward_restOfLine s).blanks blanks]
  generalize p.skip (p.rest.takeWhile (· = space)).length = q at rest next fewer ⊢
  cases left : q.rest with
  | nil =>
    left
    rw [takeValue_end next left, restOfLine, Line.readValues_eq, Lexeme.next_end left]
    rfl
  | cons b later =>
    have notSpace : b ≠ space := by
      have head := List.head?_dropWhile_not (· = space) p.rest
      simpa [← rest, left] using head
    rcases takeValue_proceeds (c := c) (s := s) next left notSpace with
      last | ⟨d, r, onward, reached, shorter, same⟩
    · exact .inl last
    · exact .inr ⟨d, r, onward, reached, by omega, same⟩

def decode (s : Settings) (octets : List UInt8) : Checked (List Value) :=
  match s.maxLineLength.filter (· < octets.length) with
  | some max => fault (.lineTooLong octets.length max)
  | none =>
    iterate octets.length (·.2.position) (valuesTurn octets s) ({ mapsNil := true }, ⟨0, none⟩)

theorem decode_eq {s : Settings} (fits : octets.length ≤ longest) :
    decode s octets = lift (ImapReply.decode s octets) := by
  unfold decode ImapReply.decode
  cases s.maxLineLength.filter (· < octets.length) with
  | some max => rfl
  | none =>
    exact iterate_proceeds (restOfLine s) 0 (p := .start octets)
      (fun within _ => valuesTurn_proceeds within) ⟨Point.line_start octets, fits⟩ (Nat.zero_le 0)

def expand (s : Settings) (v : Value) : Checked Value :=
  match v.text? with
  | none => return v
  | some text =>
    let octets := ofText text
    if octets.head? = some openParen then do
      let values ← decode s octets
      if values.length = 1 then
        let first ← itemAt values 0
        return if first.isList then first else .list values
      else return .list values
    else return v

theorem expand_eq {s : Settings} {v : Value}
    (fits : ∀ text, v.text? = some text → (ofText text).length ≤ longest) :
    expand s v = lift (ImapReply.expand s v) := by
  unfold expand ImapReply.expand
  cases isText : v.text? with
  | none => rfl
  | some text =>
    dsimp only
    by_cases opens : (ofText text).head? = some openParen
    · rw [if_pos opens, if_pos opens, decode_eq (fits text isText)]
      cases ImapReply.decode s (ofText text) with
      | error fault => rfl
      | ok values =>
        rcases values with _ | ⟨_ | _, _ | _⟩ <;> rfl
    · rw [if_neg opens, if_neg opens]
      rfl

end Checked

open Checked

/-- On the machine every line has the values, or the fault, that it has anyway, and every value
expands to what it expands to. No check fails on any line that fits into an array, whatever the
settings are. -/
theorem checked_reading_never_traps (s : Settings) :
    (∀ line : List UInt8, line.length ≤ longest →
      Checked.decode s line = lift (decode s line) ∧
      ∀ found, Checked.decode s line ≠ trap found) ∧
    ∀ v : Value, (∀ text, v.text? = some text → (ofText text).length ≤ longest) →
      Checked.expand s v = lift (expand s v) ∧ ∀ found, Checked.expand s v ≠ trap found := by
  refine ⟨fun line fits => ?_, fun v fits => ?_⟩
  · rw [decode_eq fits]
    exact ⟨rfl, lift_ne_trap _⟩
  · rw [expand_eq fits]
    exact ⟨rfl, lift_ne_trap _⟩

/-- Literals are copied octet by octet and lists may be as deep as numbers reach. The second line
ends behind a backslash, and the literal in the third announces as much as 64 bits can say. -/
theorem checked_reading_never_traps_sample :
    Checked.decode ⟨0, .recursive, none, Literal.maxLength⟩
        (ofText "((a) \x7b3+\x7d))) \"b\\\"\")") =
      .ok [.list [.list [.ofText "a"], .ofText ")))", .ofText "b\""]] ∧
    Checked.decode ⟨0, .verbatim, none, 0⟩ (ofText "((\"\\") = fault (.unterminatedQuoted 2) ∧
    Checked.expand .standard (.ofText "((\x7b18446744073709551615\x7d") =
      fault (.truncatedLiteral 24 Literal.maxLength 0) := by
  have read : decode ⟨0, .recursive, none, Literal.maxLength⟩
      (ofText "((a) \x7b3+\x7d))) \"b\\\"\")") =
      .ok [.list [.list [.ofText "a"], .ofText ")))", .ofText "b\""]] := by
    decide +kernel
  have unread : decode ⟨0, .verbatim, none, 0⟩ (ofText "((\"\\") =
      .error (.unterminatedQuoted 2) := by
    decide +kernel
  have expanded : expand .standard (.ofText "((\x7b18446744073709551615\x7d") =
      .error (.truncatedLiteral 24 Literal.maxLength 0) := by
    decide +kernel
  refine ⟨?_, ?_, ?_⟩
  · rw [((checked_reading_never_traps _).1 _ (by decide +kernel)).1, read, lift_ok]
  · rw [((checked_reading_never_traps _).1 _ (by decide +kernel)).1, unread, lift_error]
  · have fits : ∀ text, (Value.ofText "((\x7b18446744073709551615\x7d").text? = some text →
        (ofText text).length ≤ longest := by
      intro text same
      obtain rfl := Option.some.inj same
      decide +kernel
    rw [((checked_reading_never_traps _).2 _ fits).1, expanded, lift_error]

end ImapReply
