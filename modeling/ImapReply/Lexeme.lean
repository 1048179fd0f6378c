import ImapReply.Literal
import ImapReply.Quoted
import ImapReply.Value

/-! Lexemes: the parts into which a line falls, blanks aside. They are the same inside a list and
outside, and each one is read only when it is asked for. -/
namespace ImapReply

/-- A string in one of its three written forms, with what it stands for. -/
inductive Token where
  | bare (text : String)
  | quoted (text : String)
  | literal (text : String)
deriving DecidableEq, Repr

namespace Token

def text : Token → String
  | .bare text | .quoted text | .literal text => text

/-- Only a bare `NIL` can become the null atom, and only where `mapsNil` says so. -/
def value (mapsNil : Bool) : Token → Value
  | .bare text => if mapsNil ∧ text = "NIL" then .nil else .ofText text
  | .quoted text | .literal text => .ofText text

end Token

/-- What a list is made of apart from other lists. -/
inductive Piece where
  | openBracket
  | closeBracket
  | token (token : Token)
deriving DecidableEq, Repr

inductive Lexeme where
  | openParen
  | closeParen
  | piece (piece : Piece)
deriving DecidableEq, Repr

namespace Lexeme

open Octet

/-- A token with the point after it, as the next lexeme. -/
def asToken (form : String → Token) : Except Fault (String × Point) →
    Except Fault (Option (Lexeme × Point))
  | .error fault => .error fault
  | .ok (text, after) => .ok (some (.piece (.token (form text)), after))

/-- The longest run of octets from the point on that are no delimiters. -/
def word (p : Point) : Except Fault (String × Point) :=
  let octets := p.rest.takeWhile (!isDelimiter ·)
  match Octets.text? octets with
  | none => .error (.invalidText p.offset)
  | some text => .ok (text, p.skip octets.length)

/-- The lexeme that starts right at the point, where no blank stands. -/
def here (chunk : Nat) (p : Point) : Except Fault (Option (Lexeme × Point)) :=
  match p.rest with
  | [] => .ok none
  | b :: _ =>
    match role b with
    | .openParen => .ok (some (.openParen, p.skip 1))
    | .closeParen => .ok (some (.closeParen, p.skip 1))
    | .openBracket => .ok (some (.piece .openBracket, p.skip 1))
    | .closeBracket => .ok (some (.piece .closeBracket, p.skip 1))
    | .quote => asToken .quoted (Quoted.read p)
    | .openBrace => asToken .literal (Literal.read chunk p)
    | .blank | .plain => asToken .bare (word p)

/-- The first lexeme after the blanks at the point, or none at the end of the line. -/
def next (chunk : Nat) (p : Point) : Except Fault (Option (Lexeme × Point)) :=
  here chunk p.skipBlanks

theorem asToken_eq_some_iff {form : String → Token} {read : Except Fault (String × Point)}
    {lexeme : Lexeme} {after : Point} :
    asToken form read = .ok (some (lexeme, after)) ↔
      ∃ text, read = .ok (text, after) ∧ lexeme = .piece (.token (form text)) := by
  unfold asToken
  split
  · simp
  next text later =>
    constructor
    · intro same
      obtain ⟨rfl, rfl⟩ := by simpa using same
      exact ⟨text, rfl, rfl⟩
    · rintro ⟨_, same, rfl⟩
      obtain ⟨rfl, rfl⟩ := by simpa using same
      rfl

theorem asToken_eq_error_iff {form : String → Token} {read : Except Fault (String × Point)}
    {fault : Fault} :
    asToken form read = .error fault ↔ read = .error fault := by
  cases read <;> simp [asToken]

/-- A word that starts with no delimiter is not empty. -/
theorem word_skip {p after : Point} {text : String} {b : UInt8} {later : List UInt8}
    (start : p.rest = b :: later) (inWord : isDelimiter b = false)
    (found : word p = .ok (text, after)) : ∃ n, after = p.skip (n + 1) := by
  have split : p.rest.takeWhile (!isDelimiter ·) = b :: later.takeWhile (!isDelimiter ·) := by
    simp [start, inWord]
  rw [word, split] at found
  split at found
  · contradiction
  · obtain ⟨-, rfl⟩ := Prod.mk.inj (Except.ok.inj found)
    exact ⟨_, rfl⟩

/-- Reading a lexeme moves past at least one octet. -/
theorem here_skip {chunk : Nat} {p after : Point} {lexeme : Lexeme} {b : UInt8}
    {later : List UInt8} (start : p.rest = b :: later) (nonblank : isBlank b = false)
    (found : here chunk p = .ok (some (lexeme, after))) : ∃ n, after = p.skip (n + 1) := by
  simp only [here, start] at found
  split at found
  case h_1 | h_2 | h_3 | h_4 =>
    obtain ⟨-, rfl⟩ := Prod.mk.inj (Option.some.inj (Except.ok.inj found))
    exact ⟨0, rfl⟩
  case h_5 =>
    obtain ⟨_, read, _⟩ := asToken_eq_some_iff.mp found
    exact Quoted.read_skip read
  case h_6 =>
    obtain ⟨_, read, _⟩ := asToken_eq_some_iff.mp found
    exact Literal.read_skip read
  case h_7 blank => simp [isBlank, blank] at nonblank
  case h_8 plain =>
    obtain ⟨_, read, _⟩ := asToken_eq_some_iff.mp found
    exact word_skip start (by simp [isDelimiter, plain]) read

theorem next_skip {chunk : Nat} {p after : Point} {lexeme : Lexeme}
    (found : next chunk p = .ok (some (lexeme, after))) :
    0 < p.skipBlanks.rest.length ∧ ∃ n, after = p.skipBlanks.skip (n + 1) := by
  cases start : p.skipBlanks.rest with
  | nil => simp [next, here, start] at found
  | cons b later =>
    exact ⟨by simp, here_skip start (Point.isBlank_head_skipBlanks start) found⟩

/-- The octet that is a lexeme by itself. -/
def octet? : Lexeme → Option UInt8
  | .openParen => some Octet.openParen
  | .closeParen => some Octet.closeParen
  | .piece .openBracket => some Octet.openBracket
  | .piece .closeBracket => some Octet.closeBracket
  | .piece (.token _) => none

theorem start_of_here {chunk : Nat} {p after : Point} {lexeme : Lexeme} {b : UInt8}
    (single : lexeme.octet? = some b) (found : here chunk p = .ok (some (lexeme, after))) :
    p.rest.head? = some b ∧ after = p.skip 1 := by
  cases start : p.rest with
  | nil => simp [here, start] at found
  | cons c tail =>
    simp only [here, start] at found
    split at found
    case h_1 kind =>
      obtain ⟨rfl, rfl⟩ := by simpa using found
      obtain rfl := role_eq_openParen_iff.mp kind
      exact ⟨single, rfl⟩
    case h_2 kind =>
      obtain ⟨rfl, rfl⟩ := by simpa using found
      obtain rfl := role_eq_closeParen_iff.mp kind
      exact ⟨single, rfl⟩
    case h_3 kind =>
      obtain ⟨rfl, rfl⟩ := by simpa using found
      obtain rfl := role_eq_openBracket_iff.mp kind
      exact ⟨single, rfl⟩
    case h_4 kind =>
      obtain ⟨rfl, rfl⟩ := by simpa using found
      obtain rfl := role_eq_closeBracket_iff.mp kind
      exact ⟨single, rfl⟩
    all_goals
      obtain ⟨text, -, rfl⟩ := asToken_eq_some_iff.mp found
      contradiction

theorem finished_of_here {chunk : Nat} {p : Point} (found : here chunk p = .ok none) :
    p.rest = [] := by
  cases start : p.rest with
  | nil => rfl
  | cons b tail =>
    have unended (form : String → Token) (read : Except Fault (String × Point)) :
        asToken form read ≠ .ok none := by
      cases read <;> simp [asToken]
    simp only [here, start] at found
    split at found <;> simp [unended] at found

theorem after_openParen {chunk : Nat} {p after : Point}
    (found : next chunk p = .ok (some (.openParen, after))) : after = p.skipBlanks.skip 1 :=
  (start_of_here rfl found).2

/-- Every lexeme leaves less of the line, so reading one after another comes to an end. -/
theorem next_shorter {chunk : Nat} {p after : Point} {lexeme : Lexeme}
    (found : next chunk p = .ok (some (lexeme, after))) : after.rest.length < p.rest.length := by
  obtain ⟨left, n, rfl⟩ := next_skip found
  have := p.length_rest_skipBlanks_le
  simp only [Point.rest_skip, List.length_drop]
  omega

end Lexeme

end ImapReply
