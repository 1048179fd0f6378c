import ImapReply.Proofs.Spelling
import ImapReply.Proofs.Walk
import Mathlib.Control.Monad.Basic

/-! Faults tell the truth: what a fault names stands in the line at its position, and its numbers
are those of the line and of the settings. -/
namespace ImapReply

open Octet Octets

/-- The octets of a header in front of its closing brace. -/
def Literal.headerFront (digits : List UInt8) (signed : Bool) : List UInt8 :=
  openBrace :: digits ++ if signed then [plus] else []

/-- What a fault says of a line that is read under these settings. -/
def Fault.Describes (s : Settings) (octets : List UInt8) : Fault → Prop
  | .unterminatedQuoted position => octets[position]? = some quote
  | .unterminatedList position => octets[position]? = some openParen
  | .invalidHeader position reason =>
    (∃ digits signed, (∀ d ∈ digits, isDigit d = true) ∧
      Literal.headerFront digits signed <:+ octets.take position) ∧
    position ≤ octets.length ∧ (position = octets.length ↔ reason = Literal.Flaw.unclosed.reason)
  | .truncatedLiteral position expected available =>
    position + available = octets.length ∧ available < expected ∧
    ∃ digits signed, Literal.IsNumeral digits ∧ Literal.lengthOf digits = expected ∧
      Literal.headerOctets digits signed <:+ octets.take position
  | .invalidText position =>
    ∃ last, position < last ∧ last ≤ octets.length ∧ ¬ IsText ((octets.take last).drop position)
  | .nestingTooDeep position max =>
    s.nesting = .recursive ∧ max = s.maxDepth ∧ octets[position]? = some openParen ∧
    max ≤ (octets.take position).count openParen
  | .unexpected position found => found = ')' ∧ octets[position]? = some closeParen
  | .lineTooLong length max =>
    s.maxLineLength = some max ∧ length = octets.length ∧ max < octets.length

namespace Point

theorem getElem?_offset (p : Point) : p.line[p.offset]? = p.rest.head? := by
  rw [← List.head?_drop, drop_offset_line]

theorem take_offset_line (p : Point) : p.line.take p.offset = p.read.reverse := by
  simp [line, offset]

/-- What has just been passed stands in front of the point. -/
theorem suffix_take_skip {p : Point} {front tail : List UInt8} (start : p.rest = front ++ tail) :
    front <:+ p.line.take (p.offset + front.length) := by
  rw [← offset_skip_append start, ← p.line_skip front.length, take_offset_line, skip, start,
    List.take_left, List.reverse_append, List.reverse_reverse]
  exact List.suffix_append _ _

theorem drop_take_line (p : Point) (n : Nat) :
    (p.line.take (p.offset + n)).drop p.offset = p.rest.take n := by
  rw [List.drop_take, drop_offset_line, Nat.add_sub_cancel_left]

end Point

variable {s : Settings} {p : Point} {fault : Fault}

namespace Fault

theorem describes_invalidText {slice : List UInt8} (within : slice <+: p.rest)
    (unread : text? slice = none) : (invalidText p.offset).Describes s p.line := by
  have notText := not_isText_of_text? unread
  have nonempty : 0 < slice.length := by
    apply List.length_pos_iff.mpr
    rintro rfl
    exact notText (isText_ofText "")
  refine ⟨p.offset + slice.length, by omega, ?_, ?_⟩
  · rw [p.length_line]
    exact Nat.add_le_add_left within.length_le _
  · rwa [p.drop_take_line, ← List.prefix_iff_eq_take.mp within]

theorem describes_invalidHeader {digits tail : List UInt8} {signed : Bool}
    {flaw : Literal.Flaw} {position : Nat}
    (start : p.rest = Literal.headerFront digits signed ++ tail)
    (all : ∀ d ∈ digits, isDigit d = true) (ends : tail = [] ↔ flaw = .unclosed)
    (place : position = p.offset + (Literal.headerFront digits signed).length) :
    (invalidHeader position flaw.reason).Describes s p.line := by
  subst place
  have whole : p.line.length =
      p.offset + (Literal.headerFront digits signed).length + tail.length := by
    rw [p.length_line, start, List.length_append, Nat.add_assoc]
  have told : flaw.reason = Literal.Flaw.unclosed.reason ↔ flaw = .unclosed := by
    cases flaw <;> decide
  refine ⟨⟨digits, signed, all, Point.suffix_take_skip start⟩, by omega, ?_⟩
  rw [told, ← ends, ← List.length_eq_zero_iff]
  omega

end Fault

namespace Literal

theorem length_headerFront (digits : List UInt8) (signed : Bool) :
    (headerFront digits signed).length = 1 + digits.length + if signed then 1 else 0 := by
  cases signed <;> simp [headerFront, Nat.add_comm]

/-- Digits are judged only where the brace that closes the header is there. -/
theorem ofDigits_fault_describes {digits tail : List UInt8} {signed : Bool}
    (rest : p.rest = headerFront digits signed ++ tail) (closed : tail ≠ [])
    (all : ∀ d ∈ digits, isDigit d = true)
    (failed : Header.ofDigits p digits (headerFront digits signed).length = .error fault) :
    fault.Describes s p.line := by
  unfold Header.ofDigits at failed
  split at failed
  · obtain rfl := Except.error.inj failed
    exact Fault.describes_invalidHeader rest all (by simp [closed]) rfl
  split at failed
  · obtain rfl := Except.error.inj failed
    exact Fault.describes_invalidHeader rest all (by simp [closed]) rfl
  · contradiction

theorem header_fault_describes (opens : p.rest.head? = some openBrace)
    (failed : header p = .error fault) : fault.Describes s p.line := by
  obtain ⟨body, start⟩ := List.head?_eq_some_iff.mp opens
  have all : ∀ d ∈ body.takeWhile isDigit, isDigit d = true :=
    fun d member => List.all_eq_true.mp List.all_takeWhile d member
  have cut : body.takeWhile isDigit ++ body.drop (body.takeWhile isDigit).length = body :=
    List.prefix_iff_eq_append.mp (List.takeWhile_prefix isDigit)
  simp only [header, start, List.drop_one, List.tail_cons] at failed
  generalize body.takeWhile isDigit = digits at all cut failed
  have unsigned {tail : List UInt8} (left : body.drop digits.length = tail) :
      p.rest = headerFront digits false ++ tail := by
    rw [start, ← left, ← cut, List.drop_left]
    simp [headerFront]
  have length : 1 + digits.length = (headerFront digits false).length := by
    simp [length_headerFront]
  have place : p.offset + 1 + digits.length = p.offset + (headerFront digits false).length := by
    rw [Nat.add_assoc, length]
  split at failed
  next left =>
    obtain rfl := Except.error.inj failed
    exact Fault.describes_invalidHeader (unsigned left) all (by simp) place
  next b after left =>
    split at failed
    · rw [length] at failed
      exact ofDigits_fault_describes (unsigned left) (List.cons_ne_nil b after) all failed
    split at failed
    next signing =>
      have signed : p.rest = headerFront digits true ++ after := by
        rw [start, ← cut, left, signing.1]
        simp [headerFront]
      have closed : after ≠ [] := by
        rintro rfl
        simp at signing
      have more : 2 + digits.length = (headerFront digits true).length := by
        simp only [length_headerFront, ite_true]
        omega
      rw [more] at failed
      exact ofDigits_fault_describes signed closed all failed
    · obtain rfl := Except.error.inj failed
      have within : b :: after = [] ↔ Flaw.notNumeric = .unclosed := by simp
      exact Fault.describes_invalidHeader (unsigned left) all within place

theorem announced_fault_describes (opens : p.rest.head? = some openBrace)
    (failed : announced p = .error fault) : fault.Describes s p.line := by
  unfold announced at failed
  split at failed
  next other unread =>
    obtain rfl := Except.error.inj failed
    exact header_fault_describes opens unread
  next h found =>
    obtain ⟨digits, signed, tail, start, numeral, -, rfl⟩ := (header_eq_ok_iff opens).mp found
    dsimp only at failed
    split at failed
    next short =>
      obtain rfl := Except.error.inj failed
      have reached := Point.suffix_take_skip start
      have offset := Point.offset_skip_append start
      refine ⟨?_, ?_, digits, signed, numeral, rfl, ?_⟩
      · rw [← Point.length_line, Point.line_skip]
      · rw [List.length_take] at short
        omega
      · rwa [offset]
    · contradiction

theorem read_fault_describes {chunk : Nat} (opens : p.rest.head? = some openBrace)
    (failed : read chunk p = .error fault) : fault.Describes s p.line := by
  unfold read at failed
  split at failed
  next other unread =>
    obtain rfl := Except.error.inj failed
    exact announced_fault_describes opens unread
  next h found =>
    dsimp only at failed
    rw [text?_copy] at failed
    split at failed
    next unread =>
      obtain rfl := Except.error.inj failed
      rw [← p.line_skip h.extent]
      exact Fault.describes_invalidText (List.take_prefix _ _) unread
    · contradiction

theorem extent_fault_describes (opens : p.rest.head? = some openBrace)
    (failed : extent p = .error fault) : fault.Describes s p.line := by
  unfold extent at failed
  split at failed
  next other unread =>
    obtain rfl := Except.error.inj failed
    exact announced_fault_describes opens unread
  · contradiction

end Literal

namespace Quoted

theorem extent_fault_describes (opens : p.rest.head? = some quote)
    (failed : extent p = .error fault) : fault.Describes s p.line := by
  unfold extent at failed
  split at failed
  · obtain rfl := Except.error.inj failed
    exact p.getElem?_offset.trans opens
  · contradiction

theorem read_fault_describes (opens : p.rest.head? = some quote)
    (failed : read p = .error fault) : fault.Describes s p.line := by
  obtain ⟨tail, start⟩ := List.head?_eq_some_iff.mp opens
  unfold read at failed
  split at failed
  · obtain rfl := Except.error.inj failed
    exact p.getElem?_offset.trans opens
  next n closed =>
    split at failed
    next unread =>
      obtain rfl := Except.error.inj failed
      have inside : p.offset + 1 = (p.skip 1).offset := by simp [start]
      rw [inside, ← p.line_skip 1]
      exact Fault.describes_invalidText (List.take_prefix n _) unread
    · contradiction

end Quoted

namespace Lexeme

theorem here_fault_describes {chunk : Nat} (failed : here chunk p = .error fault) :
    fault.Describes s p.line := by
  cases start : p.rest with
  | nil => simp [here, start] at failed
  | cons b tail =>
    have first : p.rest.head? = some b := by rw [start]; rfl
    simp only [here, start] at failed
    split at failed
    case h_5 kind =>
      obtain rfl := role_eq_quote_iff.mp kind
      exact Quoted.read_fault_describes first (asToken_eq_error_iff.mp failed)
    case h_6 kind =>
      obtain rfl := role_eq_openBrace_iff.mp kind
      exact Literal.read_fault_describes first (asToken_eq_error_iff.mp failed)
    case h_7 | h_8 =>
      have unread := asToken_eq_error_iff.mp failed
      unfold word at unread
      dsimp only at unread
      split at unread
      next noText =>
        obtain rfl := Except.error.inj unread
        exact Fault.describes_invalidText (List.takeWhile_prefix _) noText
      · contradiction
    all_goals contradiction

theorem next_fault_describes {chunk : Nat} (failed : next chunk p = .error fault) :
    fault.Describes s p.line := by
  rw [← p.line_skipBlanks]
  exact here_fault_describes failed

end Lexeme

theorem Halts.fault_describes {chunk : Nat} {list : ListReader}
    (halts : Halts chunk list p (.broken fault))
    (lists : p.skipBlanks.rest.head? = some openParen → list p.skipBlanks = .error fault →
      fault.Describes s p.line) : fault.Describes s p.line := by
  cases halts with
  | lexeme failed => exact Lexeme.next_fault_describes failed
  | list found failed => exact lists (Lexeme.start_of_here rfl found).1 failed

namespace VerbatimList

theorem closeAfter_fault_describes {depth passed : Nat}
    (failed : closeAfter depth passed p = .error fault) : fault.Describes s p.line := by
  fun_induction closeAfter depth passed p with
  | case1 => contradiction
  | case2 depth passed p b tail start other unread =>
    obtain rfl := Except.error.inj failed
    have first : p.rest.head? = some b := by rw [start]; rfl
    unfold stride at unread
    split at unread
    next kind =>
      obtain rfl := role_eq_quote_iff.mp kind
      exact Quoted.extent_fault_describes first unread
    next kind =>
      obtain rfl := role_eq_openBrace_iff.mp kind
      split at unread
      · exact Literal.extent_fault_describes first unread
      · contradiction
    · contradiction
  | case3 => contradiction
  | case4 depth passed p b tail start n taken deeper counted ih =>
    rw [← p.line_skip n]
    exact ih failed

theorem kept_fault_describes {opening : Point} (opens : opening.rest.head? = some openParen)
    (same : opening.line = p.line) (failed : ListReader.kept opening p = .error fault) :
    fault.Describes s p.line := by
  have unread := ListReader.form_eq_error_iff.mp failed
  unfold inner at unread
  split at unread
  next other stuck =>
    obtain rfl := Except.error.inj unread
    rw [← p.line_skip 1]
    exact closeAfter_fault_describes stuck
  · obtain rfl := Except.error.inj unread
    rw [← same]
    exact opening.getElem?_offset.trans opens
  · split at unread
    next noText =>
      obtain rfl := Except.error.inj unread
      exact Fault.describes_invalidText (List.take_prefix _ _) noText
    · contradiction

theorem read_fault_describes {chunk : Nat} (opens : p.rest.head? = some openParen)
    (failed : read chunk p = .error fault) : fault.Describes s p.line := by
  obtain ⟨d, q, halt, walk, halts, same⟩ :=
    (loop_readItems chunk p).exists_walk { mapsNil := false } (p.skip 1)
  have reached := (p.reaches_skip 1).trans (walk.reaches (advancing_kept p))
  rw [read, same] at failed
  cases halt with
  | closing after => contradiction
  | finished =>
    obtain rfl := Except.error.inj failed
    exact p.getElem?_offset.trans opens
  | broken other =>
    obtain rfl := Except.error.inj failed
    rw [← reached.line]
    refine halts.fault_describes fun _ unread => ?_
    rw [← q.line_skipBlanks]
    exact kept_fault_describes opens (by rw [q.line_skipBlanks, reached.line]) unread

end VerbatimList

namespace RecursiveList

/-- Every list that has been opened around the point takes one level of the room. -/
theorem read_fault_describes (recursive : s.nesting = .recursive) {room : Nat}
    (opens : p.rest.head? = some openParen)
    (spent : s.maxDepth ≤ room + p.read.count openParen)
    (failed : read s room p = .error fault) : fault.Describes s p.line := by
  induction room generalizing p with
  | zero =>
    obtain rfl := Except.error.inj failed
    refine ⟨recursive, rfl, p.getElem?_offset.trans opens, ?_⟩
    rw [p.take_offset_line, List.count_reverse]
    omega
  | succ room ih =>
    obtain ⟨d, q, halt, walk, halts, same⟩ :=
      (loop_readItems s room p).exists_walk { mapsNil := true } (p.skip 1)
    have onward := walk.reaches (advancing_nested s room)
    have reached := (p.reaches_skip 1).trans onward
    rw [read, same] at failed
    cases halt with
    | closing after => contradiction
    | finished =>
      obtain rfl := Except.error.inj failed
      exact p.getElem?_offset.trans opens
    | broken other =>
      obtain rfl := Except.error.inj failed
      rw [← reached.line]
      refine halts.fault_describes fun within unread => ?_
      rw [← q.line_skipBlanks]
      refine ih within ?_ (ListReader.form_eq_error_iff.mp unread)
      have deeper := (onward.trans q.reaches_skipBlanks).read_suffix.sublist.count_le openParen
      obtain ⟨tail, start⟩ := List.head?_eq_some_iff.mp opens
      have passed : (p.skip 1).read = openParen :: p.read := by simp [Point.skip, start]
      rw [passed, List.count_cons_self] at deeper
      omega

end RecursiveList

namespace Line

theorem readValues_fault_describes {c : Collector}
    (failed : readValues s c p = .error fault) : fault.Describes s p.line := by
  obtain ⟨d, q, halt, walk, halts, same⟩ := (loop_readValues s).exists_walk c p
  have reached := (walk.reaches (advancing_outermost s)).line
  rw [same] at failed
  rw [← reached]
  cases halts with
  | finished => contradiction
  | closing found =>
    obtain rfl := Except.error.inj failed
    rw [← q.line_skipBlanks]
    exact ⟨rfl, q.skipBlanks.getElem?_offset.trans (Lexeme.start_of_here rfl found).1⟩
  | lexeme unread =>
    obtain rfl := Except.error.inj failed
    exact Lexeme.next_fault_describes unread
  | list found unread =>
    obtain rfl := Except.error.inj failed
    have opens := (Lexeme.start_of_here rfl found).1
    have list := ListReader.form_eq_error_iff.mp unread
    rw [← q.line_skipBlanks]
    unfold readList at list
    split at list
    · exact VerbatimList.read_fault_describes opens list
    next recursive =>
      exact RecursiveList.read_fault_describes recursive opens (Nat.le_add_right _ _) list

end Line

theorem Fault.Describes.position_le {octets : List UInt8} (described : fault.Describes s octets) :
    fault.position ≤ octets.length := by
  have within {position : Nat} {b : UInt8} (here : octets[position]? = some b) :
      position ≤ octets.length := Nat.le_of_lt (List.getElem?_eq_some_iff.mp here).1
  cases fault with
  | unterminatedQuoted | unterminatedList => exact within described
  | unexpected => exact within described.2
  | nestingTooDeep => exact within described.2.2.1
  | invalidHeader => exact described.2.1
  | truncatedLiteral position expected available => exact described.1 ▸ Nat.le_add_right _ _
  | invalidText position =>
    rcases described with ⟨last, before, inside, -⟩
    exact Nat.le_trans (Nat.le_of_lt before) inside
  | lineTooLong => exact Nat.zero_le _

/-- A line is too long exactly when it exceeds the limit, and every fault, whatever its cause, is
described by the line and lies inside it. -/
theorem decode_fault_describes (s : Settings) (line : List UInt8) :
    (∀ length max, decode s line = .error (.lineTooLong length max) ↔
      s.maxLineLength = some max ∧ length = line.length ∧ max < line.length) ∧
    ∀ fault, decode s line = .error fault →
      fault.Describes s line ∧ fault.position ≤ line.length := by
  have describes (fault : Fault) (failed : decode s line = .error fault) :
      fault.Describes s line := by
    unfold decode at failed
    split at failed
    next max long =>
      obtain rfl := Except.error.inj failed
      obtain ⟨limit, exceeded⟩ := Option.filter_eq_some_iff.mp long
      exact ⟨limit, rfl, by simpa using exceeded⟩
    · exact Line.readValues_fault_describes failed
  constructor
  · intro length max
    constructor
    · intro failed
      obtain ⟨limit, rfl, exceeded⟩ := describes _ failed
      exact ⟨limit, rfl, exceeded⟩
    · rintro ⟨limit, rfl, exceeded⟩
      have long : s.maxLineLength.filter (· < line.length) = some max :=
        Option.filter_eq_some_iff.mpr ⟨limit, by simpa using exceeded⟩
      simp only [decode, long]
  · intro fault failed
    exact ⟨describes fault failed, (describes fault failed).position_le⟩

/-- The second parenthesis is one too many, and the quote before it hides no parenthesis. -/
theorem decode_fault_describes_sample :
    decode ⟨8, .recursive, none, 1⟩ (ofText "\"(\" (a (b") = .error (.nestingTooDeep 7 1) ∧
    (Fault.nestingTooDeep 7 1).Describes ⟨8, .recursive, none, 1⟩ (ofText "\"(\" (a (b") := by
  have failed : decode ⟨8, .recursive, none, 1⟩ (ofText "\"(\" (a (b") =
      .error (.nestingTooDeep 7 1) := by
    decide +kernel
  exact ⟨failed, ((decode_fault_describes _ _).2 _ failed).1⟩

end ImapReply
