import ImapReply.Proofs.Exchange
import ImapReply.Proofs.Nestings
import ImapReply.Proofs.Orderly
import ImapReply.Proofs.Weight

/-! In a line that is text only the end of a literal can fall inside a character. All that is read
of it begins and ends between characters: words at delimiters, strings at their quotes and kept
lists at their parentheses. What a scan over a kept list jumps to may lie inside a character, but
no parenthesis does. -/
namespace ImapReply

open Octet Octets

/-- In front of the position stands a header whose payload ends inside a character of the text. -/
def CutsCharacter (text : String) (position : Nat) : Prop :=
  ∃ digits signed, Literal.IsNumeral digits ∧
    Literal.headerOctets digits signed <:+ (ofText text).take position ∧
    position + Literal.lengthOf digits ≤ (ofText text).length ∧
    ¬ (String.Pos.Raw.mk (position + Literal.lengthOf digits)).IsValid text

theorem CutsCharacter.mem {text : String} {position : Nat} (cuts : CutsCharacter text position) :
    openBrace ∈ ofText text := by
  obtain ⟨digits, signed, -, behind, -, -⟩ := cuts
  exact List.mem_of_mem_take (behind.subset List.mem_cons_self)

/-- Between two characters the text falls into two texts. -/
theorem Octets.isText_of_isValid {text : String} {n : Nat}
    (valid : (String.Pos.Raw.mk n).IsValid text) : IsText ((ofText text).take n) := by
  obtain ⟨front, tail, rfl, place⟩ := String.Pos.Raw.isValid_iff_exists_append.mp valid
  have length : n = (ofText front).length := by
    have bytes := congrArg String.Pos.Raw.byteIdx place
    simpa [ofText] using bytes
  rw [ofText_append, length, List.take_left]
  exact isText_ofText front

namespace Point

/-- What lies in front of the point is text. -/
def Clean (p : Point) : Prop := IsText p.read.reverse

variable {p : Point} {text : String}

theorem clean_start (line : List UInt8) : (start line).Clean := isText_ofText ""

theorem read_skip_append {front tail : List UInt8} (start : p.rest = front ++ tail) :
    (p.skip front.length).read.reverse = p.read.reverse ++ front := by
  rw [skip, start, List.take_left, List.reverse_append, List.reverse_reverse]

theorem Clean.skip (clean : p.Clean) {front tail : List UInt8} (start : p.rest = front ++ tail)
    (isText : IsText front) : (p.skip front.length).Clean := by
  rw [Clean, read_skip_append start]
  exact clean.append isText

theorem Clean.skip_one (clean : p.Clean) {b : UInt8} (first : p.rest.head? = some b)
    (ascii : b.toNat < 128) : (p.skip 1).Clean := by
  obtain ⟨tail, start⟩ := List.head?_eq_some_iff.mp first
  have front : p.rest = [b] ++ tail := start
  exact clean.skip front (isText_ascii fun c member => List.mem_singleton.mp member ▸ ascii)

theorem Clean.skipBlanks (clean : p.Clean) : p.skipBlanks.Clean := by
  refine clean.skip List.takeWhile_append_dropWhile.symm (isText_ascii fun b member => ?_)
  have blank := List.all_eq_true.mp List.all_takeWhile b member
  exact ascii_of_isDelimiter (isDelimiter_of_isBlank blank)

theorem take_line (p : Point) (n : Nat) :
    p.line.take (p.offset + n) = p.read.reverse ++ p.rest.take n := by
  simp [line, offset, List.take_append, List.take_of_length_le]

/-- The rest of a text is text. -/
theorem Clean.rest (clean : p.Clean) (whole : p.line = ofText text) : IsText p.rest := by
  obtain ⟨front, same⟩ := clean
  have line : IsText (ofText front ++ p.rest) := ⟨text, by rw [same, ← whole, Point.line]⟩
  exact line.of_text_append

end Point

variable {text : String} {p : Point} {position : Nat}

namespace Literal

theorem header_fault {fault : Fault} (failed : header p = .error fault) :
    ∃ position reason, fault = .invalidHeader position reason := by
  have judged {digits : List UInt8} {close : Nat}
      (refused : Header.ofDigits p digits close = .error fault) :
      ∃ position reason, fault = .invalidHeader position reason := by
    unfold Header.ofDigits at refused
    split at refused
    · exact ⟨_, _, (Except.error.inj refused).symm⟩
    split at refused
    · exact ⟨_, _, (Except.error.inj refused).symm⟩
    · contradiction
  dsimp only [header] at failed
  split at failed
  · exact ⟨_, _, (Except.error.inj failed).symm⟩
  · split at failed
    · exact judged failed
    split at failed
    · exact judged failed
    · exact ⟨_, _, (Except.error.inj failed).symm⟩

/-- A literal is announced or not whatever its payload holds. -/
theorem announced_ne_invalidText (p : Point) (position : Nat) :
    announced p ≠ .error (.invalidText position) := by
  intro failed
  unfold announced at failed
  split at failed
  next other unread =>
    obtain ⟨_, _, rfl⟩ := header_fault unread
    simp at failed
  next h found =>
    dsimp only at failed
    split at failed <;> simp at failed

theorem extent_ne_invalidText (p : Point) (position : Nat) :
    extent p ≠ .error (.invalidText position) := by
  intro failed
  unfold extent at failed
  split at failed
  next other unread =>
    obtain rfl := Except.error.inj failed
    exact announced_ne_invalidText p position unread
  · contradiction

theorem read_cuts {chunk : Nat} (clean : p.Clean) (whole : p.line = ofText text)
    (opens : p.rest.head? = some openBrace)
    (failed : read chunk p = .error (.invalidText position)) : CutsCharacter text position := by
  unfold read at failed
  split at failed
  next other unread =>
    obtain rfl := Except.error.inj failed
    exact absurd unread (announced_ne_invalidText p position)
  next h found =>
    obtain ⟨isHeader, within⟩ := announced_eq_ok_iff.mp found
    obtain ⟨digits, signed, tail, start, numeral, fits, rfl⟩ := (header_eq_ok_iff opens).mp isHeader
    dsimp only at failed within
    rw [text?_copy] at failed
    split at failed
    next unread =>
      obtain rfl := Fault.invalidText.inj (Except.error.inj failed)
      have reached := p.line_skip (headerOctets digits signed).length
      have behind := Point.suffix_take_skip start
      rw [← Point.offset_skip_append start, whole] at behind
      rw [whole] at reached
      obtain ⟨front, before⟩ := clean.skip start (isText_headerOctets numeral signed)
      generalize p.skip (headerOctets digits signed).length = payload at *
      refine ⟨digits, signed, numeral, behind, ?_, fun valid => ?_⟩
      · rw [← reached, payload.length_line]
        exact Nat.add_le_add_left within _
      · -- Were the end between two characters, the payload would be text.
        have ends := isText_of_isValid valid
        rw [← reached, payload.take_line, ← before] at ends
        exact not_isText_of_text? unread ends.of_text_append
    · contradiction

end Literal

theorem Quoted.read_ne_invalidText (rest : IsText p.rest) (opens : p.rest.head? = some quote) :
    read p ≠ .error (.invalidText position) := by
  intro failed
  obtain ⟨body, start⟩ := List.head?_eq_some_iff.mp opens
  have after : p.rest.drop 1 = body := by rw [start, List.drop_one, List.tail_cons]
  unfold read at failed
  rw [after] at failed
  split at failed
  · simp at failed
  next n closed =>
    obtain ⟨content, tail, rfl, valid, rfl⟩ := contentLength_eq_some_iff.mp closed
    rw [start, ← List.cons_append] at rest
    obtain ⟨raw, same⟩ := (rest.split (by decide)).1.of_cons (by decide)
    rw [List.take_left, ← same, text?_ofText] at failed
    contradiction

namespace Lexeme

variable {chunk : Nat}

theorem next_clean {lexeme : Lexeme} {after : Point} (clean : p.Clean)
    (found : next chunk p = .ok (some (lexeme, after))) : after.Clean := by
  obtain ⟨octets, tail, start, spelled, -, rfl⟩ := next_eq_some_iff.mp found
  refine clean.skipBlanks.skip start ?_
  cases spelled with
  | token spelled => exact spelled.isText
  | @single _ b single =>
    refine isText_ascii fun c member => ?_
    obtain rfl := List.mem_singleton.mp member
    rcases lexeme with _ | _ | ⟨_ | _ | token⟩
    · exact Option.some.inj single ▸ by decide
    · exact Option.some.inj single ▸ by decide
    · exact Option.some.inj single ▸ by decide
    · exact Option.some.inj single ▸ by decide
    · contradiction

theorem next_cuts (clean : p.Clean) (whole : p.line = ofText text)
    (failed : next chunk p = .error (.invalidText position)) : CutsCharacter text position := by
  have clean := clean.skipBlanks
  rw [← p.line_skipBlanks] at whole
  rw [next] at failed
  generalize p.skipBlanks = p at clean whole failed
  have rest := clean.rest whole
  cases start : p.rest with
  | nil => simp [here, start] at failed
  | cons b later =>
    have first : p.rest.head? = some b := by rw [start]; rfl
    simp only [here, start] at failed
    split at failed
    case h_5 kind =>
      obtain rfl := role_eq_quote_iff.mp kind
      exact absurd (asToken_eq_error_iff.mp failed) (Quoted.read_ne_invalidText rest first)
    case h_6 kind =>
      obtain rfl := role_eq_openBrace_iff.mp kind
      exact Literal.read_cuts clean whole first (asToken_eq_error_iff.mp failed)
    case h_7 | h_8 => exact absurd (asToken_eq_error_iff.mp failed) (word_ne_error rest _)
    all_goals contradiction

end Lexeme

/-- Lists are read from one place between characters to the next, or are at fault for a literal that
cuts one. -/
structure ListReader.Severs (text : String) (list : ListReader) : Prop where
  clean : ∀ {p after : Point} {v : Value}, p.rest.head? = some openParen → p.Clean →
    list p = .ok (v, after) → after.Clean
  cuts : ∀ {p : Point} {position : Nat}, p.rest.head? = some openParen → p.Clean →
    p.line = ofText text → list p = .error (.invalidText position) → CutsCharacter text position

section Walk

variable {chunk : Nat} {list : ListReader} {c d : Collector} {q : Point}
  (severs : list.Severs text)
include severs

theorem Step.clean (step : Step chunk list c p d q) (clean : p.Clean) : q.Clean := by
  cases step with
  | piece found => exact Lexeme.next_clean clean found
  | list found read =>
    exact severs.clean (Lexeme.start_of_here rfl found).1 clean.skipBlanks read

theorem Walk.clean (walk : Walk chunk list c p d q) (clean : p.Clean) : q.Clean :=
  walk.invariant (P := fun _ q => q.Clean) (fun step => step.clean severs) clean

theorem Halts.cuts (halts : Halts chunk list p (.broken (.invalidText position)))
    (clean : p.Clean) (whole : p.line = ofText text) : CutsCharacter text position := by
  cases halts with
  | lexeme failed => exact Lexeme.next_cuts clean whole failed
  | list found failed =>
    have opens := (Lexeme.start_of_here rfl found).1
    exact severs.cuts opens clean.skipBlanks (p.line_skipBlanks.trans whole) failed

variable {opening after : Point} {items : List Value}
  {readItems : Collector → Point → Except Fault (List Value × Point)}

theorem Loop.clean (loop : Loop chunk list (fun _ => endOfList opening) readItems)
    (clean : p.Clean) (read : readItems c p = .ok (items, after)) : after.Clean := by
  obtain ⟨d, q, walk, closing, -⟩ := loop.eq_ok_iff.mp read
  exact Lexeme.next_clean (walk.clean severs clean) closing

theorem Loop.cuts (loop : Loop chunk list (fun _ => endOfList opening) readItems)
    (advancing : list.Advancing) (clean : p.Clean) (whole : p.line = ofText text)
    (failed : readItems c p = .error (.invalidText position)) : CutsCharacter text position := by
  obtain ⟨d, q, halt, walk, halts, same⟩ := loop.exists_walk c p
  rw [same] at failed
  cases halt with
  | finished | closing => simp [endOfList] at failed
  | broken fault =>
    obtain rfl := Except.error.inj failed
    exact halts.cuts severs (walk.clean severs clean) ((walk.reaches advancing).line.trans whole)

end Walk

namespace VerbatimList

theorem stride_ne_invalidText (p : Point) (b : UInt8) :
    stride p b ≠ .error (.invalidText position) := by
  intro failed
  unfold stride at failed
  split at failed
  · unfold Quoted.extent at failed
    split at failed <;> simp at failed
  · split at failed
    · exact Literal.extent_ne_invalidText p position failed
    · contradiction
  · contradiction

theorem closeAfter_ne_invalidText (depth passed : Nat) (p : Point) :
    closeAfter depth passed p ≠ .error (.invalidText position) := by
  intro failed
  fun_induction closeAfter depth passed p with
  | case1 | case3 => contradiction
  | case2 depth passed p b tail start fault unread =>
    obtain rfl := Except.error.inj failed
    exact stride_ne_invalidText p b unread
  | case4 depth passed p b tail start n taken deeper counted ih => exact ih failed

theorem severs_kept (text : String) (opening : Point) :
    (ListReader.kept opening).Severs text where
  clean := by
    intro p after v opens clean read
    obtain ⟨kept, found, -⟩ := ListReader.form_eq_ok_iff.mp read
    obtain ⟨n, closed, isText, rfl⟩ := inner_eq_ok_iff.mp found
    obtain ⟨tail, start⟩ := List.head?_eq_some_iff.mp opens
    obtain ⟨inside, later, whole, rfl⟩ := enclosed_of_closeAfter start closed
    rw [whole, List.take_left] at isText
    exact clean.skip whole ⟨kept, (text?_eq_some_iff.mp isText).symm⟩
  cuts := by
    intro p position opens clean whole failed
    obtain ⟨tail, start⟩ := List.head?_eq_some_iff.mp opens
    rcases inner_fault (clean.rest whole) start (ListReader.form_eq_error_iff.mp failed) with
      unread | ⟨-, same⟩
    · exact absurd unread (closeAfter_ne_invalidText 0 1 _)
    · contradiction

end VerbatimList

theorem RecursiveList.severs_nested (text : String) (s : Settings) (room : Nat) :
    (ListReader.nested s room).Severs text := by
  induction room with
  | zero =>
    constructor
    · intro p after v _ _ read
      obtain ⟨items, list, -⟩ := ListReader.form_eq_ok_iff.mp read
      contradiction
    · intro p position _ _ _ failed
      exact absurd (ListReader.form_eq_error_iff.mp failed) (by simp [read])
  | succ room ih =>
    have loop (p : Point) := loop_readItems s room p
    constructor
    · intro p after v opens clean read
      obtain ⟨items, list, -⟩ := ListReader.form_eq_ok_iff.mp read
      exact (loop p).clean ih (clean.skip_one opens (by decide)) list
    · intro p position opens clean whole failed
      exact (loop p).cuts ih (advancing_nested s room) (clean.skip_one opens (by decide))
        ((p.line_skip 1).trans whole) (ListReader.form_eq_error_iff.mp failed)

theorem Line.severs_outermost (text : String) (s : Settings) :
    (ListReader.outermost s).Severs text := by
  cases nesting : s.nesting with
  | recursive =>
    have same : ListReader.outermost s = ListReader.nested s s.maxDepth := by
      funext p
      simp only [ListReader.outermost, ListReader.nested, readList, nesting]
    exact same ▸ RecursiveList.severs_nested text s s.maxDepth
  | verbatim =>
    have loop (p : Point) := VerbatimList.loop_readItems s.literalChunk p
    have kept (p : Point) := VerbatimList.severs_kept text p
    constructor
    · intro p after v opens clean read
      obtain ⟨items, list, -⟩ := ListReader.form_eq_ok_iff.mp read
      simp only [readList, nesting] at list
      exact (loop p).clean (kept p) (clean.skip_one opens (by decide)) list
    · intro p position opens clean whole failed
      have list := ListReader.form_eq_error_iff.mp failed
      simp only [readList, nesting] at list
      exact (loop p).cuts (kept p) (VerbatimList.advancing_kept p)
        (clean.skip_one opens (by decide)) ((p.line_skip 1).trans whole) list

section Decoded

variable {s : Settings}

theorem decode_cuts (failed : decode s (ofText text) = .error (.invalidText position)) :
    CutsCharacter text position := by
  unfold decode at failed
  split at failed
  · simp at failed
  have severs := Line.severs_outermost text s
  obtain ⟨d, q, halt, walk, halts, same⟩ :=
    (Line.loop_readValues s).exists_walk { mapsNil := true } (.start (ofText text))
  rw [same] at failed
  cases halt with
  | finished | closing => simp [endOfLine] at failed
  | broken fault =>
    obtain rfl := Except.error.inj failed
    exact halts.cuts severs (walk.clean severs (Point.clean_start _))
      (walk.reaches (Line.advancing_outermost s)).line

/-- A line that is text has octets in it that are none only where a literal ends inside a character.
Without a brace it has no literal, and what is expanded is always text. -/
theorem invalidText_only_in_cut_literals (s : Settings) :
    (∀ text position, decode s (ofText text) = .error (.invalidText position) →
      CutsCharacter text position) ∧
    (∀ text, openBrace ∉ ofText text → ∀ position,
      decode s (ofText text) ≠ .error (.invalidText position)) ∧
    ∀ v position, expand s v = .error (.invalidText position) →
      ∃ text isNull, v = .atom text isNull ∧ CutsCharacter text position := by
  refine ⟨fun text position => decode_cuts, fun text braceless position failed => ?_,
    fun v position failed => ?_⟩
  · exact braceless (decode_cuts failed).mem
  · cases v with
    | list items => contradiction
    | atom text isNull =>
      exact ⟨text, isNull, rfl, decode_cuts (decode_of_expand_failed failed)⟩

/-- The fourth octet of the payload is the first of two. A backslash may stand in front of such a
character, and what it keeps is then only the first octet. -/
theorem invalidText_only_in_cut_literals_sample :
    CutsCharacter "(b) \x7b4\x7daéü" 7 ∧
    decode .standard (ofText "((\"\\é\" ü)") ≠ .error (.invalidText 1) ∧
    ∃ text isNull, Value.ofText "(a \x7b1+\x7dé)" = .atom text isNull ∧ CutsCharacter text 7 := by
  obtain ⟨decoded, braceless, expanded⟩ := invalidText_only_in_cut_literals .standard
  have cut : decode .standard (ofText "(b) \x7b4\x7daéü") = .error (.invalidText 7) := by
    decide +kernel
  have again : expand .standard (.ofText "(a \x7b1+\x7dé)") = .error (.invalidText 7) := by
    decide +kernel
  exact ⟨decoded _ _ cut, braceless _ (by decide +kernel) 1, expanded _ _ again⟩

end Decoded

end ImapReply
