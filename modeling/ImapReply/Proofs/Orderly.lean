import ImapReply.Proofs.Layout

/-! Lines in which nothing is joined and no brace stands inside a word. What recursive reading
accepts of such a line is laid out as elements, so that a scan over it stays in step. -/
namespace ImapReply

open Octet Octets

/-- Every opening brace stands where a token may start, so each announces a literal or lies inside
a string, and nothing is joined by brackets. -/
structure Orderly (octets : List UInt8) : Prop where
  unbracketed : openBracket ∉ octets ∧ closeBracket ∉ octets
  announced : ∀ i < octets.length, octets[i]? = some openBrace →
    i = 0 ∨ octets[i - 1]? = some space ∨ octets[i - 1]? = some openParen

namespace Element

mutual
/-- What recursive reading makes of an element. -/
def value : Element → Value
  | .token t => t.value true
  | .list _ items => .list (values items)
def values : List Element → List Value
  | [] => []
  | item :: later => item.value :: values later
end

end Element

theorem Literal.isText_headerOctets {digits : List UInt8} (numeral : IsNumeral digits)
    (signed : Bool) : IsText (headerOctets digits signed) :=
  isText_ascii (ascii_headerOctets numeral signed)

theorem Token.Spelled.isText {octets : List UInt8} {token : Token}
    (spelled : token.Spelled octets) : IsText octets := by
  have mark : IsText [quote] := isText_ofText "\""
  cases spelled with
  | bare word => exact isText_ofText _
  | quoted content => exact (mark.append (isText_ofText _)).append mark
  | literal signed numeral _ _ =>
    exact (Literal.isText_headerOctets numeral signed).append (isText_ofText _)

/-- Octets between characters below 128 are text, so the text of an inner list can be taken out. -/
theorem Layout.isText {behind : Option UInt8} {octets : List UInt8} {items : List Element}
    (layout : Layout behind octets items) : IsText octets := by
  induction layout with
  | done => exact isText_ofText ""
  | @blank behind b rest items blank _ ih =>
    have ascii : IsText [b] := by
      apply isText_ascii
      intro c member
      rw [List.mem_singleton.mp member]
      have kind : role b = .blank := by simpa [isBlank] using blank
      rcases role_eq_blank_iff.mp kind with rfl | rfl | rfl <;> decide
    exact ascii.append ih
  | token spelled _ _ _ ih => exact spelled.isText.append ih
  | list _ _ _ _ ih => exact (isText_ofText _).append ih

namespace Point

theorem behind_eq (p : Point) (moved : 0 < p.offset) : p.behind = p.line[p.offset - 1]? := by
  rcases p with ⟨_ | ⟨b, read⟩, rest⟩
  · simp [offset] at moved
  · simp [behind, line, offset]

theorem announcing_of_orderly {p : Point} (orderly : Orderly p.line) {tail : List UInt8}
    (start : p.rest = openBrace :: tail) : Announcing p.behind := by
  have brace : p.line[p.offset]? = some openBrace := by simp [line, offset, start]
  have inside : p.offset < p.line.length := by simp [length_line, start]
  rcases orderly.announced _ inside brace with first | apart
  · left
    have unread : p.read = [] := List.length_eq_zero_iff.mp first
    rw [behind, unread]
    rfl
  · by_cases moved : 0 < p.offset
    · rw [behind_eq p moved]
      exact .inr apart
    · left
      have unread : p.read = [] := List.length_eq_zero_iff.mp (by simpa [offset] using moved)
      rw [behind, unread]
      rfl

end Point

namespace Lexeme

/-- A piece of an orderly line is a token that the scan for kept text passes over as a whole. -/
theorem token_of_next {chunk : Nat} {p after : Point} {piece : Piece} (orderly : Orderly p.line)
    (found : next chunk p = .ok (some (.piece piece, after))) :
    ∃ token octets tail, piece = .token token ∧ p.skipBlanks.rest = octets ++ tail ∧
      token.Spelled octets ∧ token.Ends tail ∧ token.Placed p.skipBlanks.behind ∧
      after = p.skipBlanks.skip octets.length := by
  rw [← Point.line_skipBlanks] at orderly
  have present {b : UInt8} (first : p.skipBlanks.rest.head? = some b) : b ∈ p.skipBlanks.line := by
    rw [Point.line]
    exact List.mem_append_right _ (List.mem_of_head? first)
  cases piece with
  | openBracket =>
    obtain ⟨first, -⟩ := start_of_here rfl found
    exact absurd (present first) orderly.unbracketed.1
  | closeBracket =>
    obtain ⟨first, -⟩ := start_of_here rfl found
    exact absurd (present first) orderly.unbracketed.2
  | token token =>
    obtain ⟨octets, tail, start, spelled, ends, moved⟩ :=
      spelled_of_here p.nonblank_skipBlanks found
    refine ⟨token, octets, tail, rfl, start, spelled, ends, ?_, moved⟩
    cases spelled with
    | bare | quoted => trivial
    | literal => exact Point.announcing_of_orderly orderly start

end Lexeme

/-- From one point to another there are elements, and these are their values. -/
def LaidOut (p : Point) (values : List Value) (q : Point) : Prop :=
  ∃ octets elements, Layout p.behind octets elements ∧ values = Element.values elements ∧
    p.rest = octets ++ q.rest ∧ q = p.skip octets.length

namespace LaidOut

variable {p q : Point} {values : List Value}

theorem line (laidOut : LaidOut p values q) : q.line = p.line := by
  rcases laidOut with ⟨octets, elements, layout, same, start, rfl⟩
  exact p.line_skip octets.length

theorem done (p : Point) : LaidOut p [] p := by
  refine ⟨[], [], .done, rfl, rfl, ?_⟩
  simp [Point.skip]

theorem blank {b : UInt8} {tail : List UInt8} (start : p.rest = b :: tail)
    (blank : isBlank b = true) (onward : LaidOut (p.skip 1) values q) : LaidOut p values q := by
  rcases onward with ⟨octets, elements, layout, rfl, next, rfl⟩
  rw [Point.behind_skip_one start] at layout
  rw [Point.rest_skip_one start] at next
  refine ⟨b :: octets, elements, .blank blank layout, rfl, ?_, ?_⟩
  · rw [start, next, List.cons_append]
  · rw [Point.skip_skip, List.length_cons, Nat.add_comm]

theorem skipBlanks (onward : LaidOut p.skipBlanks values q) : LaidOut p values q := by
  induction length : p.rest.length generalizing p with
  | zero =>
    have finished : p.rest = [] := List.length_eq_zero_iff.mp length
    rwa [Point.skipBlanks_of_nonblank (by simp [finished])] at onward
  | succ n ih =>
    obtain ⟨b, tail, start⟩ := List.exists_cons_of_length_eq_add_one length
    by_cases isBlank : isBlank b = true
    · rw [Point.skipBlanks_of_blank start isBlank] at onward
      exact .blank start isBlank (ih onward (by simp [length]))
    · rwa [Point.skipBlanks_of_cons start (Bool.eq_false_iff.mpr isBlank)] at onward

theorem token {octets tail : List UInt8} {token : Token} (start : p.rest = octets ++ tail)
    (spelled : token.Spelled octets) (ends : token.Ends tail) (placed : token.Placed p.behind)
    (onward : LaidOut (p.skip octets.length) values q) :
    LaidOut p (token.value true :: values) q := by
  rcases onward with ⟨more, elements, layout, rfl, next, rfl⟩
  rw [Point.behind_skip start spelled.ne_nil] at layout
  rw [Point.rest_skip_append start] at next
  have stops : token.Ends more := Token.Ends.of_append (next ▸ ends)
  refine ⟨octets ++ more, .token token :: elements, .token spelled stops placed layout, rfl, ?_, ?_⟩
  · rw [start, next, List.append_assoc]
  · rw [Point.skip_skip, List.length_append]

theorem list {close : Point} {items : List Value} {later tail : List UInt8}
    (opens : p.rest = openParen :: later) (inside : LaidOut (p.skip 1) items close)
    (closes : close.rest = closeParen :: tail) (onward : LaidOut (close.skip 1) values q) :
    LaidOut p (.list items :: values) q := by
  rcases inside with ⟨octets, inner, layout, rfl, next, rfl⟩
  rcases onward with ⟨more, elements, rest, rfl, last, rfl⟩
  rw [Point.behind_skip_one opens] at layout
  rw [Point.behind_skip_one closes] at rest
  have opening : IsText [openParen] := isText_ofText "("
  have closing : IsText [closeParen] := isText_ofText ")"
  obtain ⟨text, (whole : Encloses text octets)⟩ := (opening.append layout.isText).append closing
  rw [Point.rest_skip_one opens, closes] at next
  rw [Point.rest_skip_one closes] at last
  refine ⟨ofText text ++ more, .list text inner :: elements, .list whole layout rest, rfl, ?_, ?_⟩
  · rw [opens, next, last, whole]
    simp
  · simp only [Point.skip_skip, List.length_append, whole.length, Nat.add_assoc]

end LaidOut

namespace RecursiveList

variable {s : Settings}

theorem read_eq_ok {room : Nat} {p after : Point} {items : List Value}
    (found : read s room p = .ok (items, after)) :
    ∃ left, readItems s left p { mapsNil := true } (p.skip 1) = .ok (items, after) := by
  cases room with
  | zero => contradiction
  | succ left => exact ⟨left, found⟩

/-- A list that recursive reading accepts is a run of elements up to its closing parenthesis. -/
theorem laidOut_of_readItems {room : Nat} {opening p after : Point} {c : Collector}
    {items : List Value} (orderly : Orderly p.line) (separate : c.joining = false)
    (mapsNil : c.mapsNil = true)
    (found : readItems s room opening c p = .ok (items, after)) :
    ∃ more close tail, items = c.items ++ more ∧ LaidOut p more close ∧
      close.rest = closeParen :: tail ∧ after = close.skip 1 := by
  induction length : p.rest.length using Nat.strongRecOn
    generalizing room opening c p items after with
  | ind n ih =>
    have fewer := p.length_rest_skipBlanks_le
    rw [readItems_eq] at found
    cases lexed : Lexeme.next s.literalChunk p with
    | error fault => simp [lexed] at found
    | ok next =>
      rcases next with _ | ⟨lexeme, point⟩
      · simp [lexed] at found
      have shorter := Lexeme.next_shorter lexed
      cases lexeme with
      | closeParen =>
        obtain ⟨first, rfl⟩ := Lexeme.start_of_here rfl lexed
        obtain ⟨tail, closing⟩ := List.head?_eq_some_iff.mp first
        obtain ⟨rfl, rfl⟩ := by simpa [lexed] using found
        exact ⟨[], p.skipBlanks, tail, by simp, (LaidOut.done _).skipBlanks, closing, rfl⟩
      | piece piece =>
        obtain ⟨token, octets, tail, rfl, start, spelled, ends, placed, rfl⟩ :=
          Lexeme.token_of_next orderly lexed
        simp only [lexed, Collector.add_token separate, mapsNil] at found
        obtain ⟨more, close, later, rfl, onward, closing, rfl⟩ :=
          ih _ (length ▸ shorter) (by simpa using orderly) (by simpa using separate)
            (by simpa using mapsNil) found rfl
        refine ⟨_, close, later, ?_, (onward.token start spelled ends placed).skipBlanks,
          closing, rfl⟩
        simp
      | openParen =>
        obtain ⟨first, rfl⟩ := Lexeme.start_of_here rfl lexed
        obtain ⟨tail, opens⟩ := List.head?_eq_some_iff.mp first
        simp only [lexed] at found
        cases list : read s room p.skipBlanks with
        | error fault => simp [list] at found
        | ok result =>
          rcases result with ⟨values, later⟩
          simp only [list] at found
          have nearer := read_shorter list
          obtain ⟨left, inner⟩ := read_eq_ok list
          obtain ⟨inside, mid, _, rfl, within, closes, rfl⟩ :=
            ih _ (length ▸ shorter) (by simpa using orderly) rfl rfl inner rfl
          obtain ⟨more, close, _, rfl, onward, closing, rfl⟩ :=
            ih _ (by omega) (by simpa [within.line] using orderly) (by simpa using separate)
              (by simpa using mapsNil) found rfl
          refine ⟨_, close, _, ?_, (within.list opens closes onward).skipBlanks, closing, rfl⟩
          simp

end RecursiveList

theorem Line.laidOut_of_readValues {s : Settings} (recursive : s.nesting = .recursive)
    {c : Collector} {p : Point} {values : List Value} (orderly : Orderly p.line)
    (separate : c.joining = false) (mapsNil : c.mapsNil = true)
    (found : readValues s c p = .ok values) :
    ∃ more close, values = c.items ++ more ∧ LaidOut p more close ∧ close.rest = [] := by
  induction length : p.rest.length using Nat.strongRecOn generalizing c p values with
  | ind n ih =>
    have fewer := p.length_rest_skipBlanks_le
    rw [readValues_eq] at found
    cases lexed : Lexeme.next s.literalChunk p with
    | error fault => simp [lexed] at found
    | ok next =>
      rcases next with _ | ⟨lexeme, point⟩
      · obtain rfl : c.items = values := by simpa [lexed] using found
        exact ⟨[], p.skipBlanks, by simp, (LaidOut.done _).skipBlanks,
          Lexeme.finished_of_here lexed⟩
      have shorter := Lexeme.next_shorter lexed
      cases lexeme with
      | closeParen => simp [lexed] at found
      | piece piece =>
        obtain ⟨token, octets, tail, rfl, start, spelled, ends, placed, rfl⟩ :=
          Lexeme.token_of_next orderly lexed
        simp only [lexed, Collector.add_token separate, mapsNil] at found
        obtain ⟨more, close, rfl, onward, finished⟩ :=
          ih _ (length ▸ shorter) (by simpa using orderly) (by simpa using separate)
            (by simpa using mapsNil) found rfl
        refine ⟨_, close, ?_, (onward.token start spelled ends placed).skipBlanks, finished⟩
        simp
      | openParen =>
        obtain ⟨first, rfl⟩ := Lexeme.start_of_here rfl lexed
        obtain ⟨tail, opens⟩ := List.head?_eq_some_iff.mp first
        simp only [lexed, readList, recursive] at found
        cases list : RecursiveList.read s s.maxDepth p.skipBlanks with
        | error fault => simp [list] at found
        | ok result =>
          rcases result with ⟨values, later⟩
          simp only [list] at found
          have nearer := RecursiveList.read_shorter list
          obtain ⟨left, inner⟩ := RecursiveList.read_eq_ok list
          obtain ⟨inside, mid, _, rfl, within, closes, rfl⟩ :=
            RecursiveList.laidOut_of_readItems (by simpa using orderly) rfl rfl inner
          obtain ⟨more, close, rfl, onward, finished⟩ :=
            ih _ (by omega) (by simpa [within.line] using orderly) (by simpa using separate)
              (by simpa using mapsNil) found rfl
          refine ⟨_, close, ?_, (within.list opens closes onward).skipBlanks, finished⟩
          simp

end ImapReply
