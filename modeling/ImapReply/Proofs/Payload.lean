import ImapReply.Proofs.Kept
import ImapReply.Proofs.Written
import Mathlib.Control.Monad.Basic

/-! What the payload of a literal can change in what a line means: the texts of atoms. Which values
there are, how they are nested and which of them are null is the same for any two payloads of one
length, and so is the fault if the line cannot be read. The exception is a list kept as text: there
a header right behind the payload is recognized or not by the last octet of the payload. -/
namespace ImapReply

open Octet Octets

namespace Value

mutual
/-- The value with the texts of its atoms erased. -/
def shape : Value → Value
  | .atom _ isNull => .atom "" isNull
  | .list items => .list (shapes items)
def shapes : List Value → List Value
  | [] => []
  | item :: later => item.shape :: shapes later
end

theorem shapes_eq_map (items : List Value) : shapes items = items.map shape := by
  induction items with
  | nil => rfl
  | cons item later ih => rw [shapes, ih, List.map_cons]

end Value

/-- Collectors that differ in nothing but the texts of atoms. -/
structure Collector.Alike (c d : Collector) : Prop where
  mapsNil : c.mapsNil = d.mapsNil
  joining : c.joining = d.joining
  newest : c.newest.map Value.shape = d.newest.map Value.shape

namespace Collector.Alike

variable {c d : Collector}

theorem items (alike : c.Alike d) : c.items.map Value.shape = d.items.map Value.shape := by
  rw [Collector.items, Collector.items, List.map_reverse, List.map_reverse, alike.newest]

theorem push (alike : c.Alike d) {v w : Value} (same : v.shape = w.shape) :
    (c.push v).Alike (d.push w) where
  mapsNil := alike.mapsNil
  joining := alike.joining
  newest := by simp only [Collector.push, List.map_cons, same, alike.newest]

theorem newest_join (c : Collector) (text : String) (fresh : Value) :
    (c.join text fresh).newest.map Value.shape =
      match c.newest.map Value.shape with
      | .atom head false :: older => .atom head false :: older
      | newest => fresh.shape :: newest := by
  unfold Collector.join
  cases c.newest with
  | nil => rfl
  | cons last older =>
    cases last with
    | list => rfl
    | atom head isNull => cases isNull <;> rfl

theorem join (alike : c.Alike d) (one other : String) {v w : Value} (same : v.shape = w.shape) :
    (c.join one v).Alike (d.join other w) where
  mapsNil := by rw [c.mapsNil_join, d.mapsNil_join, alike.mapsNil]
  joining := by rw [c.joining_join, d.joining_join, alike.joining]
  newest := by rw [newest_join, newest_join, alike.newest, same]

theorem add_token (alike : c.Alike d) {one other : Token}
    (same : ∀ mapsNil, (one.value mapsNil).shape = (other.value mapsNil).shape) :
    (c.add (.token one)).Alike (d.add (.token other)) := by
  rw [Collector.add, Collector.add, ← alike.joining]
  have fresh := same c.mapsNil
  split
  · exact alike.join _ _ (alike.mapsNil ▸ fresh)
  · exact alike.push (alike.mapsNil ▸ fresh)

theorem add (alike : c.Alike d) {one other : Piece}
    (lexemes : Lexeme.Alike (.piece one) (.piece other)) : (c.add one).Alike (d.add other) := by
  cases lexemes with
  | literal x y => exact alike.add_token fun _ => rfl
  | refl =>
    cases one with
    | token token => exact alike.add_token fun _ => rfl
    | openBracket | closeBracket =>
      have joined := fun text => alike.join text text (Eq.refl (Value.ofText text).shape)
      exact ⟨(joined _).mapsNil, rfl, (joined _).newest⟩

end Collector.Alike

namespace Exchange

/-- The values of what was read differ in nothing but texts, and reading has come to the same
place. -/
structure Likewise {α : Type} (e : Exchange) (value : α → Value) (one other : α × Point) :
    Prop where
  shape : (value one.1).shape = (value other.1).shape
  after : e.Twin one.2 other.2

/-- Lists that start in the same place of both lines are read alike, if what is known of the place
holds. -/
def Twins (e : Exchange) (known : Point → Prop) (list other : ListReader) : Prop :=
  ∀ {p q : Point}, e.Twin p q → known p → p.rest.head? = some openParen →
    Agrees (e.Likewise id) (list p) (other q)

/-- What is known of a place stays known while elements are read. -/
structure Stays (chunk : Nat) (list : ListReader) (known : Point → Prop) : Prop where
  blanks : ∀ {p : Point}, known p → known p.skipBlanks
  step : ∀ {c d : Collector} {p q : Point}, Step chunk list c p d q → known p → known q

/-- Two walks that have come to the same place, with the same but for texts collected. -/
structure Abreast (e : Exchange) (known : Point → Prop) (c : Collector) (p : Point)
    (c' : Collector) (p' : Point) : Prop where
  alike : c.Alike c'
  twin : e.Twin p p'
  known : known p

/-- How a walk can halt in both lines. -/
inductive Halted (e : Exchange) : Halt → Halt → Prop
  | finished : e.Halted .finished .finished
  | closing {after again : Point} : e.Twin after again → e.Halted (.closing after) (.closing again)
  | broken (fault : Fault) : e.Halted (.broken fault) (.broken fault)

section Walk

variable {e : Exchange} {known : Point → Prop} {chunk : Nat} {list other : ListReader}
  {c d c' : Collector} {p q p' : Point} {halt : Halt}

theorem next_openParen (twin : e.Twin p p') {start : Point}
    (found : Lexeme.next chunk p = .ok (some (.openParen, start))) :
    (∃ again, Lexeme.next chunk p' = .ok (some (.openParen, again))) ∧
      p.skipBlanks.rest.head? = some openParen := by
  obtain ⟨_, again, same, alike, -⟩ := next_eq_some twin found
  cases alike
  exact ⟨⟨again, same⟩, (Lexeme.start_of_here rfl found).1⟩

theorem Abreast.step (stays : Stays chunk list known) (twins : e.Twins known list other)
    (abreast : e.Abreast known c p c' p') (step : Step chunk list c p d q) :
    ∃ d' q', Step chunk other c' p' d' q' ∧ e.Abreast known d q d' q' := by
  have after := stays.step step abreast.known
  cases step with
  | piece found =>
    obtain ⟨lexeme, again, same, lexemes, there⟩ := next_eq_some abreast.twin found
    obtain ⟨piece, rfl⟩ : ∃ piece, lexeme = .piece piece := by cases lexemes <;> exact ⟨_, rfl⟩
    exact ⟨_, again, .piece same, abreast.alike.add lexemes, there, after⟩
  | list found read =>
    obtain ⟨⟨start, same⟩, opens⟩ := next_openParen abreast.twin found
    have lists := twins abreast.twin.skipBlanks (stays.blanks abreast.known) opens
    rw [read] at lists
    obtain ⟨⟨value, again⟩, readAgain, shapes, there⟩ := lists
    exact ⟨_, again, .list same readAgain, abreast.alike.push shapes, there, after⟩

theorem Abreast.walk (stays : Stays chunk list known) (twins : e.Twins known list other)
    (walk : Walk chunk list c p d q) (abreast : e.Abreast known c p c' p') :
    ∃ d' q', Walk chunk other c' p' d' q' ∧ e.Abreast known d q d' q' := by
  induction walk generalizing c' p' with
  | here => exact ⟨c', p', .here, abreast⟩
  | step step _ ih =>
    obtain ⟨_, _, stepAgain, between⟩ := abreast.step stays twins step
    obtain ⟨d', q', walkAgain, there⟩ := ih between
    exact ⟨d', q', .step stepAgain walkAgain, there⟩

theorem Abreast.halts (stays : Stays chunk list known) (twins : e.Twins known list other)
    (abreast : e.Abreast known c p c' p') (halts : Halts chunk list p halt) :
    ∃ halt', Halts chunk other p' halt' ∧ e.Halted halt halt' := by
  cases halts with
  | finished found => exact ⟨_, .finished (next_eq_none abreast.twin found), .finished⟩
  | closing found =>
    obtain ⟨_, again, same, alike, after⟩ := next_eq_some abreast.twin found
    cases alike
    exact ⟨_, .closing same, .closing after⟩
  | lexeme failed => exact ⟨_, .lexeme (next_eq_error abreast.twin failed), .broken _⟩
  | list found failed =>
    obtain ⟨⟨start, same⟩, opens⟩ := next_openParen abreast.twin found
    have lists := twins abreast.twin.skipBlanks (stays.blanks abreast.known) opens
    rw [failed] at lists
    exact ⟨_, .list same lists, .broken _⟩

/-- A loop in the one line goes as the loop in the other does, up to the place where both halt. -/
theorem Abreast.run {R R' : Type} {ending : Point → List Value → Halt → R}
    {again : Point → List Value → Halt → R'} {run : Collector → Point → R}
    {runAgain : Collector → Point → R'} (stays : Stays chunk list known)
    (twins : e.Twins known list other) (loop : Loop chunk list ending run)
    (loopAgain : Loop chunk other again runAgain) (abreast : e.Abreast known c p c' p') :
    ∃ d q d' q' halt halt', e.Abreast known d q d' q' ∧ e.Halted halt halt' ∧
      run c p = ending q d.items halt ∧ runAgain c' p' = again q' d'.items halt' := by
  obtain ⟨d, q, halt, walk, halts, same⟩ := loop.exists_walk c p
  obtain ⟨d', q', walkAgain, there⟩ := abreast.walk stays twins walk
  obtain ⟨halt', haltsAgain, halted⟩ := there.halts stays twins halts
  exact ⟨d, q, d', q', halt, halt', there, halted, same,
    loopAgain.eq_of_walk walkAgain haltsAgain⟩

theorem Abreast.readItems {opening again : Point}
    {run runAgain : Collector → Point → Except Fault (List Value × Point)}
    (stays : Stays chunk list known) (twins : e.Twins known list other)
    (loop : Loop chunk list (fun _ => endOfList opening) run)
    (loopAgain : Loop chunk other (fun _ => endOfList again) runAgain)
    (offset : opening.offset = again.offset) (abreast : e.Abreast known c p c' p') :
    Agrees (e.Likewise .list) (run c p) (runAgain c' p') := by
  obtain ⟨d, q, d', q', halt, halt', there, halted, one, other⟩ :=
    abreast.run stays twins loop loopAgain
  rw [one, other]
  cases halted with
  | finished => exact congrArg (fun n => Except.error (Fault.unterminatedList n)) offset.symm
  | closing after =>
    refine ⟨_, rfl, ?_, after⟩
    simp only [Value.shape, Value.shapes_eq_map, there.alike.items]
  | broken fault => rfl

end Walk

variable {e : Exchange} {p q : Point}

theorem twins_form {α : Type} {value : α → Value} {known : Point → Prop}
    {read other : Point → Except Fault (α × Point)}
    (agrees : ∀ {p q : Point}, e.Twin p q → known p → p.rest.head? = some openParen →
      Agrees (e.Likewise value) (read p) (other q)) :
    e.Twins known (fun p => ListReader.form value (read p))
      (fun p => ListReader.form value (other p)) := by
  intro p q twin holds opens
  have given := agrees twin holds opens
  dsimp only
  generalize read p = result, other q = again at given ⊢
  cases result with
  | error fault => exact ListReader.form_eq_error_iff.mpr given
  | ok found =>
    obtain ⟨_, rfl, likewise⟩ := given
    exact ⟨_, rfl, likewise.shape, likewise.after⟩

theorem stays_inside (chunk : Nat) (opening : Point) : Stays chunk (.kept opening) Inside where
  blanks := Inside.skipBlanks
  step := Inside.step

/-- Nothing is known of the place. -/
def Anywhere (_ : Point) : Prop := True

theorem stays_anywhere (chunk : Nat) (list : ListReader) : Stays chunk list Anywhere where
  blanks := fun _ => trivial
  step := fun _ _ => trivial

theorem readVerbatim_agrees (hidden : 2 ≤ unclosed 0 e.front → e.Hidden) (chunk : Nat)
    (twin : e.Twin p q) (opens : p.rest.head? = some openParen) :
    Agrees (e.Likewise .list) (VerbatimList.read chunk p) (VerbatimList.read chunk q) := by
  obtain ⟨tail, start⟩ := List.head?_eq_some_iff.mp opens
  have kept : e.Twins Inside (.kept p) (.kept q) := twins_form fun there inside opens =>
    (inner_agrees hidden there inside opens twin.offset_eq).mono fun _ _ after => ⟨rfl, after⟩
  have entered : e.Abreast Inside { mapsNil := false } (p.skip 1) { mapsNil := false } (q.skip 1) :=
    ⟨⟨rfl, rfl, rfl⟩, (twin.skip_one start (by decide)).1, .enter start⟩
  exact entered.readItems (stays_inside chunk p) kept (VerbatimList.loop_readItems chunk p)
    (VerbatimList.loop_readItems chunk q) twin.offset_eq

theorem readRecursive_agrees (s : Settings) (room : Nat) (twin : e.Twin p q)
    (opens : p.rest.head? = some openParen) :
    Agrees (e.Likewise .list) (RecursiveList.read s room p) (RecursiveList.read s room q) := by
  induction room generalizing p q with
  | zero =>
    rw [RecursiveList.read, RecursiveList.read, twin.offset_eq]
    rfl
  | succ room ih =>
    obtain ⟨tail, start⟩ := List.head?_eq_some_iff.mp opens
    have nested : e.Twins Anywhere (.nested s room) (.nested s room) :=
      twins_form fun there _ opens => ih there opens
    have entered : e.Abreast Anywhere { mapsNil := true } (p.skip 1)
        { mapsNil := true } (q.skip 1) :=
      ⟨⟨rfl, rfl, rfl⟩, (twin.skip_one start (by decide)).1, trivial⟩
    exact entered.readItems (stays_anywhere _ _) nested (RecursiveList.loop_readItems s room p)
      (RecursiveList.loop_readItems s room q) twin.offset_eq

theorem outermost_twins {s : Settings}
    (hidden : s.nesting = .verbatim → 2 ≤ unclosed 0 e.front → e.Hidden) :
    e.Twins Anywhere (.outermost s) (.outermost s) := by
  refine twins_form fun twin _ opens => ?_
  unfold Line.readList
  split
  next verbatim => exact readVerbatim_agrees (hidden verbatim) s.literalChunk twin opens
  next => exact readRecursive_agrees s s.maxDepth twin opens

theorem readValues_twin {s : Settings}
    (hidden : s.nesting = .verbatim → 2 ≤ unclosed 0 e.front → e.Hidden) (twin : e.Twin p q)
    (c : Collector) :
    (Line.readValues s c p).map Value.shapes = (Line.readValues s c q).map Value.shapes := by
  have abreast : e.Abreast Anywhere c p c q := ⟨⟨rfl, rfl, rfl⟩, twin, trivial⟩
  obtain ⟨d, r, d', r', halt, halt', there, halted, one, other⟩ :=
    abreast.run (stays_anywhere _ _) (outermost_twins hidden) (Line.loop_readValues s)
      (Line.loop_readValues s)
  rw [one, other]
  cases halted with
  | finished => simp only [endOfLine, Except.map, Value.shapes_eq_map, there.alike.items]
  | closing => simp only [endOfLine, there.twin.skipBlanks.offset_eq]
  | broken => rfl

end Exchange

/-- A line with a literal in it. -/
def withLiteral (front : List UInt8) (payload : String) (later : List UInt8) : List UInt8 :=
  front ++ (Literal.headerOctets (ofText (toString (ofText payload).length)) false ++
    ofText payload ++ later)

/-- The payload of a literal decides on the texts of atoms and on nothing else. If the literal
stands in a kept list, what follows it has to be recognized as a header behind both payloads or
behind neither. -/
theorem decode_withLiteral {s : Settings} (unlimited : s.maxLineLength = none)
    {front later : List UInt8} {x y : String} (unquoted : quote ∉ front)
    (unbraced : openBrace ∉ front) (announcing : Announcing front.getLast?)
    (even : (ofText x).length = (ofText y).length)
    (unseen : s.nesting = .verbatim → 2 ≤ unclosed 0 front →
      Literal.opensHeader ⟨(ofText x).reverse, later⟩ =
        Literal.opensHeader ⟨(ofText y).reverse, later⟩) :
    (decode s (withLiteral front x later)).map Value.shapes =
      (decode s (withLiteral front y later)).map Value.shapes := by
  let e : Exchange :=
    { front, x, y, later, unquoted, unbraced, announcing, even
      digits := ofText (toString (ofText x).length)
      signed := false
      numeral := Literal.isNumeral_toString _
      announces := Literal.lengthOf_toString _ }
  have one : withLiteral front x later = front ++ e.octets x := rfl
  have other : withLiteral front y later = front ++ e.octets y := by
    simp only [withLiteral, ← even]
    rfl
  have twin : e.Twin (.start (front ++ e.octets x)) (.start (front ++ e.octets y)) := .ahead rfl
  rw [decode_eq_readValues unlimited, decode_eq_readValues unlimited, one, other]
  exact Exchange.readValues_twin unseen twin { mapsNil := true }

/-- Behind both payloads `\x7b1\x7d` is part of a word. -/
theorem decode_withLiteral_sample :
    (decode .standard (withLiteral (ofText "((a ") "\"(\x7b" (ofText "\x7b1\x7d) d) e"))).map
        Value.shapes =
      .ok [.list [.atom "" false, .atom "" false], .atom "" false] := by
  have parens : (decode .standard (withLiteral (ofText "((a ") "())"
      (ofText "\x7b1\x7d) d) e"))).map Value.shapes =
        .ok [.list [.atom "" false, .atom "" false], .atom "" false] := by
    decide +kernel
  have unquoted : quote ∉ ofText "((a " ∧ openBrace ∉ ofText "((a " := by decide +kernel
  have space : Announcing (ofText "((a ").getLast? := .inr (.inl (by decide +kernel))
  have unseen : Literal.opensHeader ⟨(ofText "\"(\x7b").reverse, ofText "\x7b1\x7d) d) e"⟩ =
      Literal.opensHeader ⟨(ofText "())").reverse, ofText "\x7b1\x7d) d) e"⟩ := by
    decide +kernel
  have same := decode_withLiteral (s := .standard) (x := "\"(\x7b") (y := "())") rfl unquoted.1
    unquoted.2 space rfl fun _ _ => unseen
  exact same.trans parens

/-- A parenthesis that ends the payload makes a header of what is part of a word behind a letter,
and the header takes the parenthesis that closes the list for its payload. -/
theorem payload_seen_from_behind :
    ¬ ∀ (s : Settings) (front later : List UInt8) (x y : String), s.maxLineLength = none →
      quote ∉ front → openBrace ∉ front → Announcing front.getLast? →
      (ofText x).length = (ofText y).length →
      (decode s (withLiteral front x later)).map Value.shapes =
        (decode s (withLiteral front y later)).map Value.shapes := by
  intro always
  have letter : decode .standard (withLiteral (ofText "((") "a" (ofText "\x7b1\x7d)) x")) =
      .ok [.list [.ofText "(\x7b1\x7da\x7b1\x7d)"], .ofText "x"] := by
    decide +kernel
  have paren : decode .standard (withLiteral (ofText "((") "(" (ofText "\x7b1\x7d)) x")) =
      .error (.unterminatedList 0) := by
    decide +kernel
  have opened : Announcing (ofText "((").getLast? := .inr (.inr (by decide +kernel))
  have same := always .standard (ofText "((") (ofText "\x7b1\x7d)) x") "a" "(" rfl
    (by decide +kernel) (by decide +kernel) opened rfl
  rw [letter, paren] at same
  contradiction

end ImapReply
