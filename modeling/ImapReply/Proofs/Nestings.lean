import ImapReply.Proofs.Continuation
import ImapReply.Proofs.Outline
import Mathlib.Control.Monad.Basic

/-! Where no brace stands in a line, keeping lists and reading them are two ways to follow the same
outline. Either way the line is read if its outline has no fault and leaves nothing open. Otherwise
the fault is that of the outline or names a parenthesis left open, and only which one it names
depends on what becomes of the lists. -/
namespace ImapReply

open Octet Octets Outline

theorem ascii_of_isDelimiter {b : UInt8} (delimiter : isDelimiter b = true) : b.toNat < 128 := by
  by_cases blank : role b = .blank
  · rcases role_eq_blank_iff.mp blank with rfl | rfl | rfl <;> decide
  · have ascii : punctuation.all (·.toNat < 128) := by decide
    have notPlain : role b ≠ .plain := by
      simp only [isDelimiter, decide_eq_true_eq] at delimiter
      exact delimiter.1
    have small := List.all_eq_true.mp ascii b (mem_punctuation ⟨blank, notPlain⟩)
    exact of_decide_eq_true small

theorem isDelimiter_of_isBlank {b : UInt8} (blank : isBlank b = true) : isDelimiter b = true := by
  have kind : role b = .blank := by simpa [isBlank] using blank
  simp [isDelimiter, kind]

/-- Behind a piece of text that ends before a delimiter there is text. -/
theorem isText_split {front tail : List UInt8} (bounded : Bounded tail)
    (whole : IsText (front ++ tail)) : IsText front ∧ IsText tail := by
  cases tail with
  | nil => exact ⟨by simpa using whole, isText_ofText ""⟩
  | cons b tail =>
    have ascii := ascii_of_isDelimiter (bounded b rfl)
    obtain ⟨before, after⟩ := whole.split ascii
    have single : IsText [b] := isText_ascii fun c member => List.mem_singleton.mp member ▸ ascii
    exact ⟨before, single.append after⟩

/-- From the point on there is text without braces, which opens no more than `room` lists. -/
structure Legible (room : Nat) (p : Point) : Prop where
  text : IsText p.rest
  braceless : openBrace ∉ p.rest
  shallow : p.rest.count openParen ≤ room

namespace Legible

variable {room : Nat} {p : Point} {front tail : List UInt8} {b : UInt8}

theorem skip (legible : Legible room p) (start : p.rest = front ++ tail) (text : IsText tail) :
    Legible room (p.skip front.length) := by
  have rest := Point.rest_skip_append start
  refine ⟨rest.symm ▸ text, ?_, ?_⟩
  · rw [rest]
    exact fun brace => legible.braceless (start ▸ List.mem_append_right front brace)
  · have shallow := legible.shallow
    rw [start, List.count_append] at shallow
    rw [rest]
    omega

theorem skip_one (legible : Legible room p) (start : p.rest = b :: tail)
    (ascii : b.toNat < 128) : Legible room (p.skip 1) := by
  have text := legible.text
  rw [start] at text
  have front : p.rest = [b] ++ tail := start
  exact legible.skip front (text.of_cons ascii)

/-- A list that is opened takes one level of the room. -/
theorem enter (legible : Legible (room + 1) p) (start : p.rest = openParen :: tail) :
    Legible room (p.skip 1) := by
  have inside := legible.skip_one start (by decide)
  have shallow := legible.shallow
  rw [start, List.count_cons_self] at shallow
  refine ⟨inside.text, inside.braceless, ?_⟩
  rw [Point.rest_skip_one start]
  omega

theorem leave (legible : Legible room p) : Legible (room + 1) p :=
  ⟨legible.text, legible.braceless, Nat.le_succ_of_le legible.shallow⟩

theorem skipBlanks (legible : Legible room p) : Legible room p.skipBlanks := by
  have start : p.rest = p.rest.takeWhile isBlank ++ p.rest.dropWhile isBlank :=
    List.takeWhile_append_dropWhile.symm
  have text := legible.text
  rw [start] at text
  refine legible.skip start (text.of_append fun b member => ?_)
  have blank := List.all_eq_true.mp List.all_takeWhile b member
  exact ascii_of_isDelimiter (isDelimiter_of_isBlank blank)

end Legible

namespace Quoted

variable {room : Nat} {p : Point} {opened : List Nat} {body : List UInt8}

theorem outline_of_read_fault {fault : Fault} (legible : Legible room p)
    (start : p.rest = quote :: body) (failed : read p = .error fault) :
    p.outline opened = .error fault := by
  have rest : p.rest.drop 1 = body := by rw [start, List.drop_one, List.tail_cons]
  unfold read at failed
  rw [rest] at failed
  split at failed
  next unclosed => exact Except.error.inj failed ▸ Point.outline_unclosed start unclosed
  next n closed =>
    obtain ⟨content, tail, rfl, valid, rfl⟩ := contentLength_eq_some_iff.mp closed
    have text := legible.text
    rw [start, ← List.cons_append] at text
    obtain ⟨raw, same⟩ := (text.split (by decide)).1.of_cons (by decide)
    rw [List.take_left, ← same, text?_ofText] at failed
    contradiction

theorem outline_of_extent {n : Nat} (start : p.rest = quote :: body) (found : extent p = .ok n) :
    p.outline opened = (p.skip n).outline opened := by
  have rest : p.rest.drop 1 = body := by rw [start, List.drop_one, List.tail_cons]
  unfold extent at found
  rw [rest] at found
  split at found
  · contradiction
  next k closed =>
    obtain rfl := Except.ok.inj found
    obtain ⟨content, tail, rfl, valid, rfl⟩ := contentLength_eq_some_iff.mp closed
    exact Point.outline_quoted valid start

theorem outline_of_extent_fault {fault : Fault} (start : p.rest = quote :: body)
    (failed : extent p = .error fault) : p.outline opened = .error fault := by
  have rest : p.rest.drop 1 = body := by rw [start, List.drop_one, List.tail_cons]
  unfold extent at failed
  rw [rest] at failed
  split at failed
  next unclosed => exact Except.error.inj failed ▸ Point.outline_unclosed start unclosed
  · contradiction

end Quoted

namespace Lexeme

/-- Text is cut into words that are text. -/
theorem word_ne_error {p : Point} (text : IsText p.rest) (fault : Fault) :
    word p ≠ .error fault := by
  have bounded : Bounded (p.rest.dropWhile (!isDelimiter ·)) := by
    intro b first
    have stop := List.head?_dropWhile_not (!isDelimiter ·) p.rest
    rw [first] at stop
    simpa using stop
  rw [← List.takeWhile_append_dropWhile (p := (!isDelimiter ·)) (l := p.rest)] at text
  obtain ⟨raw, same⟩ := (isText_split bounded text).1
  unfold word
  dsimp only
  rw [← same, text?_ofText]
  simp

variable {chunk room : Nat} {p after : Point} {opened outer : List Nat}

theorem outline_of_closeParen (legible : Legible room p)
    (found : next chunk p = .ok (some (.closeParen, after))) :
    Legible room after ∧ ∀ o, p.outline (o :: outer) = after.outline outer := by
  obtain ⟨first, rfl⟩ := start_of_here rfl found
  obtain ⟨tail, start⟩ := List.head?_eq_some_iff.mp first
  refine ⟨legible.skipBlanks.skip_one start (by decide), fun o => ?_⟩
  rw [Point.outline_skipBlanks, Point.outline_closeParen start]

theorem outline_of_unopened (found : next chunk p = .ok (some (.closeParen, after))) :
    p.outline [] = .error (.unexpected p.skipBlanks.offset ')') := by
  obtain ⟨first, rfl⟩ := start_of_here rfl found
  obtain ⟨tail, start⟩ := List.head?_eq_some_iff.mp first
  rw [Point.outline_skipBlanks, Point.outline_unopened start]

theorem outline_of_piece {piece : Piece} (legible : Legible room p)
    (found : next chunk p = .ok (some (.piece piece, after))) :
    Legible room after ∧ p.outline opened = after.outline opened := by
  have legible := legible.skipBlanks
  rw [Point.outline_skipBlanks]
  have bracket {b : UInt8} (single : (Lexeme.piece piece).octet? = some b) (passes : Passes b)
      (ascii : b.toNat < 128) :
      Legible room after ∧ p.skipBlanks.outline opened = after.outline opened := by
    obtain ⟨first, rfl⟩ := start_of_here single found
    obtain ⟨tail, start⟩ := List.head?_eq_some_iff.mp first
    exact ⟨legible.skip_one start ascii, Point.outline_skip_one passes start⟩
  cases piece with
  | openBracket => exact bracket rfl (by decide) (by decide)
  | closeBracket => exact bracket rfl (by decide) (by decide)
  | token token =>
    obtain ⟨octets, tail, start, spelled, ends, rfl⟩ :=
      spelled_of_here p.nonblank_skipBlanks found
    have text := legible.text
    rw [start] at text
    cases spelled with
    | bare word =>
      refine ⟨legible.skip start (isText_split ends text).2, Point.outline_skip ?_ start⟩
      exact fun b member => passes_of_undelimited (word.undelimited b member)
    | @quoted raw valid =>
      have body : p.skipBlanks.rest = quote :: ofText raw ++ quote :: tail := by simp [start]
      have length : (quote :: ofText raw ++ [quote]).length = (ofText raw).length + 2 := by simp
      rw [List.append_assoc] at text
      refine ⟨legible.skip start (text.split (by decide)).2, ?_⟩
      rw [length, Point.outline_quoted valid body]
    | literal =>
      exact absurd (start ▸ List.mem_cons_self ..) legible.braceless

theorem outline_of_fault {fault : Fault} (legible : Legible room p)
    (failed : next chunk p = .error fault) : p.outline opened = .error fault := by
  have legible := legible.skipBlanks
  rw [Point.outline_skipBlanks]
  rw [next] at failed
  generalize p.skipBlanks = p at legible failed
  cases start : p.rest with
  | nil => simp [here, start] at failed
  | cons b later =>
    simp only [here, start] at failed
    split at failed
    case h_5 kind =>
      obtain rfl := role_eq_quote_iff.mp kind
      exact Quoted.outline_of_read_fault legible start (asToken_eq_error_iff.mp failed)
    case h_6 kind =>
      obtain rfl := role_eq_openBrace_iff.mp kind
      exact absurd (start ▸ List.mem_cons_self ..) legible.braceless
    case h_7 | h_8 =>
      exact absurd (asToken_eq_error_iff.mp failed) (word_ne_error legible.text fault)
    all_goals contradiction

end Lexeme

namespace VerbatimList

variable {p : Point} {opened : List Nat} {b : UInt8} {tail : List UInt8}

/-- A stride over no parenthesis leaves what is open as it is. -/
theorem outline_stride {n : Nat} (braceless : openBrace ∉ p.rest) (start : p.rest = b :: tail)
    (notOpen : role b ≠ .openParen) (notClose : role b ≠ .closeParen) (taken : stride p b = .ok n) :
    p.outline opened = (p.skip n).outline opened := by
  unfold stride at taken
  split at taken
  next kind => exact Quoted.outline_of_extent (role_eq_quote_iff.mp kind ▸ start) taken
  next kind =>
    obtain rfl := role_eq_openBrace_iff.mp kind
    exact absurd (start ▸ List.mem_cons_self ..) braceless
  next notQuote _ =>
    obtain rfl := Except.ok.inj taken
    exact Point.outline_skip_one ⟨notOpen, notClose, notQuote⟩ start

theorem outline_of_stride_fault {fault : Fault} (braceless : openBrace ∉ p.rest)
    (start : p.rest = b :: tail) (failed : stride p b = .error fault) :
    p.outline opened = .error fault := by
  unfold stride at failed
  split at failed
  next kind => exact Quoted.outline_of_extent_fault (role_eq_quote_iff.mp kind ▸ start) failed
  next kind =>
    obtain rfl := role_eq_openBrace_iff.mp kind
    exact absurd (start ▸ List.mem_cons_self ..) braceless
  · contradiction

/-- How the end of a list is found, and the outline with it. The parentheses `within` are those
that are to be closed. -/
def EndsAs (p : Point) (within opened : List Nat) (passed : Nat) : Except Fault (Option Nat) → Prop
  | .error fault => p.outline (within ++ opened) = .error fault
  | .ok none => ∃ more, p.outline (within ++ opened) = .ok (more ++ opened)
  | .ok (some n) =>
    ∃ k, n = passed + k ∧ p.outline (within ++ opened) = (p.skip k).outline opened

theorem EndsAs.step {within deeper : List Nat} {passed n : Nat} {found : Except Fault (Option Nat)}
    (same : p.outline (within ++ opened) = (p.skip n).outline (deeper ++ opened))
    (ends : EndsAs (p.skip n) deeper opened (passed + n) found) :
    EndsAs p within opened passed found := by
  unfold EndsAs at ends ⊢
  rw [same]
  split
  · exact ends
  · exact ends
  · obtain ⟨k, rfl, onward⟩ := ends
    exact ⟨n + k, Nat.add_assoc .., by rw [onward, Point.skip_skip]⟩

/-- The end of an inner list is where the outline closes what the list has opened. -/
theorem endsAs_closeAfter {depth passed : Nat} {within : List Nat} (braceless : openBrace ∉ p.rest)
    (deep : within.length = depth + 1) :
    EndsAs p within opened passed (closeAfter depth passed p) := by
  fun_induction closeAfter depth passed p generalizing within with
  | case1 depth passed p finished => exact ⟨within, Point.outline_end finished⟩
  | case2 depth passed p b tail start fault failed =>
    exact outline_of_stride_fault braceless start failed
  | case3 depth passed p b tail start n taken closes =>
    obtain ⟨kind, rfl⟩ : role b = .closeParen ∧ depth = 0 := by
      unfold depthAfter at closes
      split at closes
      case h_2 kind => exact ⟨kind, rfl⟩
      all_goals contradiction
    obtain ⟨o, rfl⟩ := List.length_eq_one_iff.mp deep
    obtain rfl : 1 = n := by simpa [stride, kind] using taken
    exact ⟨1, rfl, Point.outline_closeParen (role_eq_closeParen_iff.mp kind ▸ start)⟩
  | case4 depth passed p b tail start n taken deeper counted ih =>
    have later : openBrace ∉ (p.skip n).rest :=
      fun brace => braceless (List.mem_of_mem_drop brace)
    cases kind : role b with
    | openParen =>
      obtain rfl : 1 = n := by simpa [stride, kind] using taken
      obtain rfl : depth + 1 = deeper := by simpa [depthAfter, kind] using counted
      have opens : p.outline (within ++ opened) =
          (p.skip 1).outline (p.offset :: within ++ opened) :=
        Point.outline_openParen (role_eq_openParen_iff.mp kind ▸ start)
      have one : (p.offset :: within).length = depth + 1 + 1 := by rw [List.length_cons, deep]
      exact .step opens (ih later one)
    | closeParen =>
      obtain rfl : 1 = n := by simpa [stride, kind] using taken
      cases depth with
      | zero => simp [depthAfter, kind] at counted
      | succ depth =>
        obtain rfl : depth = deeper := by simpa [depthAfter, kind] using counted
        obtain ⟨o, inner, rfl⟩ := List.exists_cons_of_length_eq_add_one deep
        have closes : p.outline (o :: inner ++ opened) = (p.skip 1).outline (inner ++ opened) :=
          Point.outline_closeParen (role_eq_closeParen_iff.mp kind ▸ start)
        exact .step closes (ih later (Nat.succ.inj deep))
    | _ =>
      obtain rfl : depth = deeper := by simpa [depthAfter, kind] using counted
      have same : p.outline (within ++ opened) = (p.skip n).outline (within ++ opened) :=
        outline_stride braceless start (by simp [kind]) (by simp [kind]) taken
      exact .step same (ih later deep)

theorem endsAs_inner (braceless : openBrace ∉ p.rest) (start : p.rest = openParen :: tail) :
    EndsAs p [] opened 0 (closeAfter 0 1 (p.skip 1)) := by
  have inside : openBrace ∉ (p.skip 1).rest := fun brace => braceless (List.mem_of_mem_drop brace)
  have one : [p.offset].length = 0 + 1 := rfl
  exact .step (Point.outline_openParen start) (endsAs_closeAfter inside one)

/-- What is kept of a text is text, and so is what comes after it. -/
theorem isText_closeAfter {n : Nat} (text : IsText p.rest) (start : p.rest = openParen :: tail)
    (closed : closeAfter 0 1 (p.skip 1) = .ok (some n)) :
    ∃ front later, p.rest = front ++ later ∧ n = front.length ∧ IsText front ∧ IsText later := by
  obtain ⟨inside, later, whole, rfl⟩ := enclosed_of_closeAfter start closed
  rw [whole, List.append_assoc] at text
  obtain ⟨before, after⟩ := text.split (by decide)
  exact ⟨_, later, whole, rfl, before.append (isText_ofText ")"), after⟩

/-- In a text there is nothing wrong with an inner list but that its end is not found. -/
theorem inner_fault {opening : Point} {fault : Fault} (text : IsText p.rest)
    (start : p.rest = openParen :: tail) (failed : inner opening p = .error fault) :
    closeAfter 0 1 (p.skip 1) = .error fault ∨
      closeAfter 0 1 (p.skip 1) = .ok none ∧ fault = .unterminatedList opening.offset := by
  unfold inner at failed
  split at failed
  next other broken => exact .inl (broken.trans (congrArg _ (Except.error.inj failed)))
  next unclosed => exact .inr ⟨unclosed, (Except.error.inj failed).symm⟩
  next n closed =>
    obtain ⟨front, later, whole, rfl, ⟨raw, same⟩, -⟩ := isText_closeAfter text start closed
    rw [whole, List.take_left, ← same, text?_ofText] at failed
    contradiction

end VerbatimList

/-- A fault is that of the outline, or it names one of the parentheses that are left open from the
point on. -/
def Blames (named : List Nat → Option Nat) (opened : List Nat) (p : Point) (fault : Fault) : Prop :=
  p.outline opened = .error fault ∨ ∃ more position, p.outline opened = .ok (more ++ opened) ∧
    named more = some position ∧ fault = .unterminatedList position

namespace ListReader

/-- A reader stays with the outline. Of the parentheses that the list at the point leaves open, it
names the one that `named` chooses. -/
structure Follows (named : List Nat → Option Nat) (room : Nat) (list : ListReader) : Prop where
  reads : ∀ {p after : Point} {v : Value} (opened : List Nat), Legible room p →
    p.rest.head? = some openParen → list p = .ok (v, after) →
    Legible room after ∧ p.outline opened = after.outline opened
  fails : ∀ {p : Point} {fault : Fault} (opened : List Nat), Legible room p →
    p.rest.head? = some openParen → list p = .error fault → Blames named opened p fault

theorem follows_kept (room : Nat) (opening : Point) :
    Follows (fun _ => some opening.offset) room (kept opening) where
  reads := by
    intro p after v opened legible opens read
    obtain ⟨tail, start⟩ := List.head?_eq_some_iff.mp opens
    obtain ⟨text, found, -⟩ := form_eq_ok_iff.mp read
    obtain ⟨n, closed, -, rfl⟩ := VerbatimList.inner_eq_ok_iff.mp found
    have ends : VerbatimList.EndsAs p [] opened 0 _ :=
      VerbatimList.endsAs_inner legible.braceless start
    rw [closed] at ends
    obtain ⟨front, later, whole, length, -, behind⟩ :=
      VerbatimList.isText_closeAfter legible.text start closed
    refine ⟨length ▸ legible.skip whole behind, ?_⟩
    obtain ⟨k, rfl, onward⟩ := ends
    rw [Nat.zero_add]
    exact onward
  fails := by
    intro p fault opened legible opens failed
    obtain ⟨tail, start⟩ := List.head?_eq_some_iff.mp opens
    have ends : VerbatimList.EndsAs p [] opened 0 _ :=
      VerbatimList.endsAs_inner legible.braceless start
    rcases VerbatimList.inner_fault legible.text start (form_eq_error_iff.mp failed) with
      broken | ⟨unclosed, rfl⟩
    · rw [broken] at ends
      exact .inl ends
    · rw [unclosed] at ends
      obtain ⟨more, left⟩ := ends
      exact .inr ⟨more, _, left, rfl, rfl⟩

end ListReader

section Walk

variable {chunk room : Nat} {named : List Nat → Option Nat} {list : ListReader} {c d : Collector}
  {p q : Point} {opened : List Nat}

theorem Step.follows (opened : List Nat) (follows : list.Follows named room)
    (step : Step chunk list c p d q) (legible : Legible room p) :
    Legible room q ∧ p.outline opened = q.outline opened := by
  cases step with
  | piece found => exact Lexeme.outline_of_piece legible found
  | list found read =>
    rw [Point.outline_skipBlanks]
    exact follows.reads opened legible.skipBlanks (Lexeme.start_of_here rfl found).1 read

theorem Walk.follows (opened : List Nat) (follows : list.Follows named room)
    (walk : Walk chunk list c p d q) (legible : Legible room p) :
    Legible room q ∧ p.outline opened = q.outline opened :=
  walk.invariant (P := fun _ q => Legible room q ∧ p.outline opened = q.outline opened)
    (fun step ⟨legible, same⟩ => (step.follows opened follows legible).imp_right same.trans)
    ⟨legible, rfl⟩

theorem Halts.outline_finished (halts : Halts chunk list p .finished) :
    p.outline opened = .ok opened := by
  cases halts with
  | finished found =>
    rw [Point.outline_skipBlanks, Point.outline_end (Lexeme.finished_of_here found)]

/-- Where a walk breaks off, the fault is that of the outline or names a parenthesis. -/
theorem Halts.blames {fault : Fault} (follows : list.Follows named room) (legible : Legible room p)
    (halts : Halts chunk list p (.broken fault)) : Blames named opened p fault := by
  cases halts with
  | lexeme failed => exact .inl (Lexeme.outline_of_fault legible failed)
  | list found failed =>
    rw [Blames, Point.outline_skipBlanks]
    exact follows.fails opened legible.skipBlanks (Lexeme.start_of_here rfl found).1 failed

variable {run : Collector → Point → Except Fault (List Value × Point)} {after : Point}
  {items : List Value} {tail : List UInt8}

/-- A list that is read closes what it opened. -/
theorem Loop.outline_read (loop : Loop chunk list (fun _ => endOfList p) run)
    (follows : list.Follows named room) (start : p.rest = openParen :: tail)
    (legible : Legible room (p.skip 1)) (read : run c (p.skip 1) = .ok (items, after)) :
    Legible room after ∧ p.outline opened = after.outline opened := by
  obtain ⟨d, q, walk, closing, -⟩ := loop.eq_ok_iff.mp read
  obtain ⟨legible, same⟩ := walk.follows (p.offset :: opened) follows legible
  obtain ⟨legible, closes⟩ := Lexeme.outline_of_closeParen legible closing
  refine ⟨legible, ?_⟩
  rw [Point.outline_openParen start, same, closes]

/-- A list that is not read leaves its own parenthesis open, outside of those that it leaves open
besides. -/
theorem Loop.blames (loop : Loop chunk list (fun _ => endOfList p) run)
    (follows : list.Follows named room) (start : p.rest = openParen :: tail)
    (legible : Legible room (p.skip 1)) {outward : List Nat → Option Nat}
    (alone : outward [p.offset] = some p.offset)
    (around : ∀ more position, named more = some position →
      outward (more ++ [p.offset]) = some position)
    {fault : Fault} (failed : run c (p.skip 1) = .error fault) : Blames outward opened p fault := by
  obtain ⟨d, q, halt, walk, halts, same⟩ := loop.exists_walk c (p.skip 1)
  obtain ⟨legible, onward⟩ := walk.follows (p.offset :: opened) follows legible
  rw [Blames, Point.outline_openParen start, onward]
  rw [same] at failed
  cases halt with
  | closing => contradiction
  | finished =>
    have ended : q.outline (p.offset :: opened) = _ := halts.outline_finished
    exact .inr ⟨[p.offset], p.offset, ended, alone, (Except.error.inj failed).symm⟩
  | broken other =>
    obtain rfl := Except.error.inj failed
    refine (halts.blames follows legible).imp id ?_
    rintro ⟨more, position, left, name, rfl⟩
    refine ⟨more ++ [p.offset], position, ?_, around more position name, rfl⟩
    rw [left, List.append_assoc]
    rfl

end Walk

/-- Which of the parentheses left open the fault names: that of the outermost list if the lists in
it are kept, else that of the innermost. -/
def Nesting.blamed : Nesting → List Nat → Option Nat
  | .verbatim => List.getLast?
  | .recursive => List.head?

namespace ListReader

theorem follows_nested (s : Settings) (room : Nat) :
    Follows Nesting.recursive.blamed room (nested s room) := by
  induction room with
  | zero =>
    constructor
    · intro p after v opened legible opens read
      obtain ⟨items, found, -⟩ := form_eq_ok_iff.mp read
      contradiction
    · intro p fault opened legible opens failed
      have present := List.count_pos_iff.mpr (List.mem_of_head? opens)
      exact absurd legible.shallow (Nat.not_le_of_lt present)
  | succ room ih =>
    have loop (p : Point) := RecursiveList.loop_readItems s room p
    constructor
    · intro p after v opened legible opens read
      obtain ⟨tail, start⟩ := List.head?_eq_some_iff.mp opens
      obtain ⟨items, found, -⟩ := form_eq_ok_iff.mp read
      obtain ⟨legible, same⟩ := (loop p).outline_read ih start (legible.enter start) found
      exact ⟨legible.leave, same⟩
    · intro p fault opened legible opens failed
      obtain ⟨tail, start⟩ := List.head?_eq_some_iff.mp opens
      refine (loop p).blames ih start (legible.enter start) rfl ?_ (form_eq_error_iff.mp failed)
      intro more position name
      rw [Nesting.blamed] at name ⊢
      rw [List.head?_append, name, Option.some_or]

theorem follows_verbatim (chunk room : Nat) :
    Follows Nesting.verbatim.blamed room (fun p => form .list (VerbatimList.read chunk p)) where
  reads := by
    intro p after v opened legible opens read
    obtain ⟨tail, start⟩ := List.head?_eq_some_iff.mp opens
    obtain ⟨items, found, -⟩ := form_eq_ok_iff.mp read
    exact (VerbatimList.loop_readItems chunk p).outline_read (follows_kept room p) start
      (legible.skip_one start (by decide)) found
  fails := by
    intro p fault opened legible opens failed
    obtain ⟨tail, start⟩ := List.head?_eq_some_iff.mp opens
    refine (VerbatimList.loop_readItems chunk p).blames (follows_kept room p) start
      (legible.skip_one start (by decide)) rfl ?_ (form_eq_error_iff.mp failed)
    intro more position name
    obtain rfl := Option.some.inj name
    exact List.getLast?_concat

theorem follows_outermost (s : Settings) : Follows s.nesting.blamed s.maxDepth (outermost s) := by
  unfold outermost Line.readList
  cases s.nesting with
  | verbatim => exact follows_verbatim s.literalChunk s.maxDepth
  | recursive => exact follows_nested s s.maxDepth

end ListReader

/-- What becomes of a line that is legible can be told from its outline. -/
theorem decode_outline {s : Settings} {line : List UInt8} (unlimited : s.maxLineLength = none)
    (legible : Legible s.maxDepth (.start line)) :
    match outline line with
    | .error fault => decode s line = .error fault
    | .ok left =>
      match s.nesting.blamed left with
      | none => ∃ values, decode s line = .ok values
      | some position => decode s line = .error (.unterminatedList position) := by
  have follows := ListReader.follows_outermost s
  have whole : outline line = (Point.start line).outline [] := rfl
  obtain ⟨d, q, halt, walk, halts, same⟩ :=
    (Line.loop_readValues s).exists_walk { mapsNil := true } (.start line)
  obtain ⟨legible, onward⟩ := walk.follows [] follows legible
  rw [decode_eq_readValues unlimited, same, whole, onward]
  cases halt with
  | finished =>
    have closed : s.nesting.blamed [] = none := by cases s.nesting <;> rfl
    rw [halts.outline_finished]
    simp only [closed]
    exact ⟨_, rfl⟩
  | closing after =>
    cases halts with
    | closing found =>
      rw [Lexeme.outline_of_unopened found]
      rfl
  | broken fault =>
    rcases halts.blames follows legible with failed | ⟨more, position, left, name, rfl⟩
    · rw [failed]
      rfl
    · rw [left, List.append_nil]
      simp only [name]
      rfl

/-- Lists are kept from a line if and only if they are read from it. Where neither can be done the
fault is the same, unless a list is left open: then the one names the outermost parenthesis that is
never closed, and the other the innermost. -/
theorem decode_nestings_agree (chunk depth : Nat) {line : List UInt8} (text : IsText line)
    (braceless : openBrace ∉ line) (shallow : line.count openParen ≤ depth) :
    ((∃ values, decode ⟨chunk, .verbatim, none, depth⟩ line = .ok values) ↔
      ∃ values, decode ⟨chunk, .recursive, none, depth⟩ line = .ok values) ∧
    ∀ kept read, decode ⟨chunk, .verbatim, none, depth⟩ line = .error kept →
      decode ⟨chunk, .recursive, none, depth⟩ line = .error read →
      (kept = read ∧ ∀ position, kept ≠ .unterminatedList position) ∨
      ∃ left nonempty, outline line = .ok left ∧
        kept = .unterminatedList (left.getLast nonempty) ∧
        read = .unterminatedList (left.head nonempty) ∧
        left.getLast nonempty ≤ left.head nonempty := by
  have legible : Legible depth (.start line) := ⟨text, braceless, shallow⟩
  have verbatim := decode_outline (s := ⟨chunk, .verbatim, none, depth⟩) rfl legible
  have recursive := decode_outline (s := ⟨chunk, .recursive, none, depth⟩) rfl legible
  cases scanned : outline line with
  | error fault =>
    simp only [scanned] at verbatim recursive
    rw [verbatim, recursive]
    refine ⟨by simp, ?_⟩
    rintro kept read same again
    obtain rfl := Except.error.inj same
    obtain rfl := Except.error.inj again
    exact .inl ⟨rfl, fun position same => scan_ne_unterminatedList position (same ▸ scanned)⟩
  | ok left =>
    simp only [scanned] at verbatim recursive
    cases left with
    | nil =>
      obtain ⟨values, whole⟩ : ∃ values, _ = Except.ok values := verbatim
      obtain ⟨others, nested⟩ : ∃ values, _ = Except.ok values := recursive
      rw [whole, nested]
      refine ⟨by simp, ?_⟩
      intro kept read failed
      contradiction
    | cons o outer =>
      have nonempty := List.cons_ne_nil o outer
      simp only [Nesting.blamed, List.getLast?_eq_some_getLast nonempty, List.head?_cons]
        at verbatim recursive
      rw [verbatim, recursive]
      refine ⟨by simp, ?_⟩
      rintro kept read same again
      obtain rfl := Except.error.inj same
      obtain rfl := Except.error.inj again
      exact .inr ⟨_, nonempty, rfl, rfl, rfl, getLast_le_head_outline scanned nonempty⟩

/-- Two lists are left open, and a parenthesis in a string counts for neither. -/
theorem decode_nestings_agree_sample :
    decode ⟨8, .verbatim, none, 4⟩ (ofText "[ü (b (\"\\\"(\" (c)") = .error (.unterminatedList 4) ∧
    decode ⟨8, .recursive, none, 4⟩ (ofText "[ü (b (\"\\\"(\" (c)") = .error (.unterminatedList 7) ∧
    ∃ left nonempty, outline (ofText "[ü (b (\"\\\"(\" (c)") = .ok left ∧
      left.getLast nonempty = 4 ∧ left.head nonempty = 7 := by
  have kept : decode ⟨8, .verbatim, none, 4⟩ (ofText "[ü (b (\"\\\"(\" (c)") =
      .error (.unterminatedList 4) := by
    decide +kernel
  have read : decode ⟨8, .recursive, none, 4⟩ (ofText "[ü (b (\"\\\"(\" (c)") =
      .error (.unterminatedList 7) := by
    decide +kernel
  refine ⟨kept, read, ?_⟩
  have agree := (decode_nestings_agree 8 4 (isText_ofText _) (by decide +kernel)
    (by decide +kernel)).2 _ _ kept read
  rcases agree with ⟨same, -⟩ | ⟨left, nonempty, scanned, outermost, innermost, -⟩
  · contradiction
  · exact ⟨left, nonempty, scanned, (Fault.unterminatedList.inj outermost).symm,
      (Fault.unterminatedList.inj innermost).symm⟩

end ImapReply
