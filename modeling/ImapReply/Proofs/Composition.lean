import ImapReply.Proofs.Continuation
import ImapReply.Proofs.Displacement
import Mathlib.Control.Monad.Basic

/-! Two lines with a space between them decode to the values of the one and then of the other, and
a fault in the second lies in the same place of it. Only brackets could join the two: the first
line must open none, and the second must not begin with one. -/
namespace ImapReply

open Octet Octets

namespace Collector

/-- The same collector above items that were there before. -/
def onto (older : List Value) (c : Collector) : Collector := { c with newest := c.newest ++ older }

variable (older : List Value) (c : Collector)

@[simp] theorem items_onto : (c.onto older).items = older.reverse ++ c.items := by
  simp [onto, items]

theorem push_onto (value : Value) : (c.onto older).push value = (c.push value).onto older := rfl

variable {c}

/-- Between lines that join nothing a collector is told by its items alone. -/
theorem eq_onto (mapsNil : c.mapsNil = true) (separate : c.joining = false) :
    c = onto c.newest { mapsNil := true } := by
  rcases c with ⟨_, _, newest⟩
  simp only at mapsNil separate
  simp [onto, mapsNil, separate]

theorem join_onto (nonempty : c.newest ≠ []) (text : String) (fresh : Value) :
    (c.onto older).join text fresh = (c.join text fresh).onto older := by
  rcases c with ⟨mapsNil, joining, _ | ⟨_ | items, newer⟩⟩
  · contradiction
  case atom text isNull => cases isNull <;> rfl
  · rfl

/-- An item already there is out of reach if there is a newer one, or if nothing is joined. -/
theorem add_onto {piece : Piece}
    (apart : c.newest ≠ [] ∨ c.joining = false ∧ ∃ token, piece = .token token) :
    (c.onto older).add piece = (c.add piece).onto older := by
  rcases apart with nonempty | ⟨separate, token, rfl⟩
  · cases piece with
    | openBracket | closeBracket => simp only [add, join_onto older nonempty]; rfl
    | token token =>
      by_cases joining : c.joining = true
      · have above : (c.onto older).joining = true := joining
        simp only [add, joining, above, ite_true, join_onto older nonempty]
        rfl
      · have above : (c.onto older).joining = false := Bool.eq_false_iff.mpr joining
        rw [add_token above, add_token (Bool.eq_false_iff.mpr joining)]
        rfl
  · have above : (c.onto older).joining = false := separate
    rw [add_token above, add_token separate]
    rfl

theorem newest_join_ne_nil (c : Collector) (text : String) (fresh : Value) :
    (c.join text fresh).newest ≠ [] := by
  unfold join
  split <;> simp

theorem newest_add_ne_nil (c : Collector) (piece : Piece) : (c.add piece).newest ≠ [] := by
  cases piece with
  | openBracket | closeBracket => exact newest_join_ne_nil c _ _
  | token token =>
    rw [add]
    split
    · exact newest_join_ne_nil c _ _
    · simp [push]

end Collector

/-- What comes next is joined to no item that the collector does not hold itself. -/
def Apart (c : Collector) (p : Point) : Prop :=
  c.newest ≠ [] ∨ c.joining = false ∧
    ∀ b, p.skipBlanks.rest.head? = some b → b ≠ openBracket ∧ b ≠ closeBracket

section Walk

variable {chunk : Nat} {list : ListReader} {c d : Collector} {p q : Point}

theorem Step.onto (older : List Value) (apart : Apart c p) (step : Step chunk list c p d q) :
    Step chunk list (c.onto older) p (d.onto older) q ∧ d.newest ≠ [] := by
  cases step with
  | @piece piece _ found =>
    have reach : c.newest ≠ [] ∨ c.joining = false ∧ ∃ token, piece = .token token := by
      refine apart.imp id fun ⟨separate, unbracketed⟩ => ⟨separate, ?_⟩
      cases piece with
      | openBracket => exact absurd rfl (unbracketed _ (Lexeme.start_of_here rfl found).1).1
      | closeBracket => exact absurd rfl (unbracketed _ (Lexeme.start_of_here rfl found).1).2
      | token token => exact ⟨token, rfl⟩
    rw [← Collector.add_onto older reach]
    exact ⟨.piece found, c.newest_add_ne_nil piece⟩
  | list found read =>
    rw [← Collector.push_onto]
    exact ⟨.list found read, by simp [Collector.push]⟩

theorem Walk.onto (older : List Value) (apart : Apart c p) (walk : Walk chunk list c p d q) :
    Walk chunk list (c.onto older) p (d.onto older) q := by
  induction walk with
  | here => exact .here
  | step step _ ih =>
    obtain ⟨first, nonempty⟩ := step.onto older apart
    exact .step first (ih (.inl nonempty))

theorem Step.separate (advancing : list.Advancing) (step : Step chunk list c p d q)
    (before : c.joining = false ∧ openBracket ∉ p.rest) :
    d.joining = false ∧ openBracket ∉ q.rest := by
  refine ⟨?_, fun member => before.2 ((step.reaches advancing).suffix.subset member)⟩
  cases step with
  | list => exact before.1
  | @piece piece _ found =>
    cases piece with
    | closeBracket => rfl
    | token token =>
      rw [Collector.add_token before.1]
      exact before.1
    | openBracket =>
      have first := (Lexeme.start_of_here rfl found).1
      exact absurd (p.reaches_skipBlanks.suffix.subset (List.mem_of_head? first)) before.2

/-- A line without an opening bracket joins nothing to what comes after it. -/
theorem Walk.separate (advancing : list.Advancing) (walk : Walk chunk list c p d q)
    (separate : c.joining = false) (unjoined : openBracket ∉ p.rest) : d.joining = false :=
  (walk.invariant (P := fun d q => d.joining = false ∧ openBracket ∉ q.rest)
    (fun step => step.separate advancing) ⟨separate, unjoined⟩).1

end Walk

namespace Point

@[simp] theorem skipBlanks_skipBlanks (p : Point) : p.skipBlanks.skipBlanks = p.skipBlanks :=
  skipBlanks_of_nonblank p.nonblank_skipBlanks

/-- The end of a line that goes on after a space is the start of what follows. -/
theorem skip_extend_space {q : Point} (back : List UInt8) :
    (q.extend (space :: back)).skip (q.rest.length + 1) =
      (start back).prepend (q.line ++ [space]) := by
  simp [extend, skip, start, prepend, line, List.take_append, List.drop_append,
    List.take_of_length_le (Nat.le_succ q.rest.length)]

/-- Blanks between two lines are blanks in front of the second. -/
theorem skipBlanks_extend_space {q : Point} (blank : ∀ b ∈ q.rest, isBlank b = true)
    (back : List UInt8) : (q.extend (space :: back)).skipBlanks =
      ((start back).prepend (q.line ++ [space])).skipBlanks := by
  have rest : (q.extend (space :: back)).rest = q.rest ++ [space] ++ back := by simp
  have between : ∀ b ∈ q.rest ++ [space], isBlank b = true := by
    intro b member
    rcases List.mem_append.mp member with before | last
    · exact blank b before
    · exact List.mem_singleton.mp last ▸ isBlank_space
  rw [skipBlanks_of_all between rest, List.length_append, List.length_singleton,
    skip_extend_space]

end Point

theorem Line.readValues_skipBlanks (s : Settings) (c : Collector) (p : Point) :
    readValues s c p.skipBlanks = readValues s c p := by
  rw [readValues_eq, readValues_eq]
  simp only [Lexeme.next, Point.skipBlanks_skipBlanks]

variable {s : Settings}

/-- The values of the first line stand in front of what the second line comes to. -/
theorem decode_append_eq (unlimited : s.maxLineLength = none) {front back : List UInt8}
    {values : List Value} (decoded : decode s front = .ok values)
    (unjoined : openBracket ∉ front)
    (unbracketed : ∀ b, (back.dropWhile isBlank).head? = some b →
      b ≠ openBracket ∧ b ≠ closeBracket) :
    decode s (front ++ space :: back) =
      displace (front.length + 1) (values ++ ·) (decode s back) := by
  have loop := Line.loop_readValues s
  rw [decode_eq_readValues unlimited] at decoded ⊢
  rw [decode_eq_readValues unlimited back]
  obtain ⟨d, q, walk, finished, rfl⟩ := Line.readValues_eq_ok_iff.mp decoded
  obtain ⟨e, r, halt, onward, halts, same⟩ := loop.exists_walk { mapsNil := true } (.start back)
  -- The first line, up to its end, and what the collector holds there.
  have bounded := bounded_space back
  have first := walk.extend bounded (Line.outermost_extend bounded)
  have separate := walk.separate (Line.advancing_outermost s) rfl unjoined
  have collected := Collector.eq_onto walk.mapsNil separate
  -- The second line, read behind the first.
  have announcing : Announcing (front ++ [space]).getLast? := by
    simp [Announcing]
  have behind := Line.outermost_prepend (s := s) announcing
  have blanks := Point.skipBlanks_extend_space (Lexeme.next_eq_none_iff.mp finished) back
  rw [(walk.reaches (Line.advancing_outermost s)).line, Point.line_start] at blanks
  have apart : Apart { mapsNil := true } ((Point.start back).prepend (front ++ [space])) := by
    refine .inr ⟨rfl, ?_⟩
    rw [Point.skipBlanks_prepend, Point.rest_prepend, Point.rest_skipBlanks]
    exact unbracketed
  have second := (onward.prepend behind).onto d.newest apart
  have whole : Line.readValues s { mapsNil := true } (.start (front ++ space :: back)) =
      endOfLine (r.prepend (front ++ [space])) (e.onto d.newest).items
        (halt.prepend (front ++ [space])) := by
    refine (loop.run_eq first).trans ?_
    rw [← Line.readValues_skipBlanks, blanks, Line.readValues_skipBlanks, collected]
    exact loop.eq_of_walk second (halts.prepend behind)
  have length : (front ++ [space]).length = front.length + 1 := by simp
  rw [whole, same, Collector.items_onto]
  cases halt with
  | finished => rfl
  | closing after => simp [Halt.prepend, endOfLine, displace, Fault.shift]
  | broken fault => simp only [Halt.prepend, endOfLine, displace, length]

/-- Two lines read as one, with a space between them, give the values of both; a fault in the second
line is the same fault, only further on. -/
theorem decode_append (unlimited : s.maxLineLength = none) {front back : List UInt8}
    {values : List Value} (decoded : decode s front = .ok values)
    (unjoined : openBracket ∉ front)
    (unbracketed : ∀ b, (back.dropWhile isBlank).head? = some b →
      b ≠ openBracket ∧ b ≠ closeBracket) :
    (∀ more, decode s back = .ok more →
      decode s (front ++ space :: back) = .ok (values ++ more)) ∧
    ∀ fault, decode s back = .error fault →
      decode s (front ++ space :: back) = .error (fault.shift (front.length + 1)) := by
  have whole := decode_append_eq unlimited decoded unjoined unbracketed
  constructor
  · intro more found
    rw [whole, found]
    rfl
  · intro fault failed
    rw [whole, failed]
    rfl

/-- A literal that holds parentheses stands in either line. The third line breaks off in its own
literal, and behind the first line it does so further on. -/
theorem decode_append_sample :
    decode ⟨8, .verbatim, none, 1⟩
        (ofText "a] (\x7b2\x7d() \"x\") \r" ++ space :: ofText "NIL (b (\x7b1\x7d) c)) d") =
      .ok ([.ofText "a]", .list [.ofText "()", .ofText "x"]] ++
        [.nil, .list [.ofText "b", .ofText "(\x7b1\x7d) c)"], .ofText "d"]) ∧
    decode ⟨8, .verbatim, none, 1⟩
        (ofText "a] (\x7b2\x7d() \"x\") \r" ++ space :: ofText "(b (\x7b2\x7d) c) \x7b4\x7dde") =
      .error (.truncatedLiteral (15 + 17) 4 2) := by
  have decoded : decode ⟨8, .verbatim, none, 1⟩ (ofText "a] (\x7b2\x7d() \"x\") \r") =
      .ok [.ofText "a]", .list [.ofText "()", .ofText "x"]] := by
    decide +kernel
  have unjoined : openBracket ∉ ofText "a] (\x7b2\x7d() \"x\") \r" := by decide +kernel
  have length : (ofText "a] (\x7b2\x7d() \"x\") \r").length + 1 = 17 := by decide +kernel
  constructor
  · exact (decode_append rfl decoded unjoined (by decide +kernel)).1 _ (by decide +kernel)
  · have failed : decode ⟨8, .verbatim, none, 1⟩ (ofText "(b (\x7b2\x7d) c) \x7b4\x7dde") =
        .error (.truncatedLiteral 15 4 2) := by
      decide +kernel
    have behind := (decode_append rfl decoded unjoined (by decide +kernel)).2 _ failed
    rwa [length] at behind

end ImapReply
