import ImapReply.Proofs.Layout
import ImapReply.Proofs.Walk

/-! Octets put in front of a line move what is read further along and change nothing else. A reader
looks behind itself only to see whether a token may start, so what stands in front has to leave
that open: it ends in a space or an opening parenthesis, or is nothing at all. -/
namespace ImapReply

open Octet

/-- The same fault, found further on in a line. A line that is too long is at fault as a whole. -/
def Fault.shift (n : Nat) : Fault → Fault
  | .unterminatedQuoted position => .unterminatedQuoted (position + n)
  | .unterminatedList position => .unterminatedList (position + n)
  | .invalidHeader position reason => .invalidHeader (position + n) reason
  | .truncatedLiteral position expected available =>
    .truncatedLiteral (position + n) expected available
  | .invalidText position => .invalidText (position + n)
  | .nestingTooDeep position max => .nestingTooDeep (position + n) max
  | .unexpected position found => .unexpected (position + n) found
  | .lineTooLong length max => .lineTooLong length max

/-- What is read, or the fault, `n` octets further on. -/
def displace {α β : Type} (n : Nat) (move : α → β) : Except Fault α → Except Fault β
  | .error fault => .error (fault.shift n)
  | .ok found => .ok (move found)

namespace Point

/-- The same place in a line with more octets in front. -/
def prepend (front : List UInt8) (p : Point) : Point := ⟨p.read ++ front.reverse, p.rest⟩

variable (front : List UInt8) (p : Point)

@[simp] theorem rest_prepend : (p.prepend front).rest = p.rest := rfl

@[simp] theorem offset_prepend : (p.prepend front).offset = p.offset + front.length := by
  simp [prepend, offset]

@[simp] theorem skip_prepend (n : Nat) : (p.prepend front).skip n = (p.skip n).prepend front := by
  simp [prepend, skip]

@[simp] theorem skipBlanks_prepend : (p.prepend front).skipBlanks = p.skipBlanks.prepend front :=
  skip_prepend front p _

theorem startsToken_prepend {front : List UInt8} (announcing : Announcing front.getLast?)
    (p : Point) : Literal.startsToken (p.prepend front) = Literal.startsToken p := by
  rcases p with ⟨_ | ⟨b, read⟩, rest⟩
  · rcases announcing with none | space | paren <;>
      simp [Literal.startsToken, behind, prepend, *]
  · rfl

end Point

/-- With what is read goes the point after it. -/
abbrev displacePoint {α : Type} (front : List UInt8) :
    Except Fault (α × Point) → Except Fault (α × Point) :=
  displace front.length (Prod.map id (Point.prepend front))

variable {front : List UInt8}

namespace Literal

theorem header_prepend (p : Point) :
    header (p.prepend front) = displace front.length id (header p) := by
  have judged (digits : List UInt8) (close : Nat) :
      Header.ofDigits (p.prepend front) digits close =
        displace front.length id (Header.ofDigits p digits close) := by
    unfold Header.ofDigits
    split
    · simp [displace, Fault.shift, Nat.add_right_comm]
    split
    · simp [displace, Fault.shift, Nat.add_right_comm]
    · rfl
  unfold header
  dsimp only
  rw [Point.rest_prepend, Point.offset_prepend]
  split
  · simp [displace, Fault.shift, Nat.add_right_comm]
  · split
    · exact judged _ _
    split
    · exact judged _ _
    · simp [displace, Fault.shift, Nat.add_right_comm]

theorem announced_prepend (p : Point) :
    announced (p.prepend front) = displace front.length id (announced p) := by
  unfold announced
  rw [header_prepend]
  cases header p with
  | error fault => rfl
  | ok h =>
    simp only [displace, id, Point.skip_prepend, Point.rest_prepend, Point.offset_prepend]
    split <;> rfl

theorem read_prepend (chunk : Nat) (p : Point) :
    read chunk (p.prepend front) = displacePoint front (read chunk p) := by
  unfold read
  rw [announced_prepend]
  cases announced p with
  | error fault => rfl
  | ok h =>
    simp only [displace, id, Point.skip_prepend, Point.rest_prepend, Point.offset_prepend]
    split <;> rfl

theorem extent_prepend (p : Point) :
    extent (p.prepend front) = displace front.length id (extent p) := by
  unfold extent
  rw [announced_prepend]
  cases announced p <;> rfl

end Literal

namespace Quoted

theorem read_prepend (p : Point) : read (p.prepend front) = displacePoint front (read p) := by
  unfold read
  simp only [Point.skip_prepend, Point.rest_prepend, Point.offset_prepend]
  split
  · rfl
  · split
    · simp only [displace, Fault.shift, Nat.add_right_comm]
    · rfl

theorem extent_prepend (p : Point) :
    extent (p.prepend front) = displace front.length id (extent p) := by
  unfold extent
  simp only [Point.rest_prepend, Point.offset_prepend]
  split <;> rfl

end Quoted

namespace Lexeme

theorem word_prepend (p : Point) : word (p.prepend front) = displacePoint front (word p) := by
  unfold word
  simp only [Point.skip_prepend, Point.rest_prepend, Point.offset_prepend]
  split <;> rfl

theorem asToken_displace (form : String → Token) (read : Except Fault (String × Point)) :
    asToken form (displacePoint front read) =
      displace front.length (Option.map (Prod.map id (Point.prepend front)))
        (asToken form read) := by
  cases read <;> rfl

theorem next_prepend (chunk : Nat) (p : Point) :
    next chunk (p.prepend front) =
      displace front.length (Option.map (Prod.map id (Point.prepend front))) (next chunk p) := by
  unfold next here
  rw [Point.skipBlanks_prepend, Point.rest_prepend]
  split
  · rfl
  next b tail start =>
    split
    · simp [displace]
    · simp [displace]
    · simp [displace]
    · simp [displace]
    · rw [Quoted.read_prepend, asToken_displace]
    · rw [Literal.read_prepend, asToken_displace]
    · rw [word_prepend, asToken_displace]
    · rw [word_prepend, asToken_displace]

end Lexeme

namespace VerbatimList

variable (announcing : Announcing front.getLast?)
include announcing

theorem stride_prepend (p : Point) (b : UInt8) :
    stride (p.prepend front) b = displace front.length id (stride p b) := by
  have opens : Literal.opensHeader (p.prepend front) = Literal.opensHeader p := by
    simp only [Literal.opensHeader, Point.startsToken_prepend announcing, Point.rest_prepend]
  unfold stride
  rw [opens]
  split
  · exact Quoted.extent_prepend p
  · split
    · exact Literal.extent_prepend p
    · rfl
  · rfl

theorem closeAfter_prepend (depth passed : Nat) (p : Point) :
    closeAfter depth passed (p.prepend front) =
      displace front.length id (closeAfter depth passed p) := by
  fun_induction closeAfter depth passed p with
  | case1 depth passed p finished =>
    rw [closeAfter_eq]
    simp only [Point.rest_prepend, finished, displace, id]
  | case2 depth passed p b tail start fault unread =>
    rw [closeAfter_eq]
    simp only [Point.rest_prepend, start, stride_prepend announcing, unread, displace]
  | case3 depth passed p b tail start n taken counted =>
    rw [closeAfter_eq]
    simp only [Point.rest_prepend, start, stride_prepend announcing, taken, counted, displace, id]
  | case4 depth passed p b tail start n taken deeper counted ih =>
    rw [closeAfter_eq]
    simp only [Point.rest_prepend, start, stride_prepend announcing, taken, counted, displace, id,
      Point.skip_prepend, ih]

theorem inner_prepend (opening p : Point) :
    inner (opening.prepend front) (p.prepend front) = displacePoint front (inner opening p) := by
  unfold inner
  simp only [Point.skip_prepend, closeAfter_prepend announcing, Point.rest_prepend,
    Point.offset_prepend]
  cases closeAfter 0 1 (p.skip 1) with
  | error fault => rfl
  | ok closed =>
    cases closed with
    | none => rfl
    | some n =>
      simp only [displace, id]
      split <;> rfl

end VerbatimList

/-- Where the one gives a list, the other gives it behind the octets in front. -/
def ListReader.Displaced (front : List UInt8) (list other : ListReader) : Prop :=
  ∀ p, other (p.prepend front) = displacePoint front (list p)

theorem ListReader.displaced_form {α : Type} {value : α → Value}
    {read other : Point → Except Fault (α × Point)}
    (displaced : ∀ p, other (p.prepend front) = displacePoint front (read p)) :
    Displaced front (fun p => form value (read p)) (fun p => form value (other p)) := by
  intro p
  dsimp only
  rw [displaced]
  cases read p <;> rfl

def Halt.prepend (front : List UInt8) : Halt → Halt
  | .finished => .finished
  | .closing after => .closing (after.prepend front)
  | .broken fault => .broken (fault.shift front.length)

section Walk

variable {chunk : Nat} {list other : ListReader} {c d : Collector} {p q : Point} {halt : Halt}

theorem Step.prepend (displaced : ListReader.Displaced front list other)
    (step : Step chunk list c p d q) :
    Step chunk other c (p.prepend front) d (q.prepend front) := by
  cases step with
  | piece found => exact .piece (by rw [Lexeme.next_prepend, found]; rfl)
  | list found read =>
    apply Step.list
    · rw [Lexeme.next_prepend, found]
      rfl
    · rw [Point.skipBlanks_prepend, displaced, read]
      rfl

theorem Walk.prepend (displaced : ListReader.Displaced front list other)
    (walk : Walk chunk list c p d q) :
    Walk chunk other c (p.prepend front) d (q.prepend front) :=
  walk.map (Point.prepend front) fun step => step.prepend displaced

theorem Halts.prepend (displaced : ListReader.Displaced front list other)
    (halts : Halts chunk list p halt) :
    Halts chunk other (p.prepend front) (halt.prepend front) := by
  cases halts with
  | finished found => exact .finished (by rw [Lexeme.next_prepend, found]; rfl)
  | closing found => exact .closing (by rw [Lexeme.next_prepend, found]; rfl)
  | lexeme failed => exact .lexeme (by rw [Lexeme.next_prepend, failed]; rfl)
  | list found failed =>
    apply Halts.list
    · rw [Lexeme.next_prepend, found]
      rfl
    · rw [Point.skipBlanks_prepend, displaced, failed]
      rfl

/-- A loop that reads a list reads it further on as well. -/
theorem Loop.prepend {opening : Point}
    {run runOn : Collector → Point → Except Fault (List Value × Point)}
    (loop : Loop chunk list (fun _ => endOfList opening) run)
    (loopOn : Loop chunk other (fun _ => endOfList (opening.prepend front)) runOn)
    (displaced : ListReader.Displaced front list other) (c : Collector) (p : Point) :
    runOn c (p.prepend front) = displacePoint front (run c p) := by
  obtain ⟨d, q, halt, walk, halts, same⟩ := loop.exists_walk c p
  rw [same, loopOn.eq_of_walk (walk.prepend displaced) (halts.prepend displaced)]
  cases halt with
  | finished => simp [Halt.prepend, endOfList, displace, Fault.shift]
  | closing | broken => rfl

end Walk

variable {s : Settings}

theorem VerbatimList.read_prepend (announcing : Announcing front.getLast?) (chunk : Nat)
    (p : Point) : read chunk (p.prepend front) = displacePoint front (read chunk p) := by
  have kept : ListReader.Displaced front (.kept p) (.kept (p.prepend front)) :=
    ListReader.displaced_form fun start => inner_prepend announcing p start
  rw [read, Point.skip_prepend]
  exact (loop_readItems chunk p).prepend (loop_readItems chunk _) kept _ _

theorem RecursiveList.read_prepend (room : Nat) (p : Point) :
    read s room (p.prepend front) = displacePoint front (read s room p) := by
  induction room generalizing p with
  | zero => simp [read, displace, Fault.shift]
  | succ room ih =>
    have nested : ListReader.Displaced front (.nested s room) (.nested s room) :=
      ListReader.displaced_form ih
    rw [read, Point.skip_prepend]
    exact (loop_readItems s room p).prepend (loop_readItems s room _) nested _ _

theorem Line.outermost_prepend (announcing : Announcing front.getLast?) :
    ListReader.Displaced front (.outermost s) (.outermost s) := by
  refine ListReader.displaced_form fun p => ?_
  unfold readList
  split
  · exact VerbatimList.read_prepend announcing s.literalChunk p
  · exact RecursiveList.read_prepend s.maxDepth p

end ImapReply
