import ImapReply.Proofs.Diagnosis
import ImapReply.Proofs.Enclosure

/-! The limit on depth only cuts off. What it does not stop is read as it would be under any higher
limit, and under a higher limit reading is stopped further on in the line, if it is stopped. -/
namespace ImapReply

open Octet Octets

/-- What the limit on depth does not stop in the one comes out the same in the other. -/
def Settles {α : Type} (low high : Except Fault α) : Prop :=
  (∀ position max, low ≠ .error (.nestingTooDeep position max)) → high = low

/-- Reading is stopped for the sake of depth only past the offset. -/
def Fault.Past (offset : Nat) (fault : Fault) : Prop :=
  ∀ position max, fault = .nestingTooDeep position max → offset < position

def Halt.Past (offset : Nat) : Halt → Prop
  | .finished => True
  | .closing after => offset < after.offset
  | .broken fault => fault.Past offset

namespace ListReader

/-- What is read ends past the offset, or is stopped there. -/
def Past (offset : Nat) : Except Fault (Value × Point) → Prop
  | .error fault => fault.Past offset
  | .ok (_, after) => offset < after.offset

theorem past_endOfList {offset : Nat} {opening : Point} {items : List Value} {halt : Halt}
    (past : halt.Past offset) : Past offset (form .list (endOfList opening items halt)) := by
  cases halt with
  | finished => exact fun position max same => nomatch same
  | closing | broken => exact past

theorem settles_form {α : Type} {value : α → Value} {low high : Except Fault (α × Point)}
    (settles : Settles low high) : Settles (form value low) (form value high) := by
  intro unstopped
  rw [settles]
  intro position max stopped
  exact unstopped position max (form_eq_error_iff.mpr stopped)

end ListReader

theorem Point.Reaches.offset_le {p q : Point} (reaches : p.Reaches q) : p.offset ≤ q.offset :=
  reaches.read_suffix.length_le

/-- No lexeme is too deep. -/
theorem Lexeme.next_fault_past {chunk : Nat} {p : Point} {fault : Fault}
    (failed : next chunk p = .error fault) (offset : Nat) : fault.Past offset := by
  rintro position max rfl
  have described : (Fault.nestingTooDeep position max).Describes .standard p.line :=
    next_fault_describes failed
  exact absurd described.1 (by decide)

section Walk

variable {chunk offset : Nat} {list other : ListReader} {c d : Collector} {p q : Point}
  {halt : Halt}

theorem Halts.past (past : ∀ p : Point, offset < p.offset → ListReader.Past offset (list p))
    (beyond : offset < p.offset) (halts : Halts chunk list p halt) : halt.Past offset := by
  cases halts with
  | finished => trivial
  | closing found => exact Nat.lt_of_lt_of_le beyond (Lexeme.next_reaches found).offset_le
  | lexeme failed => exact Lexeme.next_fault_past failed offset
  | list found failed =>
    have here := past p.skipBlanks (Nat.lt_of_lt_of_le beyond p.reaches_skipBlanks.offset_le)
    rwa [failed] at here

/-- An ending that reports a fault for the sake of depth only where a list was too deep. -/
def Passive {α : Type} (ending : Point → List Value → Halt → Except Fault α) : Prop :=
  (∀ p items fault, ending p items (.broken fault) = .error fault) ∧
  ∀ {p items halt position max}, ending p items halt = .error (.nestingTooDeep position max) →
    halt = .broken (.nestingTooDeep position max)

theorem passive_endOfList (opening : Point) : Passive fun _ => endOfList opening := by
  refine ⟨fun _ _ _ => rfl, ?_⟩
  intro p items halt position max stopped
  cases halt with
  | finished | closing => simp [endOfList] at stopped
  | broken fault => rw [Except.error.inj stopped]

theorem passive_endOfLine : Passive endOfLine := by
  refine ⟨fun _ _ _ => rfl, ?_⟩
  intro p items halt position max stopped
  cases halt with
  | finished | closing => simp [endOfLine] at stopped
  | broken fault => rw [Except.error.inj stopped]

theorem Step.settles (settles : ∀ p, Settles (list p) (other p))
    (step : Step chunk list c p d q) : Step chunk other c p d q := by
  refine step.mono fun {p after v} read => ?_
  rw [← read]
  exact settles p (by simp [read])

theorem Walk.settles (settles : ∀ p, Settles (list p) (other p))
    (walk : Walk chunk list c p d q) : Walk chunk other c p d q :=
  walk.map id (Step.settles settles)

namespace Loop

variable {α : Type} {ending : Point → List Value → Halt → Except Fault α}
  {low high : Collector → Point → Except Fault α}

theorem settles (passive : Passive ending) (loop : Loop chunk list ending low)
    (loopOn : Loop chunk other ending high) (lists : ∀ p, Settles (list p) (other p))
    (c : Collector) (p : Point) : Settles (low c p) (high c p) := by
  intro unstopped
  obtain ⟨d, q, halt, walk, halts, result⟩ := loop.exists_walk c p
  rw [result] at unstopped ⊢
  refine loopOn.eq_of_walk (walk.settles lists) ?_
  cases halts with
  | finished found => exact .finished found
  | closing found => exact .closing found
  | lexeme failed => exact .lexeme failed
  | @list start fault found failed =>
    refine .list found ?_
    rw [← failed]
    refine lists _ fun position max stopped => unstopped position max ?_
    rw [passive.1, Except.error.inj (failed.symm.trans stopped)]

/-- Where the lower limit stops a walk at a list, the higher one lets it past that place. -/
theorem past (passive : Passive ending) (loop : Loop chunk list ending low)
    (loopOn : Loop chunk other ending high) (lists : ∀ p, Settles (list p) (other p))
    (advancing : other.Advancing) {position max : Nat}
    (further : ∀ p : Point, position < p.offset → ListReader.Past position (other p))
    (overtakes : ∀ p : Point, p.rest.head? = some openParen →
      list p = .error (.nestingTooDeep position max) → ListReader.Past position (other p))
    (stopped : low c p = .error (.nestingTooDeep position max)) :
    ∃ (d : Collector) (q : Point) (halt : Halt),
      high c p = ending q d.items halt ∧ halt.Past position := by
  obtain ⟨d, q, halt, walk, halts, result⟩ := loop.exists_walk c p
  obtain rfl := passive.2 (result.symm.trans stopped)
  have same := loopOn.run_eq (walk.settles lists)
  cases halts with
  | lexeme failed =>
    exact absurd (Lexeme.next_fault_past failed position position max rfl) (Nat.lt_irrefl _)
  | list found failed =>
    have there := overtakes q.skipBlanks (Lexeme.start_of_here rfl found).1 failed
    cases read : other q.skipBlanks with
    | error fault =>
      rw [read] at there
      exact ⟨d, q, .broken fault, same.trans (loopOn.halts (.list found read)), there⟩
    | ok result =>
      rcases result with ⟨v, after⟩
      rw [read] at there
      obtain ⟨e, r, halt, onward, halts, last⟩ := loopOn.exists_walk (d.push v) after
      refine ⟨e, r, halt, ?_, halts.past further ?_⟩
      · rw [same, loopOn.step (.list found read), last]
      · exact Nat.lt_of_lt_of_le there (onward.reaches advancing).offset_le

end Loop

end Walk

namespace RecursiveList

open ListReader

variable {s t : Settings} {room more : Nat}

theorem settles_read (chunk : s.literalChunk = t.literalChunk) (le : room ≤ more) (p : Point) :
    Settles (read s room p) (read t more p) := by
  induction room generalizing more p with
  | zero => exact fun unstopped => absurd rfl (unstopped p.offset s.maxDepth)
  | succ room ih =>
    obtain ⟨more, rfl⟩ := Nat.exists_eq_add_one_of_ne_zero (Nat.ne_zero_of_lt le)
    have loop := loop_readItems s room p
    rw [chunk] at loop
    exact loop.settles (passive_endOfList p) (loop_readItems t more p)
      (fun start => settles_form (ih (Nat.le_of_succ_le_succ le) start)) _ _

theorem past_of_inside {offset : Nat} {p : Point}
    (past : ∀ p : Point, offset < p.offset → Past offset (nested t room p))
    (inside : offset < (p.skip 1).offset) : Past offset (nested t (room + 1) p) := by
  obtain ⟨d, q, halt, walk, halts, result⟩ :=
    (loop_readItems t room p).exists_walk { mapsNil := true } (p.skip 1)
  have reached := (walk.reaches (advancing_nested t room)).offset_le
  simp only [nested, read, result]
  exact past_endOfList (halts.past past (Nat.lt_of_lt_of_le inside reached))

theorem past_of_offset {offset : Nat} (room : Nat) (p : Point) (beyond : offset < p.offset) :
    Past offset (nested t room p) := by
  induction room generalizing p with
  | zero =>
    rintro position max same
    obtain ⟨rfl, -⟩ := Fault.nestingTooDeep.inj same
    exact beyond
  | succ room ih =>
    exact past_of_inside ih (Nat.lt_of_lt_of_le beyond (p.reaches_skip 1).offset_le)

/-- One more level is enough to come past the place where reading was stopped. -/
theorem past_of_tooDeep (chunk : s.literalChunk = t.literalChunk) (lt : room < more) {p : Point}
    {position max : Nat} (opens : p.rest.head? = some openParen)
    (stopped : nested s room p = .error (.nestingTooDeep position max)) :
    Past position (nested t more p) := by
  induction room generalizing more p with
  | zero =>
    obtain ⟨more, rfl⟩ := Nat.exists_eq_add_one_of_ne_zero (Nat.ne_zero_of_lt lt)
    obtain ⟨rfl, -⟩ := Fault.nestingTooDeep.inj (Except.error.inj stopped)
    obtain ⟨tail, start⟩ := List.head?_eq_some_iff.mp opens
    exact past_of_inside (past_of_offset more) (by simp [start])
  | succ room ih =>
    obtain ⟨more, rfl⟩ := Nat.exists_eq_add_one_of_ne_zero (Nat.ne_zero_of_lt lt)
    have loop := loop_readItems s room p
    rw [chunk] at loop
    have lists (start : Point) : Settles (nested s room start) (nested t more start) :=
      settles_form (settles_read chunk (by omega) start)
    obtain ⟨d, q, halt, result, there⟩ := loop.past (passive_endOfList p)
      (loop_readItems t more p) lists (advancing_nested t more) (past_of_offset more)
      (fun start opens => ih (by omega) opens) (form_eq_error_iff.mp stopped)
    simp only [nested, read, result]
    exact past_endOfList there

end RecursiveList

section Depth

variable {chunk low high : Nat} {limit : Option Nat} {line : List UInt8}

theorem Line.outermost_recursive {s : Settings} (nesting : s.nesting = .recursive) :
    ListReader.outermost s = ListReader.nested s s.maxDepth := by
  funext p
  rw [ListReader.outermost, ListReader.nested, readList_recursive nesting]

theorem Line.loop_recursive (chunk : Nat) (limit : Option Nat) (depth : Nat) :
    Loop chunk (ListReader.nested ⟨chunk, .recursive, limit, depth⟩ depth) endOfLine
      (readValues ⟨chunk, .recursive, limit, depth⟩) := by
  have loop := loop_readValues ⟨chunk, .recursive, limit, depth⟩
  rwa [outermost_recursive rfl] at loop

theorem settles_nested (le : low ≤ high) (p : Point) :
    Settles (ListReader.nested ⟨chunk, .recursive, limit, low⟩ low p)
      (ListReader.nested ⟨chunk, .recursive, limit, high⟩ high p) := by
  apply ListReader.settles_form
  exact RecursiveList.settles_read (s := ⟨chunk, .recursive, limit, low⟩)
    (t := ⟨chunk, .recursive, limit, high⟩) rfl le p

theorem settles_decode (le : low ≤ high) (line : List UInt8) :
    Settles (decode ⟨chunk, .recursive, limit, low⟩ line)
      (decode ⟨chunk, .recursive, limit, high⟩ line) := by
  unfold decode
  dsimp only
  split
  · exact fun _ => rfl
  · exact (Line.loop_recursive chunk limit low).settles passive_endOfLine
      (Line.loop_recursive chunk limit high) (settles_nested le) _ _

/-- Under a higher limit a line may still be too deep, but not so early. -/
theorem decode_tooDeep_lt (lt : low < high) {position further max bound : Nat}
    (stopped : decode ⟨chunk, .recursive, limit, low⟩ line = .error (.nestingTooDeep position max))
    (again : decode ⟨chunk, .recursive, limit, high⟩ line =
      .error (.nestingTooDeep further bound)) :
    position < further := by
  unfold decode at stopped again
  dsimp only at stopped again
  split at stopped
  · simp at stopped
  next short =>
    simp only [short] at again
    have overtakes (p : Point) (opens : p.rest.head? = some openParen) :
        ListReader.nested ⟨chunk, .recursive, limit, low⟩ low p =
            .error (.nestingTooDeep position max) →
          ListReader.Past position (ListReader.nested ⟨chunk, .recursive, limit, high⟩ high p) :=
      RecursiveList.past_of_tooDeep (s := ⟨chunk, .recursive, limit, low⟩)
        (t := ⟨chunk, .recursive, limit, high⟩) rfl lt opens
    obtain ⟨d, q, halt, result, past⟩ := (Line.loop_recursive chunk limit low).past
      passive_endOfLine (Line.loop_recursive chunk limit high)
      (settles_nested (Nat.le_of_lt lt)) (RecursiveList.advancing_nested _ high)
      (RecursiveList.past_of_offset high) overtakes stopped
    obtain rfl := passive_endOfLine.2 (result.symm.trans again)
    exact past further bound rfl

/-- As many levels as there are parentheses are always enough. -/
theorem decode_ne_tooDeep (enough : line.count openParen ≤ low) (position max : Nat) :
    decode ⟨chunk, .recursive, limit, low⟩ line ≠ .error (.nestingTooDeep position max) := by
  unfold decode
  dsimp only
  split
  · exact fun same => nomatch same
  intro stopped
  obtain ⟨-, rfl, here, spent⟩ :
      (Fault.nestingTooDeep position max).Describes _ (Point.start line).line :=
    Line.readValues_fault_describes stopped
  rw [Point.line_start] at here spent
  have one : line.take (position + 1) = line.take position ++ [openParen] := by
    rw [List.take_add_one, here]
    rfl
  have fewer := (List.take_sublist (position + 1) line).count_le openParen
  rw [one, List.count_append, List.count_singleton_self] at fewer
  omega

/-- What the limit on depth does not stop is the same under any higher limit. What it stops at some
place may be stopped again under a higher limit, but only further on. -/
theorem depth_limit_only_cuts (chunk : Nat) (limit : Option Nat) (line : List UInt8)
    {low high : Nat} (le : low ≤ high) :
    ((∀ position max, decode ⟨chunk, .recursive, limit, low⟩ line ≠
        .error (.nestingTooDeep position max)) →
      decode ⟨chunk, .recursive, limit, high⟩ line =
        decode ⟨chunk, .recursive, limit, low⟩ line) ∧
    (low < high → ∀ position max further bound,
      decode ⟨chunk, .recursive, limit, low⟩ line = .error (.nestingTooDeep position max) →
      decode ⟨chunk, .recursive, limit, high⟩ line = .error (.nestingTooDeep further bound) →
      position < further) ∧
    (line.count openParen ≤ low → ∀ position max,
      decode ⟨chunk, .recursive, limit, low⟩ line ≠ .error (.nestingTooDeep position max)) :=
  ⟨settles_decode le line, fun lt _ _ _ _ => decode_tooDeep_lt lt, decode_ne_tooDeep⟩

/-- Parentheses in a string open no list. Reading is stopped at the first list in the list, then at
the first list in that, and then not at all. -/
theorem depth_limit_only_cuts_sample :
    decode ⟨8, .recursive, none, 4⟩ (ofText "(a \"((\" (b) ((c)))") =
      decode ⟨8, .recursive, none, 3⟩ (ofText "(a \"((\" (b) ((c)))") ∧
    decode ⟨8, .recursive, none, 1⟩ (ofText "(a \"((\" (b) ((c)))") =
      .error (.nestingTooDeep 8 1) ∧
    decode ⟨8, .recursive, none, 2⟩ (ofText "(a \"((\" (b) ((c)))") =
      .error (.nestingTooDeep 13 2) ∧
    8 < 13 ∧
    decode ⟨8, .recursive, none, 6⟩ (ofText "(a \"((\" (b) ((c)))") ≠
      .error (.nestingTooDeep 13 6) := by
  have first : decode ⟨8, .recursive, none, 1⟩ (ofText "(a \"((\" (b) ((c)))") =
      .error (.nestingTooDeep 8 1) := by
    decide +kernel
  have second : decode ⟨8, .recursive, none, 2⟩ (ofText "(a \"((\" (b) ((c)))") =
      .error (.nestingTooDeep 13 2) := by
    decide +kernel
  have whole : decode ⟨8, .recursive, none, 3⟩ (ofText "(a \"((\" (b) ((c)))") =
      .ok [.list [.ofText "a", .ofText "((", .list [.ofText "b"],
        .list [.list [.ofText "c"]]]] := by
    decide +kernel
  refine ⟨?_, first, second, ?_, ?_⟩
  · refine (depth_limit_only_cuts 8 none _ (by decide)).1 fun position max stopped => ?_
    rw [whole] at stopped
    contradiction
  · exact (depth_limit_only_cuts 8 none _ (by decide)).2.1 (by decide) 8 1 13 2 first second
  · exact (depth_limit_only_cuts 8 none _ (Nat.le_refl 6)).2.2 (by decide +kernel) 13 6

end Depth

end ImapReply
