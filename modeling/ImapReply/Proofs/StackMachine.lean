import ImapReply.Line
import ImapReply.Proofs.Spelling

/-! Recursive reading as a flat lexer that drives an explicit stack machine. The lexer knows nothing
of nesting; the machine sees offsets and lexemes only, never the line. A fault of the lexer lies at
the end of its tape, so it counts only if the machine accepts every lexeme before it. -/
namespace ImapReply

/-- Lexemes of a line with their offsets, up to its end or to the first that cannot be read. -/
inductive Tape where
  | done
  | broken (fault : Fault)
  | cons (offset : Nat) (lexeme : Lexeme) (later : Tape)

namespace Tape

def read (chunk : Nat) (p : Point) : Tape :=
  match _next : Lexeme.next chunk p with
  | .error fault => .broken fault
  | .ok none => .done
  | .ok (some (lexeme, after)) => .cons p.skipBlanks.offset lexeme (read chunk after)
termination_by p.rest.length
decreasing_by exact Lexeme.next_shorter _next

def ofLine (chunk : Nat) (line : List UInt8) : Tape := read chunk (.start line)

theorem read_eq (chunk : Nat) (p : Point) :
    read chunk p =
      match Lexeme.next chunk p with
      | .error fault => .broken fault
      | .ok none => .done
      | .ok (some (lexeme, after)) => .cons p.skipBlanks.offset lexeme (read chunk after) := by
  rw [read]
  split <;> simp_all

variable {chunk : Nat} {p : Point} {octets tail : List UInt8} {b : UInt8} {token : Token}

theorem read_end (finished : p.rest = []) : read chunk p = .done := by
  rw [read_eq, Lexeme.next_end finished]

theorem read_blank (start : p.rest = b :: tail) (blank : Octet.isBlank b = true) :
    read chunk p = read chunk (p.skip 1) := by
  rw [read_eq, read_eq, Lexeme.next_blank start blank, Point.skipBlanks_of_blank start blank]

theorem read_openParen (start : p.rest = Octet.openParen :: tail) :
    read chunk p = .cons p.offset .openParen (read chunk (p.skip 1)) := by
  rw [read_eq, Lexeme.next_openParen start, Point.skipBlanks_openParen start]

theorem read_closeParen (start : p.rest = Octet.closeParen :: tail) :
    read chunk p = .cons p.offset .closeParen (read chunk (p.skip 1)) := by
  rw [read_eq, Lexeme.next_closeParen start, Point.skipBlanks_closeParen start]

theorem read_spelled (start : p.rest = octets ++ tail) (spelled : token.Spelled octets)
    (ends : token.Ends tail) :
    read chunk p =
      .cons p.offset (.piece (.token token)) (read chunk (p.skip octets.length)) := by
  rw [read_eq, Lexeme.next_spelled start spelled ends,
    Point.skipBlanks_of_nonblank (start ▸ Lexeme.nonblank_of_spelled spelled)]

end Tape

/-- A list that has been opened and not closed. -/
structure Frame where
  opening : Nat
  collector : Collector

structure Machine where
  /-- Open lists, the innermost first. -/
  frames : List Frame
  top : Collector

namespace Machine

def initial : Machine := ⟨[], { mapsNil := true }⟩

def enter (m : Machine) (offset : Nat) : Machine :=
  { m with frames := ⟨offset, { mapsNil := true }⟩ :: m.frames }

/-- Changes the collector of the innermost list, or the one on top if no list is open. -/
def collect (m : Machine) (change : Collector → Collector) : Machine :=
  match m.frames with
  | [] => { m with top := change m.top }
  | frame :: outer =>
    { m with frames := { frame with collector := change frame.collector } :: outer }

def push (m : Machine) (value : Value) : Machine := m.collect (·.push value)

def step (max offset : Nat) (m : Machine) : Lexeme → Except Fault Machine
  | .openParen =>
    if max ≤ m.frames.length then .error (.nestingTooDeep offset max) else .ok (m.enter offset)
  | .closeParen =>
    match m.frames with
    | [] => .error (.unexpected offset ')')
    | frame :: outer => .ok ({ m with frames := outer }.push (.list frame.collector.items))
  | .piece piece => .ok (m.collect (·.add piece))

def finish (m : Machine) : Except Fault (List Value) :=
  match m.frames with
  | [] => .ok m.top.items
  | frame :: _ => .error (.unterminatedList frame.opening)

def run (max : Nat) (m : Machine) : Tape → Except Fault (List Value)
  | .done => m.finish
  | .broken fault => .error fault
  | .cons offset lexeme later =>
    match m.step max offset lexeme with
    | .error fault => .error fault
    | .ok m => m.run max later

def innermost (m : Machine) : Collector :=
  match m.frames with
  | [] => m.top
  | frame :: _ => frame.collector

/-- The next token becomes an item of its own, and a bare `NIL` the null atom. -/
def Plain (m : Machine) : Prop := m.innermost.joining = false ∧ m.innermost.mapsNil = true

def pushAll (m : Machine) (values : List Value) : Machine := values.foldl push m

theorem plain_initial : initial.Plain := ⟨rfl, rfl⟩

theorem plain_enter (m : Machine) (offset : Nat) : (m.enter offset).Plain := ⟨rfl, rfl⟩

@[simp] theorem innermost_push (m : Machine) (value : Value) :
    (m.push value).innermost = m.innermost.push value := by
  rcases m with ⟨_ | _, _⟩ <;> rfl

@[simp] theorem length_frames_push (m : Machine) (value : Value) :
    (m.push value).frames.length = m.frames.length := by
  rcases m with ⟨_ | _, _⟩ <;> rfl

theorem Plain.push {m : Machine} (plain : m.Plain) (value : Value) : (m.push value).Plain := by
  unfold Plain
  rw [innermost_push]
  exact plain

theorem collect_token {m : Machine} (plain : m.Plain) (token : Token) :
    m.collect (·.add (.token token)) = m.push (token.value true) := by
  rcases plain with ⟨separate, mapsNil⟩
  rcases m with ⟨_ | ⟨frame, outer⟩, top⟩ <;>
    simp_all [collect, Machine.push, innermost, Collector.add]

theorem pushAll_frame (opening : Nat) (outer : List Frame) (top c : Collector)
    (values : List Value) :
    pushAll ⟨⟨opening, c⟩ :: outer, top⟩ values =
      ⟨⟨opening, values.foldl Collector.push c⟩ :: outer, top⟩ := by
  induction values generalizing c with
  | nil => rfl
  | cons value values ih => exact ih (c.push value)

theorem items_foldl_push (c : Collector) (values : List Value) :
    (values.foldl Collector.push c).items = c.items ++ values := by
  induction values generalizing c with
  | nil => simp
  | cons value values ih => rw [List.foldl_cons, ih, Collector.items_push, List.append_assoc]; rfl

/-- A list that has been filled is handed to the collector around it. -/
theorem step_closeParen (max opening offset : Nat) (m : Machine) (values : List Value) :
    ((m.enter opening).pushAll values).step max offset .closeParen =
      .ok (m.push (.list values)) := by
  rw [enter, pushAll_frame]
  simp only [step, items_foldl_push]
  rfl

theorem finish_pushAll_initial (values : List Value) :
    (initial.pushAll values).finish = .ok values := by
  suffices general : ∀ top, (pushAll ⟨[], top⟩ values).finish = .ok (top.items ++ values) from
    general { mapsNil := true }
  induction values with
  | nil => intro top; rw [List.append_nil]; rfl
  | cons value values ih =>
    intro top
    refine (ih (top.push value)).trans ?_
    rw [Collector.items_push, List.append_assoc, List.singleton_append]

variable (s : Settings)

/-- What the machine does from a parenthesis on, given what it does inside the list. `room` is what
the frames still leave of the depth. -/
theorem run_openParen (room : Nat) (m : Machine) (p : Point)
    (balance : room + m.frames.length = s.maxDepth)
    (inside : ∀ left, room = left + 1 →
      run s.maxDepth (m.enter p.offset) (.read s.literalChunk (p.skip 1)) =
        match RecursiveList.readItems s left p { mapsNil := true } (p.skip 1) with
        | .error fault => .error fault
        | .ok (items, after) =>
          run s.maxDepth (m.push (.list items)) (.read s.literalChunk after)) :
    run s.maxDepth m (.cons p.offset .openParen (.read s.literalChunk (p.skip 1))) =
      match RecursiveList.read s room p with
      | .error fault => .error fault
      | .ok (items, after) =>
        run s.maxDepth (m.push (.list items)) (.read s.literalChunk after) := by
  cases room with
  | zero =>
    have full : s.maxDepth ≤ m.frames.length := by omega
    simp only [run, step, full, ite_true, RecursiveList.read]
  | succ left =>
    have free : ¬ s.maxDepth ≤ m.frames.length := by omega
    simp only [run, step, free, ite_false, RecursiveList.read]
    exact inside left rfl

/-- Reading the rest of one list is running the machine until its frame is popped. -/
theorem run_list (room : Nat) (opening : Point) (c : Collector) (m : Machine) (p : Point)
    (balance : room + (m.frames.length + 1) = s.maxDepth) :
    run s.maxDepth ⟨⟨opening.offset, c⟩ :: m.frames, m.top⟩ (.read s.literalChunk p) =
      match RecursiveList.readItems s room opening c p with
      | .error fault => .error fault
      | .ok (items, after) =>
        run s.maxDepth (m.push (.list items)) (.read s.literalChunk after) := by
  induction length : p.rest.length using Nat.strongRecOn generalizing room opening c m p with
  | ind n ih =>
    rw [Tape.read_eq, RecursiveList.readItems_eq]
    cases found : Lexeme.next s.literalChunk p with
    | error fault => rfl
    | ok next =>
      rcases next with _ | ⟨lexeme, after⟩
      · rfl
      have shorter := Lexeme.next_shorter found
      cases lexeme with
      | closeParen => rfl
      | piece piece => exact ih _ (length ▸ shorter) room opening (c.add piece) m after balance rfl
      | openParen =>
        obtain rfl := Lexeme.after_openParen found
        have reads := run_openParen s room ⟨⟨opening.offset, c⟩ :: m.frames, m.top⟩ p.skipBlanks
          balance fun left same => ih _ (length ▸ shorter) left p.skipBlanks { mapsNil := true } _ _
            (by simp only [List.length_cons]; omega) rfl
        simp only [reads]
        cases list : RecursiveList.read s room p.skipBlanks with
        | error fault => rfl
        | ok read =>
          rcases read with ⟨items, later⟩
          have nearer := RecursiveList.read_shorter list
          have := p.length_rest_skipBlanks_le
          exact ih _ (by omega) room opening (c.push (.list items)) m later balance rfl

theorem run_top (recursive : s.nesting = .recursive) (c : Collector) (p : Point) :
    run s.maxDepth ⟨[], c⟩ (.read s.literalChunk p) = Line.readValues s c p := by
  induction length : p.rest.length using Nat.strongRecOn generalizing c p with
  | ind n ih =>
    rw [Tape.read_eq, Line.readValues_eq]
    cases found : Lexeme.next s.literalChunk p with
    | error fault => rfl
    | ok next =>
      rcases next with _ | ⟨lexeme, after⟩
      · rfl
      have shorter := Lexeme.next_shorter found
      cases lexeme with
      | closeParen => rfl
      | piece piece => exact ih _ (length ▸ shorter) (c.add piece) after rfl
      | openParen =>
        obtain rfl := Lexeme.after_openParen found
        have reads := run_openParen s s.maxDepth ⟨[], c⟩ p.skipBlanks rfl
          fun left same => run_list s left p.skipBlanks { mapsNil := true } ⟨[], c⟩ _ same.symm
        simp only [reads, Line.readList, recursive]
        cases list : RecursiveList.read s s.maxDepth p.skipBlanks with
        | error fault => rfl
        | ok read =>
          rcases read with ⟨items, later⟩
          have nearer := RecursiveList.read_shorter list
          have := p.length_rest_skipBlanks_le
          exact ih _ (by omega) (c.push (.list items)) later rfl

theorem readValues_recursive (line : List UInt8) :
    Line.readValues { s with nesting := .recursive } { mapsNil := true } (.start line) =
      initial.run s.maxDepth (.ofLine s.literalChunk line) :=
  (run_top { s with nesting := .recursive } rfl { mapsNil := true } (.start line)).symm

/-- Recursive decoding is the machine run on the tape of the line, faults included. -/
theorem decode_recursive_eq_run (line : List UInt8) :
    decode { s with nesting := .recursive } line =
      match s.maxLineLength.filter (· < line.length) with
      | some max => .error (.lineTooLong line.length max)
      | none => initial.run s.maxDepth (.ofLine s.literalChunk line) := by
  cases tooLong : s.maxLineLength.filter (· < line.length) with
  | some max => simp only [decode, tooLong]
  | none =>
    simp only [decode, tooLong]
    exact readValues_recursive s line

end Machine

end ImapReply
