import ImapReply.Line

/-! The loops that read elements, step by step. A step takes a token, a bracket or a whole list into
the collector, and a walk is a run of steps. The loops differ in how they read a list and in what
they make of the place where no further step can be taken, not in the walk up to there. -/
namespace ImapReply

namespace Point

/-- `q` lies in the line of `p`, at `p` or further on. -/
def Reaches (p q : Point) : Prop := ∃ n, q = p.skip n

theorem Reaches.refl (p : Point) : p.Reaches p := ⟨0, by simp [skip]⟩

theorem reaches_skip (p : Point) (n : Nat) : p.Reaches (p.skip n) := ⟨n, rfl⟩

theorem reaches_skipBlanks (p : Point) : p.Reaches p.skipBlanks := reaches_skip p _

theorem Reaches.trans {p q r : Point} (first : p.Reaches q) (second : q.Reaches r) :
    p.Reaches r := by
  rcases first with ⟨m, rfl⟩
  rcases second with ⟨n, rfl⟩
  exact ⟨m + n, p.skip_skip m n⟩

theorem Reaches.line {p q : Point} (reaches : p.Reaches q) : q.line = p.line := by
  rcases reaches with ⟨n, rfl⟩
  exact p.line_skip n

theorem Reaches.suffix {p q : Point} (reaches : p.Reaches q) : q.rest <:+ p.rest := by
  rcases reaches with ⟨n, rfl⟩
  exact List.drop_suffix n p.rest

theorem Reaches.read_suffix {p q : Point} (reaches : p.Reaches q) : p.read <:+ q.read := by
  rcases reaches with ⟨n, rfl⟩
  exact List.suffix_append _ _

end Point

theorem Lexeme.next_reaches {chunk : Nat} {p after : Point} {lexeme : Lexeme}
    (found : next chunk p = .ok (some (lexeme, after))) : p.Reaches after := by
  obtain ⟨-, n, rfl⟩ := next_skip found
  exact p.reaches_skipBlanks.trans (Point.reaches_skip _ _)

/-- Reads the list whose parenthesis is at a point. -/
abbrev ListReader := Point → Except Fault (Value × Point)

namespace ListReader

/-- The value of what was read, with the point after it. -/
def form {α : Type} (value : α → Value) : Except Fault (α × Point) → Except Fault (Value × Point)
  | .error fault => .error fault
  | .ok (found, after) => .ok (value found, after)

/-- Inside the list from `opening` a list is kept as text. -/
def kept (opening : Point) : ListReader := fun p => form .ofText (VerbatimList.inner opening p)

/-- Lists may be opened `room` levels deep. -/
def nested (s : Settings) (room : Nat) : ListReader :=
  fun p => form .list (RecursiveList.read s room p)

def outermost (s : Settings) : ListReader := fun p => form .list (Line.readList s p)

variable {α : Type} {value : α → Value} {result : Except Fault (α × Point)}

theorem form_eq_ok_iff {v : Value} {after : Point} :
    form value result = .ok (v, after) ↔
      ∃ found, result = .ok (found, after) ∧ v = value found := by
  cases result with
  | error fault => simp [form]
  | ok read =>
    rcases read with ⟨found, later⟩
    simp only [form, Except.ok.injEq, Prod.mk.injEq]
    constructor
    · rintro ⟨rfl, rfl⟩
      exact ⟨found, ⟨rfl, rfl⟩, rfl⟩
    · rintro ⟨_, ⟨rfl, rfl⟩, rfl⟩
      exact ⟨rfl, rfl⟩

theorem form_eq_error_iff {fault : Fault} :
    form value result = .error fault ↔ result = .error fault := by
  cases result with
  | error other => simp [form]
  | ok read => simp [form]

/-- A list that is read takes something of the line with it. -/
def Consuming (list : ListReader) : Prop :=
  ∀ {p after : Point} {v : Value}, list p = .ok (v, after) → after.rest.length < p.rest.length

/-- Reading never goes back and never leaves the line. -/
def Advancing (list : ListReader) : Prop :=
  ∀ {p after : Point} {v : Value}, list p = .ok (v, after) → p.Reaches after

end ListReader

/-- One element, taken into the collector. -/
inductive Step (chunk : Nat) (list : ListReader) (c : Collector) (p : Point) :
    Collector → Point → Prop
  | piece {piece : Piece} {after : Point} :
      Lexeme.next chunk p = .ok (some (.piece piece, after)) →
      Step chunk list c p (c.add piece) after
  | list {start after : Point} {value : Value} :
      Lexeme.next chunk p = .ok (some (.openParen, start)) →
      list p.skipBlanks = .ok (value, after) → Step chunk list c p (c.push value) after

inductive Walk (chunk : Nat) (list : ListReader) : Collector → Point → Collector → Point → Prop
  | here {c : Collector} {p : Point} : Walk chunk list c p c p
  | step {c d e : Collector} {p q r : Point} :
      Step chunk list c p d q → Walk chunk list d q e r → Walk chunk list c p e r

/-- What a walk comes to in the end. -/
inductive Halt where
  /-- The line is over. -/
  | finished
  /-- A list is closed, and this is the point after its parenthesis. -/
  | closing (after : Point)
  | broken (fault : Fault)

inductive Halts (chunk : Nat) (list : ListReader) (p : Point) : Halt → Prop
  | finished : Lexeme.next chunk p = .ok none → Halts chunk list p .finished
  | closing {after : Point} : Lexeme.next chunk p = .ok (some (.closeParen, after)) →
      Halts chunk list p (.closing after)
  | lexeme {fault : Fault} : Lexeme.next chunk p = .error fault →
      Halts chunk list p (.broken fault)
  | list {start : Point} {fault : Fault} :
      Lexeme.next chunk p = .ok (some (.openParen, start)) →
      list p.skipBlanks = .error fault → Halts chunk list p (.broken fault)

/-- How a list from `opening` ends. -/
def endOfList (opening : Point) (items : List Value) : Halt → Except Fault (List Value × Point)
  | .finished => .error (.unterminatedList opening.offset)
  | .closing after => .ok (items, after)
  | .broken fault => .error fault

/-- How a line ends whose elements have been read up to the point. -/
def endOfLine (p : Point) (items : List Value) : Halt → Except Fault (List Value)
  | .finished => .ok items
  | .closing _ => .error (.unexpected p.skipBlanks.offset ')')
  | .broken fault => .error fault

section Walk

variable {chunk : Nat} {list : ListReader} {c d : Collector} {p q : Point} {halt : Halt}

/-- What every step keeps, a walk keeps. -/
theorem Walk.invariant {P : Collector → Point → Prop}
    (kept : ∀ {c d : Collector} {p q : Point}, Step chunk list c p d q → P c p → P d q)
    (walk : Walk chunk list c p d q) (holds : P c p) : P d q := by
  induction walk with
  | here => exact holds
  | step step _ ih => exact ih (kept step holds)

/-- Where every step can be taken elsewhere, a walk can. -/
theorem Walk.map {other : ListReader} (move : Point → Point)
    (like : ∀ {c d : Collector} {p q : Point}, Step chunk list c p d q →
      Step chunk other c (move p) d (move q))
    (walk : Walk chunk list c p d q) : Walk chunk other c (move p) d (move q) := by
  induction walk with
  | here => exact .here
  | step step _ ih => exact .step (like step) ih

theorem Step.reaches (advancing : list.Advancing) (step : Step chunk list c p d q) :
    p.Reaches q := by
  cases step with
  | piece found => exact Lexeme.next_reaches found
  | list found read => exact p.reaches_skipBlanks.trans (advancing read)

theorem Walk.reaches (advancing : list.Advancing) (walk : Walk chunk list c p d q) :
    p.Reaches q :=
  walk.invariant (P := fun _ q => p.Reaches q)
    (fun step reached => reached.trans (step.reaches advancing)) (.refl p)

theorem Step.mapsNil (step : Step chunk list c p d q) : d.mapsNil = c.mapsNil := by
  cases step with
  | piece found => exact c.mapsNil_add _
  | list found read => exact c.mapsNil_push _

theorem Walk.mapsNil (walk : Walk chunk list c p d q) : d.mapsNil = c.mapsNil :=
  walk.invariant (P := fun d _ => d.mapsNil = c.mapsNil)
    (fun step same => step.mapsNil.trans same) rfl

/-- Every walk can be taken to a place where it halts. -/
theorem exists_halt (chunk : Nat) {list : ListReader} (consuming : list.Consuming)
    (c : Collector) (p : Point) :
    ∃ d q halt, Walk chunk list c p d q ∧ Halts chunk list q halt := by
  induction length : p.rest.length using Nat.strongRecOn generalizing c p with
  | ind n ih =>
    have fewer := p.length_rest_skipBlanks_le
    cases found : Lexeme.next chunk p with
    | error fault => exact ⟨c, p, _, .here, .lexeme found⟩
    | ok next =>
      rcases next with _ | ⟨lexeme, after⟩
      · exact ⟨c, p, _, .here, .finished found⟩
      cases lexeme with
      | closeParen => exact ⟨c, p, _, .here, .closing found⟩
      | piece piece =>
        have shorter := Lexeme.next_shorter found
        obtain ⟨d, q, halt, walk, halts⟩ := ih _ (length ▸ shorter) (c.add piece) after rfl
        exact ⟨d, q, halt, .step (.piece found) walk, halts⟩
      | openParen =>
        cases read : list p.skipBlanks with
        | error fault => exact ⟨c, p, _, .here, .list found read⟩
        | ok result =>
          rcases result with ⟨value, later⟩
          have shorter := consuming read
          obtain ⟨d, q, halt, walk, halts⟩ := ih _ (by omega) (c.push value) later rfl
          exact ⟨d, q, halt, .step (.list found read) walk, halts⟩

end Walk

/-- A loop takes one element after another and is over where no step can be taken. -/
structure Loop {R : Type} (chunk : Nat) (list : ListReader)
    (ending : Point → List Value → Halt → R) (run : Collector → Point → R) : Prop where
  consuming : list.Consuming
  step : ∀ {c d : Collector} {p q : Point}, Step chunk list c p d q → run c p = run d q
  halts : ∀ {c : Collector} {p : Point} {halt : Halt}, Halts chunk list p halt →
    run c p = ending p c.items halt

namespace Loop

variable {R : Type} {chunk : Nat} {list : ListReader} {ending : Point → List Value → Halt → R}
  {run : Collector → Point → R}

theorem run_eq (loop : Loop chunk list ending run) {c d : Collector} {p q : Point}
    (walk : Walk chunk list c p d q) : run c p = run d q :=
  walk.invariant (P := fun d q => run c p = run d q)
    (fun step same => same.trans (loop.step step)) rfl

theorem eq_of_walk (loop : Loop chunk list ending run) {c d : Collector} {p q : Point}
    {halt : Halt} (walk : Walk chunk list c p d q) (halts : Halts chunk list q halt) :
    run c p = ending q d.items halt :=
  (loop.run_eq walk).trans (loop.halts halts)

theorem exists_walk (loop : Loop chunk list ending run) (c : Collector) (p : Point) :
    ∃ d q halt, Walk chunk list c p d q ∧ Halts chunk list q halt ∧
      run c p = ending q d.items halt := by
  obtain ⟨d, q, halt, walk, halts⟩ := exists_halt chunk loop.consuming c p
  exact ⟨d, q, halt, walk, halts, loop.eq_of_walk walk halts⟩

variable {opening : Point} {readItems : Collector → Point → Except Fault (List Value × Point)}

/-- A list is read if a walk comes to its closing parenthesis. -/
theorem eq_ok_iff (loop : Loop chunk list (fun _ => endOfList opening) readItems)
    {c : Collector} {p after : Point} {items : List Value} :
    readItems c p = .ok (items, after) ↔ ∃ d q, Walk chunk list c p d q ∧
      Lexeme.next chunk q = .ok (some (.closeParen, after)) ∧ items = d.items := by
  constructor
  · intro read
    obtain ⟨d, q, halt, walk, halts, same⟩ := loop.exists_walk c p
    rw [same] at read
    cases halts with
    | closing found =>
      obtain ⟨rfl, rfl⟩ := Prod.mk.inj (Except.ok.inj read)
      exact ⟨d, q, walk, found, rfl⟩
    | finished | lexeme | list => contradiction
  · rintro ⟨d, q, walk, found, rfl⟩
    exact loop.eq_of_walk walk (.closing found)

theorem reaches (loop : Loop chunk list (fun _ => endOfList opening) readItems)
    (advancing : list.Advancing) {c : Collector} {p after : Point} {items : List Value}
    (read : readItems c p = .ok (items, after)) : p.Reaches after := by
  obtain ⟨d, q, walk, found, -⟩ := loop.eq_ok_iff.mp read
  exact (walk.reaches advancing).trans (Lexeme.next_reaches found)

end Loop

namespace VerbatimList

open ListReader

theorem advancing_kept (opening : Point) : (kept opening).Advancing := by
  intro p after v read
  obtain ⟨text, found, -⟩ := form_eq_ok_iff.mp read
  obtain ⟨n, rfl⟩ := inner_skip found
  exact p.reaches_skip _

theorem consuming_kept (opening : Point) : (kept opening).Consuming := by
  intro p after v read
  obtain ⟨text, found, -⟩ := form_eq_ok_iff.mp read
  cases start : p.rest with
  | nil => simp [inner, closeAfter_eq, start] at found
  | cons b tail =>
    obtain ⟨n, rfl⟩ := inner_skip found
    simp only [Point.rest_skip, start, List.length_drop, List.length_cons]
    omega

theorem loop_readItems (chunk : Nat) (opening : Point) :
    Loop chunk (kept opening) (fun _ => endOfList opening) (readItems chunk opening) where
  consuming := consuming_kept opening
  step := by
    intro c d p q step
    cases step with
    | piece found =>
      rw [readItems_eq]
      simp only [found]
    | list found read =>
      obtain ⟨text, inside, rfl⟩ := form_eq_ok_iff.mp read
      rw [readItems_eq]
      simp only [found, inside]
  halts := by
    intro c p halt halts
    rw [readItems_eq]
    cases halts with
    | finished found | closing found | lexeme found => simp only [found, endOfList]
    | list found read => simp only [found, form_eq_error_iff.mp read, endOfList]

theorem read_reaches {chunk : Nat} {p after : Point} {items : List Value}
    (found : read chunk p = .ok (items, after)) : p.Reaches after :=
  (p.reaches_skip 1).trans ((loop_readItems chunk p).reaches (advancing_kept p) found)

end VerbatimList

namespace RecursiveList

open ListReader

theorem loop_readItems (s : Settings) (room : Nat) (opening : Point) :
    Loop s.literalChunk (nested s room) (fun _ => endOfList opening)
      (readItems s room opening) where
  consuming := by
    intro p after v found
    obtain ⟨items, list, -⟩ := form_eq_ok_iff.mp found
    exact read_shorter list
  step := by
    intro c d p q step
    cases step with
    | piece found =>
      rw [readItems_eq]
      simp only [found]
    | list found read =>
      obtain ⟨items, inside, rfl⟩ := form_eq_ok_iff.mp read
      rw [readItems_eq]
      simp only [found, inside]
  halts := by
    intro c p halt halts
    rw [readItems_eq]
    cases halts with
    | finished found | closing found | lexeme found => simp only [found, endOfList]
    | list found read => simp only [found, form_eq_error_iff.mp read, endOfList]

theorem advancing_nested (s : Settings) (room : Nat) : (nested s room).Advancing := by
  induction room with
  | zero =>
    intro p after v found
    obtain ⟨items, list, -⟩ := form_eq_ok_iff.mp found
    contradiction
  | succ room ih =>
    intro p after v found
    obtain ⟨items, list, -⟩ := form_eq_ok_iff.mp found
    exact (p.reaches_skip 1).trans ((loop_readItems s room p).reaches ih list)

end RecursiveList

namespace Line

open ListReader

theorem advancing_outermost (s : Settings) : (outermost s).Advancing := by
  intro p after v found
  obtain ⟨items, list, rfl⟩ := form_eq_ok_iff.mp found
  unfold readList at list
  split at list
  · exact VerbatimList.read_reaches list
  · exact RecursiveList.advancing_nested s s.maxDepth (form_eq_ok_iff.mpr ⟨items, list, rfl⟩)

theorem loop_readValues (s : Settings) :
    Loop s.literalChunk (outermost s) endOfLine (readValues s) where
  consuming := by
    intro p after v found
    obtain ⟨items, list, -⟩ := form_eq_ok_iff.mp found
    exact readList_shorter list
  step := by
    intro c d p q step
    cases step with
    | piece found =>
      rw [readValues_eq]
      simp only [found]
    | list found read =>
      obtain ⟨items, inside, rfl⟩ := form_eq_ok_iff.mp read
      rw [readValues_eq]
      simp only [found, inside]
  halts := by
    intro c p halt halts
    rw [readValues_eq]
    cases halts with
    | finished found | closing found | lexeme found => simp only [found, endOfLine]
    | list found read => simp only [found, form_eq_error_iff.mp read, endOfLine]

/-- A line is read if a walk comes to its end. -/
theorem readValues_eq_ok_iff {s : Settings} {c : Collector} {p : Point} {values : List Value} :
    readValues s c p = .ok values ↔ ∃ d q, Walk s.literalChunk (outermost s) c p d q ∧
      Lexeme.next s.literalChunk q = .ok none ∧ values = d.items := by
  constructor
  · intro read
    obtain ⟨d, q, halt, walk, halts, same⟩ := (loop_readValues s).exists_walk c p
    rw [same] at read
    cases halts with
    | finished found => exact ⟨d, q, walk, found, (Except.ok.inj read).symm⟩
    | closing | lexeme | list => contradiction
  · rintro ⟨d, q, walk, found, rfl⟩
    exact (loop_readValues s).eq_of_walk walk (.finished found)

end Line

theorem decode_eq_readValues {s : Settings} (unlimited : s.maxLineLength = none)
    (line : List UInt8) :
    decode s line = Line.readValues s { mapsNil := true } (.start line) := by
  simp only [decode, unlimited, Option.filter_none]

end ImapReply
