import ImapReply.Proofs.CheckedToken

/-! Lists, read on the machine. The loops for lists that are kept and for lists that are read share
what they do with blanks, brackets and tokens. A list that is kept is passed over in the same loop
that reads the list around it, with a count of the parentheses open. -/
namespace ImapReply

open Octet Octets

section Blanks

variable {chunk : Nat} {list : ListReader} {c d : Collector} {p q r : Point} {halt : Halt}

theorem next_of_blanks (same : q.skipBlanks = p.skipBlanks) :
    Lexeme.next chunk q = Lexeme.next chunk p := by
  rw [← Lexeme.next_skipBlanks, same, Lexeme.next_skipBlanks]

theorem Step.of_blanks (step : Step chunk list c p d r) (same : q.skipBlanks = p.skipBlanks) :
    Step chunk list c q d r := by
  cases step with
  | piece found => exact .piece ((next_of_blanks same).trans found)
  | list found read => exact .list ((next_of_blanks same).trans found) (same ▸ read)

theorem Halts.of_blanks (halts : Halts chunk list p halt) (same : q.skipBlanks = p.skipBlanks) :
    Halts chunk list q halt := by
  have next : Lexeme.next chunk q = Lexeme.next chunk p := next_of_blanks same
  cases halts with
  | finished found => exact .finished (next.trans found)
  | closing found => exact .closing (next.trans found)
  | lexeme failed => exact .lexeme (next.trans failed)
  | list found failed => exact .list (next.trans found) (same ▸ failed)

end Blanks

/-- What a loop comes to may be seen as something else. -/
theorem Loop.map {R Q : Type} {chunk : Nat} {list : ListReader}
    {ending : Point → List Value → Halt → R} {run : Collector → Point → R}
    (loop : Loop chunk list ending run) (f : R → Q) :
    Loop chunk list (fun p items halt => f (ending p items halt)) (fun c p => f (run c p)) where
  consuming := loop.consuming
  step := fun step => congrArg f (loop.step step)
  halts := fun halts => congrArg f (loop.halts halts)

namespace Checked

/-- A loop that ends in a fault with that fault, and minds no blanks where it ends. -/
structure Onward {α : Type} (chunk : Nat) (list : ListReader)
    (ending : Point → List Value → Halt → Checked α) (run : Collector → Point → Checked α) : Prop
    extends Loop chunk list ending run where
  broken : ∀ {p : Point} {items : List Value} {found : Fault},
    ending p items (.broken found) = fault found
  alike : ∀ {p q : Point} {items : List Value} {halt : Halt}, q.skipBlanks = p.skipBlanks →
    ending q items halt = ending p items halt

/-- Blanks make no difference to what the loop comes to. -/
theorem Onward.blanks {α : Type} {chunk : Nat} {list : ListReader}
    {ending : Point → List Value → Halt → Checked α} {run : Collector → Point → Checked α}
    (onward : Onward chunk list ending run) {c : Collector} {p q : Point}
    (same : q.skipBlanks = p.skipBlanks) : run c q = run c p := by
  obtain ⟨d, r, halt, walk, halts⟩ := exists_halt chunk onward.consuming c p
  cases walk with
  | here => rw [onward.halts halts, onward.halts (halts.of_blanks same), onward.alike same]
  | step step _ => rw [onward.step step, onward.step (step.of_blanks same)]

/-- What the machine is to make of the rest of a list that keeps the lists inside as text. -/
def restOfKept (chunk : Nat) (opening : Point) (c : Collector) (p : Point) :
    Checked (List Value × Cursor) :=
  landing id <$> lift (VerbatimList.readItems chunk opening c p)

/-- What the machine is to make of the rest of a list that reads the lists inside. -/
def restOfRead (s : Settings) (room : Nat) (opening : Point) (c : Collector) (p : Point) :
    Checked (List Value × Cursor) :=
  landing id <$> lift (RecursiveList.readItems s room opening c p)

/-- How a list ends on the machine. -/
def endOfList (opening : Point) (_ : Point) (items : List Value) (halt : Halt) :
    Checked (List Value × Cursor) :=
  landing id <$> lift (ImapReply.endOfList opening items halt)

theorem onward_restOfKept (chunk : Nat) (opening : Point) :
    Onward chunk (.kept opening) (endOfList opening) (restOfKept chunk opening) where
  toLoop := (VerbatimList.loop_readItems chunk opening).map (landing id <$> lift ·)
  broken := rfl
  alike := fun _ => rfl

theorem onward_restOfRead (s : Settings) (room : Nat) (opening : Point) :
    Onward s.literalChunk (.nested s room) (endOfList opening) (restOfRead s room opening) where
  toLoop := (RecursiveList.loop_readItems s room opening).map (landing id <$> lift ·)
  broken := rfl
  alike := fun _ => rfl

variable {octets : List UInt8} {c : Collector} {p : Point} {chunk : Nat} {list : ListReader}

/-- Takes in what stands at the cursor and is no parenthesis. -/
def takeElement (octets : List UInt8) (chunk : Nat) (b : UInt8) (c : Collector) (k : Cursor) :
    Checked (Collector × Cursor) :=
  match role b with
  | .blank => do return (c, ← k.skip octets 1)
  | .openBracket => do return (c.add .openBracket, ← k.skip octets 1)
  | .closeBracket => do return (c.add .closeBracket, ← k.skip octets 1)
  | _ => do
    let (token, k) ← k.readToken octets chunk
    return (c.add (.token token), ← k.skipLineBreaks octets)

/-- What the machine may come to at the point: it passes over blanks, it takes a piece in and may
pass over blanks behind it, or it finds the fault of the lexeme that is next. -/
inductive Taken (octets : List UInt8) (chunk : Nat) (c : Collector) (p : Point) :
    Checked (Collector × Cursor) → Prop
  | passed {q : Point} : q.Within octets → q.rest.length < p.rest.length →
      q.skipBlanks = p.skipBlanks → Taken octets chunk c p (.ok (c, q.cursor))
  | piece {piece : Piece} {after q : Point} :
      Lexeme.next chunk p = .ok (some (.piece piece, after)) → q.Within octets →
      q.rest.length < p.rest.length → q.skipBlanks = after.skipBlanks →
      Taken octets chunk c p (.ok (c.add piece, q.cursor))
  | failed {found : Fault} : Lexeme.next chunk p = .error found →
      Taken octets chunk c p (fault found)

theorem Taken.onward {α : Type} {ending : Point → List Value → Halt → Checked α}
    {run : Collector → Point → Checked α} {taken : Checked (Collector × Cursor)}
    (is : Taken octets chunk c p taken) (onward : Onward chunk list ending run) :
    (∃ found, taken = fault found ∧ run c p = fault found) ∨
      ∃ (d : Collector) (q : Point), taken = .ok (d, q.cursor) ∧ q.Within octets ∧
        q.rest.length < p.rest.length ∧ run c p = run d q := by
  cases is with
  | passed within shorter same => exact .inr ⟨_, _, rfl, within, shorter, (onward.blanks same).symm⟩
  | piece found within shorter same =>
    have next := onward.step (c := c) (.piece found)
    exact .inr ⟨_, _, rfl, within, shorter, next.trans (onward.blanks same).symm⟩
  | failed failed =>
    have halts := onward.halts (c := c) (.lexeme failed)
    exact .inl ⟨_, rfl, halts.trans onward.broken⟩

theorem skipBlanks_skipWhile {kind : UInt8 → Bool} (blank : ∀ b, kind b = true → isBlank b = true)
    (p : Point) : (p.skip (p.rest.takeWhile kind).length).skipBlanks = p.skipBlanks := by
  refine (Point.skipBlanks_of_all (fun b member => blank b ?_)
    List.takeWhile_append_dropWhile.symm).symm
  exact List.all_eq_true.mp List.all_takeWhile b member

theorem isBlank_of_lineBreak {b : UInt8}
    (kind : (b = carriageReturn ∨ b = lineFeed : Bool) = true) : isBlank b = true := by
  have kind := of_decide_eq_true kind
  rcases kind with rfl | rfl <;> decide

theorem taken_takeElement (within : p.Within octets) {b : UInt8} {later : List UInt8}
    (start : p.rest = b :: later) (notOpen : role b ≠ .openParen)
    (notClose : role b ≠ .closeParen) :
    Taken octets chunk c p (takeElement octets chunk b c p.cursor) := by
  have next := within.skip 1
  have shorter : (p.skip 1).rest.length < p.rest.length := by simp [start]
  have single {piece : Piece} (single : (Lexeme.piece piece).octet? = some b)
      (nonblank : isBlank b = false) :
      Taken octets chunk c p (.ok (c.add piece, (p.skip 1).cursor)) := by
    refine .piece ?_ next shorter rfl
    rw [Lexeme.next, Point.skipBlanks_of_cons start nonblank]
    exact Lexeme.here_single single start
  unfold takeElement
  split
  next blank =>
    rw [within.skip_cursor]
    exact .passed next shorter (Point.skipBlanks_of_blank start (by simp [isBlank, blank])).symm
  next bracket =>
    rw [within.skip_cursor]
    exact single (by rw [role_eq_openBracket_iff.mp bracket]; rfl) (by simp [isBlank, bracket])
  next bracket =>
    rw [within.skip_cursor]
    exact single (by rw [role_eq_closeBracket_iff.mp bracket]; rfl) (by simp [isBlank, bracket])
  next notBlank notOpenBracket notCloseBracket =>
    have inToken : isDelimiter b = false ∨ b = quote := by
      rw [← role_eq_quote_iff]
      cases kind : role b <;> simp_all [isDelimiter]
    obtain ⟨form, read, found, same⟩ := Cursor.readToken_eq within chunk start inToken
    rw [same]
    cases read with
    | error fault => exact .failed found
    | ok result =>
      obtain ⟨text, after⟩ := result
      have reached := within.reaches (Lexeme.next_reaches found)
      have closer := Lexeme.next_shorter found
      rw [lift_ok, Except.map_ok, ok_bind]
      dsimp only [landing]
      rw [Cursor.skipLineBreaks, Cursor.skipWhile_eq reached]
      refine .piece found (reached.skip _) ?_
        (skipBlanks_skipWhile (fun b => isBlank_of_lineBreak) after)
      rw [Point.rest_skip, List.length_drop]
      omega

/-- The turn comes to what is expected at the point, or goes on further in the line where the same
is expected. -/
def Proceeds {α : Type} (octets : List UInt8) (run : Collector → Point → Checked α)
    (c : Collector) (p : Point) (turn : Checked (Turn (Collector × Cursor) α)) : Prop :=
  turn = .done <$> run c p ∨
    ∃ (d : Collector) (q : Point), turn = .ok (.again (d, q.cursor)) ∧ q.Within octets ∧
      q.rest.length < p.rest.length ∧ run c p = run d q

theorem Taken.proceeds {α : Type} {ending : Point → List Value → Halt → Checked α}
    {run : Collector → Point → Checked α} {taken : Checked (Collector × Cursor)}
    (is : Taken octets chunk c p taken) (onward : Onward chunk list ending run) :
    Proceeds octets run c p (.again <$> taken) := by
  rcases is.onward onward with ⟨found, rfl, failed⟩ | ⟨d, q, rfl, within, shorter, same⟩
  · left
    rw [failed]
    rfl
  · exact .inr ⟨d, q, rfl, within, shorter, same⟩

/-- Where a list is opened, the turn takes in the list that is read there. -/
theorem proceeds_list {α : Type} {ending : Point → List Value → Halt → Checked α}
    {run : Collector → Point → Checked α} (onward : Onward chunk list ending run)
    (advancing : list.Advancing) {later : List UInt8} (left : p.rest = openParen :: later)
    {read : Except Fault (List Value × Point)} (reads : list p = ListReader.form .list read)
    (within : p.Within octets) :
    Proceeds octets run c p (do
      let (items, k) ← landing id <$> lift read
      return .again (c.push (.list items), k)) := by
  have next : Lexeme.next chunk p = .ok (some (.openParen, p.skip 1)) := Lexeme.next_openParen left
  have here : p.skipBlanks = p := Point.skipBlanks_openParen left
  cases read with
  | error fault =>
    have halts := onward.halts (c := c) (.list next (by rwa [here]))
    left
    rw [halts, onward.broken]
    rfl
  | ok found =>
    obtain ⟨items, after⟩ := found
    have reached := within.reaches (advancing reads)
    have step := onward.step (c := c) (.list next (by rwa [here]))
    exact .inr ⟨_, after, rfl, reached, onward.consuming reads, step⟩

/-- A loop whose turns all proceed comes to what is expected. It may rely on how far on it is. -/
theorem iterate_proceeds {α : Type} (run : Collector → Point → Checked α) (bound : Nat)
    {turn : Collector × Cursor → Checked (Turn (Collector × Cursor) α)}
    (step : ∀ {c : Collector} {p : Point}, p.Within octets → bound ≤ p.offset →
      Proceeds octets run c p (turn (c, p.cursor)))
    (within : p.Within octets) (further : bound ≤ p.offset) :
    iterate octets.length (·.2.position) turn (c, p.cursor) = run c p := by
  refine iterate_eq (fun state result => ∃ (c : Collector) (p : Point),
    p.Within octets ∧ bound ≤ p.offset ∧ state = (c, p.cursor) ∧ result = run c p)
    ?_ ⟨c, p, within, further, rfl, rfl⟩
  rintro _ _ ⟨c, p, within, further, rfl, rfl⟩
  rcases step within further with last | ⟨d, q, onward, reached, shorter, same⟩
  · exact .inl last
  · have moves := within.moves reached shorter
    exact .inr ⟨_, onward, moves, d, q, reached, by omega, rfl, same⟩

/-- The state of a loop that reads a list and keeps the lists inside as text. -/
structure Keeping where
  collector : Collector
  cursor : Cursor
  /-- Number of inner lists open, one in another. -/
  depth : Nat
  /-- Where the outermost of them starts. -/
  start : Nat

/-- Passes over what is no parenthesis inside an inner list. -/
def skipInner (octets : List UInt8) (b : UInt8) (k : Cursor) : Checked Cursor :=
  match role b with
  | .quote => k.skipQuoted octets
  | .openBrace => do if ← k.atHeader octets then k.skipLiteral octets else k.skip octets 1
  | _ => k.skip octets 1

theorem skipInner_eq (within : p.Within octets) {b : UInt8} {later : List UInt8}
    (start : p.rest = b :: later) :
    skipInner octets b p.cursor =
      (fun n => (p.skip n).cursor) <$> lift (VerbatimList.stride p b) := by
  rw [skipInner, VerbatimList.stride]
  cases kind : role b with
  | quote => exact Cursor.skipQuoted_eq within
  | openBrace =>
    obtain rfl := role_eq_openBrace_iff.mp kind
    dsimp only
    rw [Cursor.atHeader_eq within start, ok_bind]
    cases Literal.opensHeader p with
    | true => exact Cursor.skipLiteral_eq within start
    | false => exact within.skip_cursor 1
  | blank | openParen | closeParen | openBracket | closeBracket | plain =>
    exact within.skip_cursor 1

/-- Goes one list deeper. The outermost inner list starts here. -/
def openInner (octets : List UInt8) (state : Keeping) : Checked Keeping := do
  let depth ← add state.depth 1
  let start := if depth = 1 then state.cursor.position else state.start
  return { state with depth, start, cursor := ← state.cursor.skip octets 1 }

/-- Takes in the text of the outermost inner list where it is closed. -/
def keepInner (octets : List UInt8) (state : Keeping) : Checked Collector :=
  if state.depth = 1 then do
    let kept ← text octets state.start (← add state.cursor.position 1)
    return state.collector.push (.ofText kept)
  else return state.collector

def closeInner (octets : List UInt8) (state : Keeping) : Checked Keeping := do
  let collector ← keepInner octets state
  let depth ← sub state.depth 1
  return { state with collector, depth, cursor := ← state.cursor.skip octets 1 }

def keepingTurn (octets : List UInt8) (chunk opening : Nat) (state : Keeping) :
    Checked (Turn Keeping (List Value × Cursor)) :=
  match state.cursor.peek octets with
  | none => fault (.unterminatedList opening)
  | some b =>
    match role b with
    | .openParen => .again <$> openInner octets state
    | .closeParen =>
      if state.depth = 0 then do
        return .done (state.collector.items, ← state.cursor.skip octets 1)
      else .again <$> closeInner octets state
    | _ =>
      if state.depth = 0 then do
        let (collector, cursor) ← takeElement octets chunk b state.collector state.cursor
        return .again { state with collector, cursor }
      else do
        return .again { state with cursor := ← skipInner octets b state.cursor }

/-- What the machine is to make of the rest of a list with an inner one in it. Of the inner one so
many octets have been passed, and `depth` further parentheses are open. -/
def restInside (chunk : Nat) (opening : Point) (c : Collector) (start : Point)
    (depth passed : Nat) : Checked (List Value × Cursor) :=
  match VerbatimList.closeAfter depth passed (start.skip passed) with
  | .error found => fault found
  | .ok none => fault (.unterminatedList opening.offset)
  | .ok (some n) =>
    match text? (start.rest.take n) with
    | none => fault (.invalidText start.offset)
    | some text => restOfKept chunk opening (c.push (.ofText text)) (start.skip n)

/-- What the loop is to come to from its state. Inside, more octets have been passed than there are
parentheses open, so their number can be held. -/
inductive Keeps (octets : List UInt8) (chunk : Nat) (opening : Point) :
    Keeping → Checked (List Value × Cursor) → Prop
  | outside {c : Collector} {p : Point} {start : Nat} : p.Within octets →
      Keeps octets chunk opening ⟨c, p.cursor, 0, start⟩ (restOfKept chunk opening c p)
  | inside {c : Collector} {start : Point} {depth passed : Nat} : start.Within octets →
      depth < passed →
      Keeps octets chunk opening ⟨c, (start.skip passed).cursor, depth + 1, start.offset⟩
        (restInside chunk opening c start depth passed)

theorem restOfKept_openParen {opening : Point} {later : List UInt8}
    (left : p.rest = openParen :: later) :
    restOfKept chunk opening c p = restInside chunk opening c p 0 1 := by
  rw [restOfKept, VerbatimList.readItems_eq, Lexeme.next_openParen left, restInside]
  dsimp only
  rw [Point.skipBlanks_openParen left, VerbatimList.inner]
  rcases VerbatimList.closeAfter 0 1 (p.skip 1) with found | _ | n
  · rfl
  · rfl
  · dsimp only
    cases text? (p.rest.take n) <;> rfl

theorem goesOn_outside {opening : Point} {start : Nat} (within : p.Within octets) :
    GoesOn octets.length (·.cursor.position) (keepingTurn octets chunk opening.offset)
      (Keeps octets chunk opening) ⟨c, p.cursor, 0, start⟩ (restOfKept chunk opening c p) := by
  unfold GoesOn keepingTurn
  rw [within.peek]
  cases left : p.rest with
  | nil =>
    left
    rw [restOfKept, VerbatimList.readItems_eq, Lexeme.next_end left]
    rfl
  | cons b later =>
    have next := within.skip 1
    have shorter : (p.skip 1).rest.length < p.rest.length := by simp [left]
    have moves := within.moves next shorter
    dsimp only [List.head?_cons]
    cases kind : role b with
    | openParen =>
      obtain rfl := role_eq_openParen_iff.mp kind
      right
      refine ⟨⟨c, (p.skip 1).cursor, 1, p.offset⟩, ?_, moves, ?_⟩
      · dsimp only [openInner]
        rw [add_eq (by decide), ok_bind, within.skip_cursor]
        rfl
      · rw [restOfKept_openParen left]
        exact .inside within Nat.one_pos
    | closeParen =>
      obtain rfl := role_eq_closeParen_iff.mp kind
      left
      rw [restOfKept, VerbatimList.readItems_eq, Lexeme.next_closeParen left, within.skip_cursor]
      rfl
    | blank | openBracket | closeBracket | quote | openBrace | plain =>
      have taken : Taken octets chunk c p (takeElement octets chunk b c p.cursor) :=
        taken_takeElement within left (by simp [kind]) (by simp [kind])
      rcases taken.onward (onward_restOfKept chunk opening) with
        ⟨found, same, failed⟩ | ⟨d, q, same, reached, closer, onward⟩
      · left
        rw [if_pos rfl, failed, same]
        rfl
      · right
        refine ⟨⟨d, q.cursor, 0, start⟩, ?_, within.moves reached closer, ?_⟩
        · rw [if_pos rfl, same]
          rfl
        · rw [onward]
          exact .outside reached

section Inside

variable {opening start : Point} {depth deeper passed n : Nat} {b : UInt8} {later : List UInt8}

theorem restInside_finished (left : (start.skip passed).rest = []) :
    restInside chunk opening c start depth passed = fault (.unterminatedList opening.offset) := by
  rw [restInside, VerbatimList.closeAfter_eq, left]

theorem restInside_failed {found : Fault} (left : (start.skip passed).rest = b :: later)
    (step : VerbatimList.stride (start.skip passed) b = .error found) :
    restInside chunk opening c start depth passed = fault found := by
  rw [restInside, VerbatimList.closeAfter_eq, left]
  simp only [step]

theorem restInside_onward (left : (start.skip passed).rest = b :: later)
    (step : VerbatimList.stride (start.skip passed) b = .ok n)
    (still : VerbatimList.depthAfter depth b = some deeper) :
    restInside chunk opening c start depth passed =
      restInside chunk opening c start deeper (passed + n) := by
  rw [restInside, VerbatimList.closeAfter_eq, left]
  simp only [step, still, Point.skip_skip]
  rfl

theorem restInside_closed (left : (start.skip passed).rest = b :: later)
    (step : VerbatimList.stride (start.skip passed) b = .ok n)
    (closed : VerbatimList.depthAfter depth b = none) :
    restInside chunk opening c start depth passed =
      match text? (start.rest.take (passed + n)) with
      | none => fault (.invalidText start.offset)
      | some text =>
        restOfKept chunk opening (c.push (.ofText text)) (start.skip (passed + n)) := by
  rw [restInside, VerbatimList.closeAfter_eq, left]
  simp only [step, closed]

theorem stride_paren (p : Point) (paren : role b = .openParen ∨ role b = .closeParen) :
    VerbatimList.stride p b = .ok 1 := by
  rcases paren with kind | kind <;> simp [VerbatimList.stride, kind]

/-- The text of an inner list is what has been passed since its start. -/
theorem keepInner_eq (within : start.Within octets) (inside : passed < start.rest.length) :
    keepInner octets ⟨c, (start.skip passed).cursor, 1, start.offset⟩ =
      match text? (start.rest.take (passed + 1)) with
      | none => fault (.invalidText start.offset)
      | some text => .ok (c.push (.ofText text)) := by
  have here := within.skip passed
  rw [keepInner, if_pos rfl, Point.position_cursor, here.add (by omega), ok_bind,
    Point.offset_skip_of_le (Nat.le_of_lt inside), Nat.add_assoc, within.text inside]
  cases text? (start.rest.take (passed + 1)) <;> rfl

theorem length_of_rest (left : (start.skip passed).rest = b :: later) :
    start.rest.length = passed + (later.length + 1) := by
  have := congrArg List.length left
  rw [Point.rest_skip, List.length_drop, List.length_cons] at this
  omega

/-- As long as an inner list is open the loop moves on and stays inside. -/
theorem Keeps.onward (within : start.Within octets) (left : (start.skip passed).rest = b :: later)
    (step : VerbatimList.stride (start.skip passed) b = .ok n)
    (still : VerbatimList.depthAfter depth b = some deeper) (shallow : deeper < passed + n) :
    ((start.skip passed).offset < ((start.skip passed).skip n).offset ∧
      (start.skip passed).offset < octets.length) ∧
    Keeps octets chunk opening ⟨c, ((start.skip passed).skip n).cursor, deeper + 1, start.offset⟩
      (restInside chunk opening c start depth passed) := by
  have length := length_of_rest left
  have more : (start.skip passed).rest ≠ [] := by simp [length]
  refine ⟨(within.skip passed).moves_skip (VerbatimList.stride_pos step) more, ?_⟩
  rw [restInside_onward left step still, Point.skip_skip]
  exact .inside within shallow

theorem goesOn_openInner (within : start.Within octets)
    (left : (start.skip passed).rest = b :: later) (kind : role b = .openParen)
    (shallow : depth < passed) :
    GoesOn octets.length (·.cursor.position) (keepingTurn octets chunk opening.offset)
      (Keeps octets chunk opening) ⟨c, (start.skip passed).cursor, depth + 1, start.offset⟩
      (restInside chunk opening c start depth passed) := by
  have here := within.skip passed
  have length := length_of_rest left
  have deeper : VerbatimList.depthAfter depth b = some (depth + 1) := by
    simp [VerbatimList.depthAfter, kind]
  have held : add (depth + 1) 1 = .ok (depth + 1 + 1) := by
    have := within.fits
    have := within.length_eq
    have := longest_add_two_le
    exact add_eq (by omega)
  unfold GoesOn keepingTurn
  rw [here.peek, left]
  dsimp only [List.head?_cons]
  rw [kind]
  dsimp only [openInner]
  rw [held, ok_bind, here.skip_cursor, if_neg (by omega)]
  exact .inr ⟨_, rfl, Keeps.onward within left (stride_paren _ (.inl kind)) deeper (by omega)⟩

theorem goesOn_closeInner (within : start.Within octets)
    (left : (start.skip passed).rest = b :: later) (kind : role b = .closeParen)
    (shallow : depth < passed) :
    GoesOn octets.length (·.cursor.position) (keepingTurn octets chunk opening.offset)
      (Keeps octets chunk opening) ⟨c, (start.skip passed).cursor, depth + 1, start.offset⟩
      (restInside chunk opening c start depth passed) := by
  have here := within.skip passed
  have length := length_of_rest left
  have step := stride_paren (start.skip passed) (.inr kind)
  unfold GoesOn keepingTurn
  rw [here.peek, left]
  dsimp only [List.head?_cons]
  rw [kind]
  dsimp only [closeInner]
  rw [if_neg (Nat.succ_ne_zero depth), sub_eq (Nat.succ_pos depth), here.skip_cursor]
  cases depth with
  | zero =>
    have closed : VerbatimList.depthAfter 0 b = none := by
      simp [VerbatimList.depthAfter, kind]
    rw [restInside_closed left step closed, keepInner_eq within (by omega)]
    cases text? (start.rest.take (passed + 1)) with
    | none =>
      left
      rfl
    | some text =>
      right
      refine ⟨_, rfl, here.moves_skip Nat.one_pos (by simp [length]), ?_⟩
      rw [Point.skip_skip]
      exact .outside (within.skip _)
  | succ depth =>
    have shallower : VerbatimList.depthAfter (depth + 1) b = some depth := by
      simp [VerbatimList.depthAfter, kind]
    right
    refine ⟨⟨c, ((start.skip passed).skip 1).cursor, depth + 1, start.offset⟩, ?_,
      Keeps.onward within left step shallower (by omega)⟩
    rw [keepInner, if_neg (by simp)]
    rfl

theorem goesOn_inside (within : start.Within octets) (shallow : depth < passed) :
    GoesOn octets.length (·.cursor.position) (keepingTurn octets chunk opening.offset)
      (Keeps octets chunk opening) ⟨c, (start.skip passed).cursor, depth + 1, start.offset⟩
      (restInside chunk opening c start depth passed) := by
  have here := within.skip passed
  cases left : (start.skip passed).rest with
  | nil =>
    left
    rw [restInside_finished left, keepingTurn, here.peek, left]
    rfl
  | cons b later =>
    cases kind : role b with
    | openParen => exact goesOn_openInner within left kind shallow
    | closeParen => exact goesOn_closeInner within left kind shallow
    | blank | openBracket | closeBracket | quote | openBrace | plain =>
      have still : VerbatimList.depthAfter depth b = some depth := by
        simp [VerbatimList.depthAfter, kind]
      unfold GoesOn keepingTurn
      rw [here.peek, left]
      dsimp only [List.head?_cons]
      rw [kind]
      dsimp only
      rw [if_neg (Nat.succ_ne_zero depth), skipInner_eq here left]
      cases step : VerbatimList.stride (start.skip passed) b with
      | error fault =>
        left
        rw [restInside_failed left step]
        rfl
      | ok n => exact .inr ⟨_, rfl, Keeps.onward within left step still (by omega)⟩

end Inside

theorem Keeps.goesOn {opening : Point} {state : Keeping} {result : Checked (List Value × Cursor)}
    (keeps : Keeps octets chunk opening state result) :
    GoesOn octets.length (·.cursor.position) (keepingTurn octets chunk opening.offset)
      (Keeps octets chunk opening) state result := by
  cases keeps with
  | outside within => exact goesOn_outside within
  | inside within shallow => exact goesOn_inside within shallow

def readVerbatim (octets : List UInt8) (chunk : Nat) (k : Cursor) :
    Checked (List Value × Cursor) := do
  let opening := k.position
  iterate octets.length (·.cursor.position) (keepingTurn octets chunk opening)
    ⟨{ mapsNil := false }, ← k.skip octets 1, 0, opening⟩

theorem readVerbatim_eq (within : p.Within octets) :
    readVerbatim octets chunk p.cursor = landing id <$> lift (VerbatimList.read chunk p) := by
  rw [readVerbatim, within.skip_cursor, ok_bind, VerbatimList.read]
  exact iterate_eq (Keeps octets chunk p) Keeps.goesOn (.outside (within.skip 1))

def recursiveTurn (octets : List UInt8) (inner : Cursor → Checked (List Value × Cursor))
    (chunk opening : Nat) :
    Collector × Cursor → Checked (Turn (Collector × Cursor) (List Value × Cursor)) :=
  fun (c, k) =>
    match k.peek octets with
    | none => fault (.unterminatedList opening)
    | some b =>
      match role b with
      | .openParen => do
        let (items, k) ← inner k
        return .again (c.push (.list items), k)
      | .closeParen => do return .done (c.items, ← k.skip octets 1)
      | _ => .again <$> takeElement octets chunk b c k

/-- If the lists inside are read as they are in the line, so is the list around them. -/
theorem recursiveTurn_proceeds {s : Settings} {room : Nat} {opening : Point}
    {inner : Cursor → Checked (List Value × Cursor)}
    (inner_eq : p.rest ≠ [] → inner p.cursor = landing id <$> lift (RecursiveList.read s room p))
    (within : p.Within octets) :
    Proceeds octets (restOfRead s room opening) c p
      (recursiveTurn octets inner s.literalChunk opening.offset (c, p.cursor)) := by
  unfold recursiveTurn
  dsimp only
  rw [within.peek]
  cases left : p.rest with
  | nil =>
    left
    rw [restOfRead, RecursiveList.readItems_eq, Lexeme.next_end left]
    rfl
  | cons b later =>
    dsimp only [List.head?_cons]
    cases kind : role b with
    | openParen =>
      obtain rfl := role_eq_openParen_iff.mp kind
      rw [inner_eq (by simp [left])]
      exact proceeds_list (onward_restOfRead s room opening)
        (RecursiveList.advancing_nested s room) left rfl within
    | closeParen =>
      obtain rfl := role_eq_closeParen_iff.mp kind
      left
      rw [restOfRead, RecursiveList.readItems_eq, Lexeme.next_closeParen left, within.skip_cursor]
      rfl
    | blank | openBracket | closeBracket | quote | openBrace | plain =>
      exact (taken_takeElement within left (by simp [kind]) (by simp [kind])).proceeds
        (onward_restOfRead s room opening)

/-- Reads the list whose parenthesis is at the cursor and which is the `depth`-th, counted from the
outermost one. -/
def readRecursive (octets : List UInt8) (s : Settings) (depth : Nat) (k : Cursor) :
    Checked (List Value × Cursor) :=
  if s.maxDepth < depth then fault (.nestingTooDeep k.position s.maxDepth)
  else do
    let inner : Cursor → Checked (List Value × Cursor) := fun k =>
      match _deeper : add depth 1 with
      | .error failure => .error failure
      | .ok deeper => readRecursive octets s deeper k
    iterate octets.length (·.2.position) (recursiveTurn octets inner s.literalChunk k.position)
      ({ mapsNil := true }, ← k.skip octets 1)
termination_by s.maxDepth + 1 - depth
decreasing_by
  obtain ⟨-, rfl⟩ := add_eq_ok_iff.mp _deeper
  omega

/-- No more lists are open than octets have been passed, so another one can be counted. -/
theorem add_depth {depth : Nat} (within : p.Within octets) (shallow : depth ≤ p.offset) :
    add depth 1 = .ok (depth + 1) := by
  have := within.fits
  have := within.length_eq
  have := longest_add_two_le
  exact add_eq (by omega)

theorem readRecursive_eq {s : Settings} {room depth : Nat} (limit : depth + room = s.maxDepth + 1)
    (within : p.Within octets) (more : p.rest ≠ []) (shallow : depth ≤ p.offset + 1) :
    readRecursive octets s depth p.cursor = landing id <$> lift (RecursiveList.read s room p) := by
  induction room generalizing depth p with
  | zero =>
    rw [readRecursive, if_pos (by omega)]
    rfl
  | succ room ih =>
    have moves := (within.moves_skip Nat.one_pos more).1
    rw [readRecursive, if_neg (by omega), within.skip_cursor, ok_bind]
    refine iterate_proceeds (restOfRead s room p) depth (fun {c q} within further => ?_)
      (within.skip 1) (by omega)
    refine recursiveTurn_proceeds (fun more => ?_) within
    generalize found : add depth 1 = held
    obtain rfl := found.symm.trans (add_depth within further)
    exact ih (by omega) within more (by omega)

def readList (octets : List UInt8) (s : Settings) (k : Cursor) : Checked (List Value × Cursor) :=
  match s.nesting with
  | .verbatim => readVerbatim octets s.literalChunk k
  | .recursive => readRecursive octets s 1 k

theorem readList_eq {s : Settings} (within : p.Within octets) (more : p.rest ≠ []) :
    readList octets s p.cursor = landing id <$> lift (Line.readList s p) := by
  unfold readList Line.readList
  cases s.nesting with
  | verbatim => exact readVerbatim_eq within
  | recursive => exact readRecursive_eq (Nat.add_comm 1 s.maxDepth) within more (by omega)

end Checked

end ImapReply
