import ImapReply.Proofs.CheckedLine
import ImapReply.Proofs.Traced

/-! Every loop makes progress. The machine is followed as it reads lists and lines, with nothing to
stop a loop but its clock. It comes to what the machine comes to with all its checks, its turns start
at different places, and so a clock with one turn more than the line has octets does not run out. -/
namespace ImapReply

open Octet Octets Checked Event

/-- Reading gives no empty word: one starts with an octet that is no delimiter. -/
theorem Lexeme.ne_empty_word {chunk : Nat} {p after : Point} {token : Token}
    (found : next chunk p = .ok (some (.piece (.token token), after))) : token ≠ .bare "" := by
  obtain ⟨octets, tail, _, spelled, _⟩ := next_eq_some_iff.mp found
  rintro rfl
  cases spelled with
  | single single => contradiction
  | token spelled =>
    cases spelled with
    | bare word => exact word.nonempty rfl

namespace Checked

theorem bind_eq_ok_iff {α β : Type} {first : Checked α} {next : α → Checked β} {result : β} :
    first >>= next = .ok result ↔ ∃ made, first = .ok made ∧ next made = .ok result := by
  cases first <;> simp [bind, Except.bind]

theorem map_eq_ok_iff {α β : Type} {f : α → β} {first : Checked α} {result : β} :
    f <$> first = .ok result ↔ ∃ made, first = .ok made ∧ f made = result := by
  cases first <;> simp [Functor.map, Except.map]

/-- A turn after which a loop goes on is not its last. -/
theorem ne_done_of_again {σ α : Type} {taken : Checked (Turn σ α)} {next : σ} {result : Checked α}
    (again : taken = .ok (.again next)) : taken ≠ .done <$> result := by
  intro done
  obtain ⟨_, _, same⟩ := map_eq_ok_iff.mp (done.symm.trans again)
  contradiction

/-- Where a loop goes on it has moved on, and the same is expected of the state it goes on from. -/
theorem GoesOn.next {σ α : Type} {limit : Nat} {place : σ → Nat} {turn : σ → Checked (Turn σ α)}
    {Expects : σ → Checked α → Prop} {state next : σ} {expected : Checked α}
    (goesOn : GoesOn limit place turn Expects state expected)
    (again : turn state = .ok (.again next)) : place state < place next ∧ Expects next expected := by
  rcases goesOn with done | ⟨_, same, moves, still⟩
  · exact absurd done (ne_done_of_again again)
  · obtain rfl := Turn.again.inj (Except.ok.inj (again.symm.trans same))
    exact ⟨moves.1, still⟩

variable {octets : List UInt8} {chunk : Nat} {state : Keeping}

theorem Proceeds.next {α : Type} {run : Collector → Point → Checked α} {c : Collector} {p : Point}
    {taken : Checked (Turn (Collector × Cursor) α)} (proceeds : Proceeds octets run c p taken)
    {next : Collector × Cursor} (again : taken = .ok (.again next)) :
    ∃ (d : Collector) (q : Point), next = (d, q.cursor) ∧ q.Within octets ∧
      q.rest.length < p.rest.length := by
  rcases proceeds with done | ⟨d, q, same, reached, shorter, _⟩
  · exact absurd done (ne_done_of_again again)
  · obtain rfl := Turn.again.inj (Except.ok.inj (again.symm.trans same))
    exact ⟨d, q, rfl, reached, shorter⟩

/-- A token leaves the cursor in the line, with nothing owed. -/
theorem readToken_lands {p : Point} {b : UInt8} {later : List UInt8} (within : p.Within octets)
    (start : p.rest = b :: later) (inToken : isDelimiter b = false ∨ b = quote)
    {stopped : Token × Cursor} (found : p.cursor.readToken octets chunk = .ok stopped) :
    ∃ q : Point, q.Within octets ∧ stopped.2 = q.cursor := by
  obtain ⟨form, read, lexeme, same⟩ := Cursor.readToken_eq within chunk start inToken
  rw [same] at found
  cases read with
  | error fault => contradiction
  | ok result =>
    obtain rfl := Except.ok.inj found
    exact ⟨result.2, within.reaches (Lexeme.next_reaches lexeme), rfl⟩

theorem Keeps.cursor_eq {opening : Point} {expected : Checked (List Value × Cursor)}
    (keeps : Keeps octets chunk opening state expected) :
    ∃ p : Point, p.Within octets ∧ state.cursor = p.cursor := by
  cases keeps with
  | outside within => exact ⟨_, within, rfl⟩
  | inside within => exact ⟨_, within.skip _, rfl⟩

/-- The last turn passes the parenthesis that closes the list. -/
theorem skip_of_keepingTurn_done {opening : Nat} {result : List Value × Cursor}
    (done : keepingTurn octets chunk opening state = .ok (.done result)) :
    state.cursor.peek octets ≠ none ∧ state.cursor.skip octets 1 = .ok result.2 := by
  unfold keepingTurn at done
  split at done
  · contradiction
  next b here =>
    refine ⟨by simp [here], ?_⟩
    split at done
    · obtain ⟨_, _, same⟩ := map_eq_ok_iff.mp done
      contradiction
    · split at done
      · obtain ⟨after, passed, same⟩ := bind_eq_ok_iff.mp done
        obtain rfl := Turn.done.inj (Except.ok.inj same)
        exact passed
      · obtain ⟨_, _, same⟩ := map_eq_ok_iff.mp done
        contradiction
    · split at done
      all_goals
        obtain ⟨_, _, same⟩ := bind_eq_ok_iff.mp done
        exact nomatch Except.ok.inj same

/-- Takes in what stands at the cursor outside of lists and starts no value. -/
def takeDelimiter (octets : List UInt8) (c : Collector) (k : Cursor) :
    Checked (Turn (Collector × Cursor) (List Value)) :=
  match k.peek octets with
  | none => .ok (.done c.items)
  | some b =>
    match role b with
    | .openBracket => do return .again (c.add .openBracket, ← k.skip octets 1)
    | .closeBracket => do return .again (c.add .closeBracket, ← k.skip octets 1)
    | .blank => do return .again (c, ← k.skipLineBreaks octets)
    | _ => fault (.unexpected k.position (Char.ofNat b.toNat))

end Checked

namespace Traced

/-! The loops and what they do in a turn, as on the machine. -/

def readToken (octets : List UInt8) (chunk : Nat) (k : Cursor) : Traced (Token × Cursor) := do
  let (token, after) ← lift (k.readToken octets chunk)
  record (.tokened k token after)
  return (token, after)

def takeElement (octets : List UInt8) (chunk : Nat) (b : UInt8) (c : Collector) (k : Cursor) :
    Traced (Collector × Cursor) :=
  match role b with
  | .blank | .openBracket | .closeBracket => lift (Checked.takeElement octets chunk b c k)
  | _ => do
    let (token, k) ← readToken octets chunk k
    return (c.add (.token token), ← lift (k.skipLineBreaks octets))

/-- Tokens are asked for only outside of the lists that are kept. -/
def keepingTurn (octets : List UInt8) (chunk opening : Nat) (state : Keeping) :
    Traced (Turn Keeping (List Value × Cursor)) :=
  match state.cursor.peek octets with
  | none => lift (Checked.keepingTurn octets chunk opening state)
  | some b =>
    if state.depth = 0 ∧ role b ≠ .openParen ∧ role b ≠ .closeParen then do
      let (collector, cursor) ← takeElement octets chunk b state.collector state.cursor
      return .again { state with collector, cursor }
    else lift (Checked.keepingTurn octets chunk opening state)

def readVerbatim (clock : Nat) (octets : List UInt8) (chunk : Nat) (k : Cursor) :
    Traced (List Value × Cursor) := do
  let opening := k.position
  loop clock (·.cursor.position) (keepingTurn octets chunk opening)
    ⟨{ mapsNil := false }, ← lift (k.skip octets 1), 0, opening⟩

def recursiveTurn (octets : List UInt8) (inner : Cursor → Traced (List Value × Cursor))
    (chunk opening : Nat) :
    Collector × Cursor → Traced (Turn (Collector × Cursor) (List Value × Cursor)) :=
  fun (c, k) =>
    match k.peek octets with
    | none => lift (fault (.unterminatedList opening))
    | some b =>
      match role b with
      | .openParen => do
        let (items, k) ← inner k
        return .again (c.push (.list items), k)
      | .closeParen => lift do return .done (c.items, ← k.skip octets 1)
      | _ => .again <$> takeElement octets chunk b c k

def readRecursive (clock : Nat) (octets : List UInt8) (s : Settings) (depth : Nat) (k : Cursor) :
    Traced (List Value × Cursor) :=
  if s.maxDepth < depth then lift (fault (.nestingTooDeep k.position s.maxDepth))
  else do
    let inner : Cursor → Traced (List Value × Cursor) := fun k =>
      match _deeper : add depth 1 with
      | .error failure => lift (.error failure)
      | .ok deeper => readRecursive clock octets s deeper k
    loop clock (·.2.position) (recursiveTurn octets inner s.literalChunk k.position)
      ({ mapsNil := true }, ← lift (k.skip octets 1))
termination_by s.maxDepth + 1 - depth
decreasing_by
  obtain ⟨-, rfl⟩ := add_eq_ok_iff.mp _deeper
  omega

def readList (clock : Nat) (octets : List UInt8) (s : Settings) (k : Cursor) :
    Traced (List Value × Cursor) :=
  match s.nesting with
  | .verbatim => readVerbatim clock octets s.literalChunk k
  | .recursive => readRecursive clock octets s 1 k

/-- The header of a literal is read ahead of the token. -/
def looksLikeLiteral (octets : List UInt8) (k : Cursor) : Traced (Bool × Cursor) := do
  let (announced, after) ← lift (k.looksLikeLiteral octets)
  if announced then record (.headed k after)
  return (announced, after)

def takeValue (clock : Nat) (octets : List UInt8) (s : Settings) (c : Collector) (k : Cursor) :
    Traced (Turn (Collector × Cursor) (List Value)) := do
  if k.peek octets = some openParen then
    let (items, k) ← readList clock octets s k
    return .again (c.push (.list items), k)
  else
    let (announced, k) ← looksLikeLiteral octets k
    if announced || k.looksLikeString octets then
      let (token, k) ← readToken octets s.literalChunk k
      return .again (c.add (.token token), k)
    else lift (takeDelimiter octets c k)

def valuesTurn (clock : Nat) (octets : List UInt8) (s : Settings) :
    Collector × Cursor → Traced (Turn (Collector × Cursor) (List Value)) := fun (c, k) => do
  if octets.length ≤ k.position then return .done c.items
  else takeValue clock octets s c (← lift (k.skipSpaces octets))

def decode (clock : Nat) (s : Settings) (octets : List UInt8) : Traced (List Value) :=
  match s.maxLineLength.filter (· < octets.length) with
  | some max => lift (fault (.lineTooLong octets.length max))
  | none =>
    loop clock (·.2.position) (valuesTurn clock octets s) ({ mapsNil := true }, ⟨0, none⟩)

variable {octets : List UInt8} {c : Collector} {p : Point} {chunk clock : Nat} {s : Settings}
  {b : UInt8} {later : List UInt8}

/-- A reading that fails has come far enough wherever it started. -/
theorem front_fault {α : Type} {place : α → Nat} (within : p.Within octets) (found : Fault) :
    p.offset + 1 ≤ extent octets.length place (fault found) :=
  Nat.succ_le_succ within.offset_le

/-- What is read of a token's form from the point has come further, and is no empty word. -/
theorem tokened {form : String → Token} {read : Except Fault (String × Point)} {text : String}
    {after : Point} (within : p.Within octets)
    (found : Lexeme.next chunk p = Lexeme.asToken form read) (same : read = .ok (text, after)) :
    p.offset < after.offset ∧ form text ≠ .bare "" := by
  subst same
  have reached := within.reaches (Lexeme.next_reaches found)
  exact ⟨(within.moves reached (Lexeme.next_shorter found)).1, Lexeme.ne_empty_word found⟩

theorem readToken_progresses (within : p.Within octets) (start : p.rest = b :: later)
    (inToken : isDelimiter b = false ∨ b = quote) :
    Progresses octets.length (p.offset + 1) (·.2.position) (p.cursor.readToken octets chunk)
      (readToken octets chunk p.cursor) := by
  obtain ⟨form, read, found, same⟩ := Cursor.readToken_eq within chunk start inToken
  rw [readToken, same]
  cases result : read with
  | error fault => exact .lift (front_fault within fault)
  | ok stopped =>
    have moves := tokened within found result
    exact ⟨rfl, .quiet (.tokened moves.1 moves.2 .nil) rfl, moves.1⟩

theorem front_taken {taken : Checked (Collector × Cursor)} (is : Taken octets chunk c p taken)
    (within : p.Within octets) : p.offset + 1 ≤ extent octets.length (·.2.position) taken := by
  cases is with
  | passed reached shorter => exact (within.moves reached shorter).1
  | piece _ reached shorter => exact (within.moves reached shorter).1
  | failed => exact front_fault within _

theorem takeElement_progresses (within : p.Within octets) (start : p.rest = b :: later)
    (notOpen : role b ≠ .openParen) (notClose : role b ≠ .closeParen) :
    Progresses octets.length (p.offset + 1) (·.2.position)
      (Checked.takeElement octets chunk b c p.cursor) (takeElement octets chunk b c p.cursor) := by
  have taken : Taken octets chunk c p (Checked.takeElement octets chunk b c p.cursor) :=
    taken_takeElement within start notOpen notClose
  cases kind : role b with
  | openParen => exact absurd kind notOpen
  | closeParen => exact absurd kind notClose
  | blank | openBracket | closeBracket =>
    simp only [takeElement, kind]
    exact .lift (front_taken taken within)
  | quote | openBrace | plain =>
    have inToken : isDelimiter b = false ∨ b = quote := by
      simp [isDelimiter, kind, ← role_eq_quote_iff]
    simp only [takeElement, Checked.takeElement, kind]
    refine (readToken_progresses within start inToken).bind fun stopped found => ?_
    obtain ⟨q, reached, here⟩ := readToken_lands within start inToken found
    rw [here, Cursor.skipLineBreaks, Cursor.skipWhile_eq reached]
    exact .pure (by simp)

/-- A loop that goes on has moved on, and its last turn comes further if the loop ends there. -/
theorem front_goesOn {σ α : Type} {limit : Nat} {place : σ → Nat} (landing : α → Nat)
    {turn : σ → Checked (Turn σ α)} {Expects : σ → Checked α → Prop} {state : σ}
    {expected : Checked α} (goesOn : GoesOn limit place turn Expects state expected)
    (near : place state ≤ limit)
    (last : ∀ result, turn state = .ok (.done result) → place state < landing result) :
    place state + 1 ≤ extent limit (turnLanding place landing) (turn state) := by
  cases taken : turn state with
  | error failure => exact Nat.succ_le_succ near
  | ok what =>
    cases what with
    | done result => exact last result taken
    | again next => exact (goesOn.next taken).1

section Kept

variable {opening : Point} {state : Keeping} {expected : Checked (List Value × Cursor)}

theorem keepingTurn_progresses (keeps : Keeps octets chunk opening state expected) :
    Progresses octets.length (state.cursor.position + 1)
      (turnLanding (·.cursor.position) (·.2.position))
      (Checked.keepingTurn octets chunk opening.offset state)
      (keepingTurn octets chunk opening.offset state) := by
  obtain ⟨p, within, here⟩ := keeps.cursor_eq
  have near : state.cursor.position ≤ octets.length := here ▸ within.offset_le
  have front := front_goesOn (·.2.position) keeps.goesOn near fun result done => by
    obtain ⟨more, passed⟩ := skip_of_keepingTurn_done done
    rw [here, within.peek] at more
    rw [here, within.skip_cursor] at passed
    rw [here, ← Except.ok.inj passed]
    exact (within.moves_skip Nat.one_pos (by simpa using more)).1
  unfold keepingTurn
  split
  · exact .lift front
  next b found =>
    split
    next taking =>
      obtain ⟨outside, notOpen, notClose⟩ := taking
      have plain : Checked.keepingTurn octets chunk opening.offset state =
          Checked.takeElement octets chunk b state.collector state.cursor >>= fun taken =>
            .ok (.again { state with collector := taken.1, cursor := taken.2 }) := by
        rw [Checked.keepingTurn, found]
        dsimp only
        split
        · contradiction
        · contradiction
        · rw [if_pos outside]
          rfl
      rw [here, within.peek] at found
      obtain ⟨later, start⟩ := List.head?_eq_some_iff.mp found
      rw [plain, here]
      exact (takeElement_progresses within start notOpen notClose).bind fun _ _ =>
        .pure (Nat.le_refl _)
    · exact .lift front

theorem readVerbatim_progresses (within : p.Within octets) (more : p.rest ≠ [])
    (running : octets.length < clock) :
    Progresses octets.length (p.offset + 1) (·.2.position)
      (Checked.readVerbatim octets chunk p.cursor) (readVerbatim clock octets chunk p.cursor) := by
  have moves := (within.moves_skip Nat.one_pos more).1
  rw [readVerbatim, Checked.readVerbatim, within.skip_cursor, ok_bind, lift_ok_bind]
  refine (loop_progresses (·.cursor.position)
    (fun state => ∃ expected, Keeps octets chunk p state expected) ?_ ?_ ?_
    ⟨_, .outside (within.skip 1)⟩ (Nat.lt_add_left _ running)).mono moves
  · rintro state ⟨_, keeps⟩
    obtain ⟨q, within, here⟩ := keeps.cursor_eq
    exact here ▸ within.offset_le
  · rintro state next ⟨_, keeps⟩ again
    exact ⟨_, (keeps.goesOn.next again).2⟩
  · rintro state ⟨_, keeps⟩
    exact keepingTurn_progresses keeps

end Kept

/-- A loop whose turns proceed, and of which each turn progresses, progresses as a whole. -/
theorem loop_proceeds {α : Type} (run : Collector → Point → Checked α) (lowest : Nat)
    {landing : α → Nat} {plain : Collector × Cursor → Checked (Turn (Collector × Cursor) α)}
    {turn : Collector × Cursor → Traced (Turn (Collector × Cursor) α)}
    (onward : ∀ {c : Collector} {p : Point}, p.Within octets → lowest ≤ p.offset →
      Proceeds octets run c p (plain (c, p.cursor)))
    (step : ∀ {c : Collector} {p : Point}, p.Within octets → lowest ≤ p.offset →
      Progresses octets.length (p.offset + 1) (turnLanding (·.2.position) landing)
        (plain (c, p.cursor)) (turn (c, p.cursor)))
    (within : p.Within octets) (further : lowest ≤ p.offset) (running : octets.length < clock) :
    Progresses octets.length p.offset landing
      (iterate octets.length (·.2.position) plain (c, p.cursor))
      (loop clock (·.2.position) turn (c, p.cursor)) := by
  refine loop_progresses (·.2.position) (fun state => ∃ (c : Collector) (p : Point),
    p.Within octets ∧ lowest ≤ p.offset ∧ state = (c, p.cursor)) ?_ ?_ ?_
    ⟨c, p, within, further, rfl⟩ (Nat.lt_add_left _ running)
  · rintro _ ⟨c, p, within, _, rfl⟩
    exact within.offset_le
  · rintro _ next ⟨c, p, within, further, rfl⟩ again
    obtain ⟨d, q, rfl, reached, shorter⟩ := (onward within further).next again
    have moves := within.moves reached shorter
    exact ⟨d, q, reached, Nat.le_trans further (Nat.le_of_lt moves.1), rfl⟩
  · rintro _ ⟨c, p, within, further, rfl⟩
    exact step within further

theorem recursiveTurn_progresses {opening : Nat} {plain : Cursor → Checked (List Value × Cursor)}
    {inner : Cursor → Traced (List Value × Cursor)} (within : p.Within octets)
    (inside : p.rest ≠ [] → Progresses octets.length (p.offset + 1) (·.2.position)
      (plain p.cursor) (inner p.cursor)) :
    Progresses octets.length (p.offset + 1) (turnLanding (·.2.position) (·.2.position))
      (Checked.recursiveTurn octets plain chunk opening (c, p.cursor))
      (recursiveTurn octets inner chunk opening (c, p.cursor)) := by
  unfold recursiveTurn Checked.recursiveTurn
  dsimp only
  rw [within.peek]
  cases left : p.rest with
  | nil => exact .lift (front_fault within _)
  | cons b later =>
    have more : p.rest ≠ [] := by simp [left]
    dsimp only [List.head?_cons]
    cases kind : role b with
    | openParen => exact (inside more).bind fun _ _ => .pure (Nat.le_refl _)
    | closeParen =>
      dsimp only
      rw [within.skip_cursor]
      exact .lift (within.moves_skip Nat.one_pos more).1
    | blank | openBracket | closeBracket | quote | openBrace | plain =>
      exact (takeElement_progresses within left (by simp [kind]) (by simp [kind])).map
        fun _ => rfl

theorem readRecursive_progresses {room depth : Nat} (limit : depth + room = s.maxDepth + 1)
    (within : p.Within octets) (more : p.rest ≠ []) (shallow : depth ≤ p.offset + 1)
    (running : octets.length < clock) :
    Progresses octets.length (p.offset + 1) (·.2.position)
      (Checked.readRecursive octets s depth p.cursor)
      (readRecursive clock octets s depth p.cursor) := by
  induction room generalizing depth p with
  | zero =>
    rw [readRecursive, Checked.readRecursive, if_pos (by omega), if_pos (by omega)]
    exact .lift (front_fault within _)
  | succ room ih =>
    have moves := (within.moves_skip Nat.one_pos more).1
    rw [readRecursive, Checked.readRecursive, if_neg (by omega), if_neg (by omega),
      within.skip_cursor, ok_bind, lift_ok_bind]
    refine (loop_proceeds (restOfRead s room p) depth (fun {c q} within further => ?_)
      (fun {c q} within further => ?_) (within.skip 1) (by omega) running).mono moves
    · refine recursiveTurn_proceeds (fun more => ?_) within
      generalize found : add depth 1 = held
      obtain rfl := found.symm.trans (add_depth within further)
      exact readRecursive_eq (by omega) within more (by omega)
    · refine recursiveTurn_progresses within fun more => ?_
      generalize found : add depth 1 = held
      obtain rfl := found.symm.trans (add_depth within further)
      exact ih (by omega) within more (by omega)

theorem readList_progresses (within : p.Within octets) (more : p.rest ≠ [])
    (running : octets.length < clock) :
    Progresses octets.length (p.offset + 1) (·.2.position)
      (Checked.readList octets s p.cursor) (readList clock octets s p.cursor) := by
  unfold readList Checked.readList
  cases s.nesting with
  | verbatim => exact readVerbatim_progresses within more running
  | recursive =>
    exact readRecursive_progresses (Nat.add_comm 1 s.maxDepth) within more (by omega) running

theorem front_proceeds {α : Type} {run : Collector → Point → Checked α} {landing : α → Nat}
    {taken : Checked (Turn (Collector × Cursor) α)} (proceeds : Proceeds octets run c p taken)
    (within : p.Within octets) (last : p.offset + 1 ≤ extent octets.length landing (run c p)) :
    p.offset + 1 ≤ extent octets.length (turnLanding (·.2.position) landing) taken := by
  rcases proceeds with rfl | ⟨d, q, rfl, reached, shorter, _⟩
  · cases same : run c p with
    | error failure => exact (same ▸ last :)
    | ok result => exact (same ▸ last :)
  · exact (within.moves reached shorter).1

/-- Where a line ends, no place in it is left. -/
abbrev lineLanding (octets : List UInt8) : Turn (Collector × Cursor) (List Value) → Nat :=
  turnLanding (·.2.position) fun _ => octets.length + 1

theorem takeValue_openBrace_progresses (within : p.Within octets)
    (start : p.rest = openBrace :: later) :
    Progresses octets.length (p.offset + 1) (lineLanding octets)
      (Checked.takeValue octets s c p.cursor) (takeValue clock octets s c p.cursor) := by
  rw [takeValue, Checked.takeValue, within.peek, start, List.head?_cons, if_neg (by decide),
    if_neg (by decide), Cursor.looksLikeLiteral_openBrace within start]
  cases found : Literal.header p with
  | error fault =>
    rw [looksLikeLiteral, Cursor.looksLikeLiteral_openBrace within start, found]
    exact .lift (front_fault within fault)
  | ok h =>
    have moves : p.offset < (p.skip h.extent).offset :=
      (within.moves_skip (Literal.extent_header_pos found) (by simp [start])).1
    have token : ((p.skip h.extent).cursor (some h.length)).readToken octets s.literalChunk =
        landing .literal <$> Checked.lift (Literal.read s.literalChunk p) :=
      Cursor.readLiteral_header within s.literalChunk found
    have announced : looksLikeLiteral octets p.cursor =
        ⟨[.headed p.cursor ((p.skip h.extent).cursor (some h.length))],
          some (.ok (true, (p.skip h.extent).cursor (some h.length)))⟩ := by
      rw [looksLikeLiteral, Cursor.looksLikeLiteral_openBrace within start, found]
      rfl
    rw [announced, recorded_bind, Checked.lift_ok, Except.map_ok, ok_bind]
    dsimp only
    rw [Bool.true_or, if_pos rfl, if_pos rfl, readToken, token]
    cases result : Literal.read s.literalChunk p with
    | error fault => exact ⟨rfl, .quiet (.headed moves .nil) rfl, front_fault within fault⟩
    | ok stopped =>
      have further := tokened within (Lexeme.next_openBrace start) result
      exact ⟨rfl, .quiet (.payload moves further.2 .nil) rfl, further.1⟩

theorem looksLikeLiteral_unannounced {k : Cursor}
    (same : k.looksLikeLiteral octets = .ok (false, k)) :
    looksLikeLiteral octets k = lift (.ok (false, k)) := by
  rw [looksLikeLiteral, same]
  rfl

theorem takeValue_end (within : p.Within octets) (left : p.rest = []) :
    takeValue clock octets s c p.cursor = lift (.ok (.done c.items)) := by
  have unannounced := looksLikeLiteral_unannounced (k := p.cursor)
    (Cursor.looksLikeLiteral_end within left)
  simp [takeValue, takeDelimiter, unannounced, Cursor.looksLikeString, within.peek, left]

theorem takeValue_progresses (within : p.Within octets) (left : p.rest = b :: later)
    (notSpace : b ≠ space) (running : octets.length < clock) :
    Progresses octets.length (p.offset + 1) (lineLanding octets)
      (Checked.takeValue octets s c p.cursor) (takeValue clock octets s c p.cursor) := by
  by_cases brace : b = openBrace
  · subst brace
    exact takeValue_openBrace_progresses within left
  have front : p.offset + 1 ≤ extent octets.length (lineLanding octets)
      (Checked.takeValue octets s c p.cursor) := by
    refine front_proceeds (takeValue_proceeds within left notSpace) within ?_
    cases restOfLine s c p <;> exact Nat.succ_le_succ within.offset_le
  rw [Checked.takeValue] at front
  rw [takeValue, Checked.takeValue]
  rw [within.peek, left, List.head?_cons] at front ⊢
  by_cases opens : b = openParen
  · rw [if_pos (by rw [opens]), if_pos (by rw [opens])]
    exact (readList_progresses within (by simp [left]) running).bind fun _ _ =>
      .pure (Nat.le_refl _)
  have unannounced : p.cursor.looksLikeLiteral octets = .ok (false, p.cursor) :=
    Cursor.looksLikeLiteral_of_ne within left notSpace brace
  rw [if_neg (by simpa using opens), unannounced, ok_bind] at front ⊢
  rw [if_neg (by simpa using opens), looksLikeLiteral_unannounced unannounced, lift_ok_bind]
  dsimp only at front ⊢
  rw [Bool.false_or, Cursor.looksLikeString, within.peek, left, List.head?_cons] at front ⊢
  dsimp only at front ⊢
  by_cases inToken : isDelimiter b = false ∨ b = quote
  · rw [if_pos (by simpa using inToken), if_pos (by simpa using inToken)]
    exact (readToken_progresses within left inToken).bind fun _ _ => .pure (Nat.le_refl _)
  · rw [if_neg (by simpa using inToken)] at front ⊢
    rw [if_neg (by simpa using inToken), takeDelimiter, within.peek, left]
    exact .lift front

theorem valuesTurn_progresses (within : p.Within octets) (running : octets.length < clock) :
    Progresses octets.length (p.offset + 1) (lineLanding octets)
      (Checked.valuesTurn octets s (c, p.cursor)) (valuesTurn clock octets s (c, p.cursor)) := by
  unfold valuesTurn Checked.valuesTurn
  dsimp only
  rw [Point.position_cursor]
  by_cases finished : octets.length ≤ p.offset
  · rw [if_pos finished, if_pos finished]
    exact .pure (Nat.succ_le_succ within.offset_le)
  have rest := Point.rest_skip_append
    (List.takeWhile_append_dropWhile (p := (· = space)) (l := p.rest)).symm
  have next := within.skip (p.rest.takeWhile (· = space)).length
  have further : p.offset + 1 ≤ (p.skip (p.rest.takeWhile (· = space)).length).offset + 1 := by
    simp
  rw [if_neg finished, if_neg finished, Cursor.skipSpaces, Cursor.skipWhile_eq within, ok_bind,
    lift_ok_bind]
  generalize p.skip (p.rest.takeWhile (· = space)).length = q at rest next further ⊢
  refine Progresses.mono ?_ further
  cases left : q.rest with
  | nil =>
    rw [takeValue_end next left, Checked.takeValue_end next left]
    exact .lift (Nat.succ_le_succ next.offset_le)
  | cons b later =>
    have notSpace : b ≠ space := by
      have head := List.head?_dropWhile_not (· = space) p.rest
      simpa [← rest, left] using head
    exact takeValue_progresses next left notSpace running

theorem decode_progresses (s : Settings) (fits : octets.length ≤ longest)
    (running : octets.length < clock) :
    Progresses octets.length 0 (fun _ => octets.length + 1) (Checked.decode s octets)
      (decode clock s octets) := by
  unfold decode Checked.decode
  cases s.maxLineLength.filter (· < octets.length) with
  | some max => exact .lift (Nat.zero_le _)
  | none =>
    exact loop_proceeds (restOfLine s) 0 (p := .start octets)
      (fun within _ => valuesTurn_proceeds within)
      (fun within _ => valuesTurn_progresses within running)
      ⟨Point.line_start octets, fits⟩ (Nat.zero_le 0) running

end Traced

/-- A turn after which its loop goes on has moved on, a token that is read moves the cursor on unless
its header was read just before, and no token is an empty word. The turns of all loops together start
at different places, one after another, in the line or at its end. So there is one more of them than
octets at most, and a clock with so many lets every reading end, with what it comes to anyway. -/
theorem loops_make_progress (s : Settings) (line : List UInt8) (clock : Nat)
    (fits : line.length ≤ longest) (running : line.length < clock) :
    (Traced.decode clock s line).outcome = some (lift (decode s line)) ∧
    Advancing (Traced.decode clock s line).events ∧
    (places (Traced.decode clock s line).events).Pairwise (· < ·) ∧
    (places (Traced.decode clock s line).events).length ≤ line.length + 1 := by
  have progresses := Traced.decode_progresses s fits running
  have few := progresses.spans.length_le
  refine ⟨?_, progresses.spans.advancing, progresses.spans.ordered, ?_⟩
  · rw [progresses.outcome, decode_eq fits]
  · cases same : Checked.decode s line with
    | error failure => rwa [same] at few
    | ok values => rwa [same] at few

/-- A header is read before its token, one list stands in another, and the last turn is taken behind
the line: nine turns for twelve octets. -/
theorem loops_make_progress_sample :
    (Traced.decode 13 ⟨0, .recursive, none, 2⟩ (ofText "\x7b1\x7dx (y(z))[")).outcome =
      some (.ok [.ofText "x", .list [.ofText "y", .list [.ofText "z"]], .ofText "["]) ∧
    Advancing (Traced.decode 13 ⟨0, .recursive, none, 2⟩ (ofText "\x7b1\x7dx (y(z))[")).events ∧
    places (Traced.decode 13 ⟨0, .recursive, none, 2⟩ (ofText "\x7b1\x7dx (y(z))[")).events =
      [0, 4, 6, 7, 8, 9, 10, 11, 12] := by
  have progress := loops_make_progress ⟨0, .recursive, none, 2⟩ (ofText "\x7b1\x7dx (y(z))[") 13
    (by decide +kernel) (by decide +kernel)
  have read : decode ⟨0, .recursive, none, 2⟩ (ofText "\x7b1\x7dx (y(z))[") =
      .ok [.ofText "x", .list [.ofText "y", .list [.ofText "z"]], .ofText "["] := by
    decide +kernel
  rw [read] at progress
  exact ⟨progress.1, progress.2.1, by decide +kernel⟩

end ImapReply
