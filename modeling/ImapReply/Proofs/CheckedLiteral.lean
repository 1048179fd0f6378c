import ImapReply.Proofs.Checked
import ImapReply.Proofs.Orderly

/-! Blanks and literals, read on the machine. Each reader comes to what the reading of points comes
to, whatever the octets are. -/
namespace ImapReply

open Octet Octets Checked

/-- What is read up to a point, with the cursor there. -/
def landing {α β : Type} (form : α → β) (found : α × Point) : β × Cursor :=
  (form found.1, found.2.cursor)

namespace Literal

theorem announced_of_header {p : Point} {h : Header} (found : header p = .ok h) :
    announced p = if (p.skip h.extent).rest.length < h.length then
        .error (.truncatedLiteral (p.skip h.extent).offset h.length (p.skip h.extent).rest.length)
      else .ok h := by
  have short : ((p.skip h.extent).rest.take h.length).length < h.length ↔
      (p.skip h.extent).rest.length < h.length := by
    rw [List.length_take]
    omega
  simp only [announced, found, short]

end Literal

namespace Cursor

variable {octets : List UInt8} {p : Point} {owed : Option Nat}

/-- A loop that passes over one octet in each turn but the last. -/
theorem iterate_octets {α : Type} {turn : Cursor → Checked (Turn Cursor α)}
    (expected : Point → Checked α)
    (step : ∀ {q : Point}, q.Within octets → turn (q.cursor owed) = .done <$> expected q ∨
      q.rest ≠ [] ∧ turn (q.cursor owed) = .again <$> (q.cursor owed).skip octets 1 ∧
        expected q = expected (q.skip 1))
    (within : p.Within octets) :
    iterate octets.length position turn (p.cursor owed) = expected p := by
  refine iterate_eq (fun k result =>
    ∃ q : Point, q.Within octets ∧ k = q.cursor owed ∧ result = expected q) ?_
    ⟨p, within, rfl, rfl⟩
  rintro _ _ ⟨q, within, rfl, rfl⟩
  rcases step within with last | ⟨more, onward, same⟩
  · exact .inl last
  · rw [within.skip_cursor] at onward
    exact .inr ⟨_, onward, within.moves_skip Nat.one_pos more, q.skip 1, within.skip 1, rfl, same⟩

/-- Passes over all octets of a kind. -/
def skipWhile (octets : List UInt8) (kind : UInt8 → Bool) : Cursor → Checked Cursor :=
  iterate octets.length position fun k =>
    match k.peek octets with
    | some b => if kind b then .again <$> k.skip octets 1 else .ok (.done k)
    | none => .ok (.done k)

theorem skipWhile_eq (within : p.Within octets) (kind : UInt8 → Bool) :
    (p.cursor owed).skipWhile octets kind =
      .ok ((p.skip (p.rest.takeWhile kind).length).cursor owed) := by
  refine iterate_octets (fun q =>
    .ok ((q.skip (q.rest.takeWhile kind).length).cursor owed)) ?_ within
  intro q within
  rw [within.peek]
  cases start : q.rest with
  | nil => exact .inl rfl
  | cons b later =>
    cases same : kind b with
    | false => simp [same, Point.skip_zero]
    | true => simp [same, Point.skip_skip, Nat.add_comm, start]

def skipSpaces (octets : List UInt8) : Cursor → Checked Cursor := skipWhile octets (· = space)

def skipLineBreaks (octets : List UInt8) : Cursor → Checked Cursor :=
  skipWhile octets fun b => b = carriageReturn ∨ b = lineFeed

theorem skipSpaces_of_ne {b : UInt8} {later : List UInt8} (within : p.Within octets)
    (start : p.rest = b :: later) (notSpace : b ≠ space) :
    (p.cursor owed).skipSpaces octets = .ok (p.cursor owed) := by
  rw [skipSpaces, skipWhile_eq within, start, List.takeWhile_cons_of_neg (by simpa using notSpace)]
  rfl

def headerFault {α : Type} (k : Cursor) (flaw : Literal.Flaw) : Checked α :=
  fault (.invalidHeader k.position flaw.reason)

@[simp] theorem headerFault_cursor {α : Type} (p : Point) (owed : Option Nat)
    (flaw : Literal.Flaw) :
    ((p.cursor owed).headerFault flaw : Checked α) = fault (.invalidHeader p.offset flaw.reason) :=
  rfl

/-- Passes over digits, and over a plus sign if the closing brace is next to it. -/
def skipDigits (octets : List UInt8) : Cursor → Checked Cursor :=
  iterate octets.length position fun k =>
    match k.peek octets with
    | none => .ok (.done k)
    | some b =>
      if isDigit b then .again <$> k.skip octets 1
      else if b = closeBrace then .ok (.done k)
      else if b = plus then do
        if octets[← add k.position 1]? = some closeBrace then .again <$> k.skip octets 1
        else k.headerFault .notNumeric
      else k.headerFault .notNumeric

/-- What passing over digits is to come to: the end of the run of digits or of the plus sign behind
it, or the fault of an octet that belongs to no header. -/
def digitsEnd (owed : Option Nat) (p : Point) : Checked Cursor :=
  let digits := p.rest.takeWhile isDigit
  match p.rest.drop digits.length with
  | [] => .ok ((p.skip digits.length).cursor owed)
  | b :: after =>
    if b = closeBrace then .ok ((p.skip digits.length).cursor owed)
    else if b = plus ∧ after.head? = some closeBrace then
      .ok ((p.skip (digits.length + 1)).cursor owed)
    else (p.skip digits.length).cursor.headerFault .notNumeric

theorem skipDigits_eq (within : p.Within octets) :
    (p.cursor owed).skipDigits octets = digitsEnd owed p := by
  refine iterate_octets (digitsEnd owed) ?_ within
  intro q within
  rw [within.peek]
  cases start : q.rest with
  | nil => simp [digitsEnd, start, Point.skip_zero]
  | cons b later =>
    have brace : isDigit closeBrace = false := by decide
    have sign : isDigit plus = false := by decide
    have apart : plus ≠ closeBrace := by decide
    by_cases digit : isDigit b = true
    · right
      simp [digitsEnd, start, digit, Point.skip_skip, Nat.add_comm, Nat.add_left_comm]
    by_cases closing : b = closeBrace
    · left
      simp [digitsEnd, start, closing, brace, Point.skip_zero]
    by_cases signing : b = plus
    · have probed : add q.offset 1 = .ok (q.offset + 1) := within.add (by simp)
      have next : octets[q.offset + 1]? = later.head? := by
        rw [within.getElem?_add, start, List.head?_eq_getElem?]
        rfl
      by_cases closed : later.head? = some closeBrace
      · right
        obtain ⟨after, rfl⟩ := List.head?_eq_some_iff.mp closed
        simp [digitsEnd, start, signing, sign, brace, apart, probed, next, Point.skip_zero]
      · left
        simp [digitsEnd, start, signing, sign, apart, probed, next, closed, Point.skip_zero]
    · left
      simp [digitsEnd, start, digit, closing, signing, Point.skip_zero]

/-- What is left of the octets in a header without the plus sign at their end. -/
def unsigned (octets : List UInt8) : List UInt8 :=
  if octets.getLast? = some plus then octets.dropLast else octets

theorem unsigned_digits {digits : List UInt8} (all : digits.all isDigit = true) :
    unsigned digits = digits := by
  apply if_neg
  intro last
  have digit := List.all_eq_true.mp all plus (List.mem_of_getLast? last)
  contradiction

theorem unsigned_plus (digits : List UInt8) : unsigned (digits ++ [plus]) = digits := by
  simp [unsigned]

/-- Judges the digits of a header with the cursor at its closing brace. -/
def judgeDigits (octets digits : List UInt8) (k : Cursor) : Checked (Nat × Cursor) :=
  if digits = [] then k.headerFault .noDigits
  else if Literal.maxLength < Literal.lengthOf digits then k.headerFault .outOfRange
  else do return (Literal.lengthOf digits, ← k.skip octets 1)

theorem judgeDigits_eq (within : p.Within octets) (digits : List UInt8) {close : Nat}
    (inside : close ≤ p.rest.length) :
    ((p.skip close).cursor owed).judgeDigits octets digits =
      (fun h => (h.length, (p.skip h.extent).cursor owed)) <$>
        lift (Literal.Header.ofDigits p digits close) := by
  have place := Point.offset_skip_of_le inside
  unfold judgeDigits Literal.Header.ofDigits
  split
  · simp [place]
  split
  · simp [place]
  · simp [(within.skip close).skip_cursor, Point.skip_skip]

/-- Ends a header whose digits start at `start`. -/
def closeHeader (octets : List UInt8) (start : Nat) (k : Cursor) : Checked (Nat × Cursor) := do
  if octets.length ≤ k.position then k.headerFault .unclosed
  else k.judgeDigits octets (unsigned (← slice octets start k.position))

theorem closeHeader_eq (within : p.Within octets) {n : Nat} (inside : n < p.rest.length) :
    ((p.skip n).cursor owed).closeHeader octets p.offset =
      ((p.skip n).cursor owed).judgeDigits octets (unsigned (p.rest.take n)) := by
  have whole := within.length_eq
  rw [closeHeader, Point.position_cursor, Point.offset_skip_of_le (Nat.le_of_lt inside),
    if_neg (by omega), within.slice (Nat.le_of_lt inside), ok_bind]

theorem closeHeader_unclosed (within : p.Within octets) (owed : Option Nat) :
    ((p.skip p.rest.length).cursor owed).closeHeader octets p.offset =
      fault (.invalidHeader (p.offset + p.rest.length) Literal.Flaw.unclosed.reason) := by
  have place : (p.skip p.rest.length).offset = p.offset + p.rest.length :=
    Point.offset_skip_of_le (Nat.le_refl _)
  rw [closeHeader, Point.position_cursor, place, if_pos (Nat.le_of_eq within.length_eq.symm),
    headerFault_cursor, place]

/-- The length that the header at the cursor announces, and the cursor behind it. -/
def readHeader (octets : List UInt8) (k : Cursor) : Checked (Nat × Cursor) := do
  let k ← k.skip octets 1
  (← k.skipDigits octets).closeHeader octets k.position

theorem readHeader_eq (within : p.Within octets) {body : List UInt8}
    (start : p.rest = openBrace :: body) :
    (p.cursor owed).readHeader octets =
      (fun h => (h.length, (p.skip h.extent).cursor owed)) <$> lift (Literal.header p) := by
  have rest : (p.skip 1).rest = body := Point.rest_skip_one start
  have place : (p.skip 1).offset = p.offset + 1 := by simp [start]
  have next := within.skip 1
  have cut : body.takeWhile isDigit ++ body.drop (body.takeWhile isDigit).length = body :=
    List.prefix_iff_eq_append.mp (List.takeWhile_prefix isDigit)
  have digits : (body.takeWhile isDigit).all isDigit = true := List.all_takeWhile
  simp only [readHeader, within.skip_cursor, ok_bind, skipDigits_eq next, digitsEnd,
    Literal.header, rest, start, List.drop_one, List.tail_cons, Point.position_cursor]
  -- The octet behind the digits decides, if the line goes on there.
  generalize body.takeWhile isDigit = run at cut digits ⊢
  generalize body.drop run.length = tail at cut ⊢
  subst cut
  rcases tail with _ | ⟨b, after⟩
  · rw [List.append_nil] at rest
    have unclosed := closeHeader_unclosed next owed
    rw [rest, place] at unclosed
    simpa only [ok_bind, lift_error, map_fault, place] using unclosed
  have inside : run.length < (p.skip 1).rest.length := by simp [start]
  dsimp only
  by_cases closing : b = closeBrace
  · rw [if_pos closing, if_pos closing, ok_bind, closeHeader_eq next inside, rest,
      List.take_left, unsigned_digits digits, Point.skip_skip]
    exact judgeDigits_eq within run (by simp [start]; omega)
  rw [if_neg closing, if_neg closing]
  by_cases signing : b = plus ∧ after.head? = some closeBrace
  · obtain ⟨rfl, closed⟩ := signing
    obtain ⟨later, rfl⟩ := List.head?_eq_some_iff.mp closed
    have signed : (p.skip 1).rest.take (run.length + 1) = run ++ [plus] := by
      simp [start, List.take_append, List.take_of_length_le]
    rw [if_pos ⟨rfl, closed⟩, if_pos ⟨rfl, closed⟩, ok_bind,
      closeHeader_eq next (by simp [start]), signed, unsigned_plus, Point.skip_skip,
      show 1 + (run.length + 1) = 2 + run.length by omega]
    exact judgeDigits_eq within run (by simp [start]; omega)
  · rw [if_neg signing, if_neg signing, headerFault_cursor, fault_bind, lift_error, map_fault,
      Point.offset_skip_append rest, place]

/-- Whether the cursor is at the start of the line, behind a space or behind an opening
parenthesis. -/
def startsToken (octets : List UInt8) (k : Cursor) : Checked Bool :=
  if k.position = 0 then return true
  else do
    let b ← itemAt octets (← sub k.position 1)
    return b = space ∨ b = openParen

theorem startsToken_eq (within : p.Within octets) :
    (p.cursor owed).startsToken octets = .ok (Literal.startsToken p) := by
  unfold startsToken Literal.startsToken
  rw [Point.position_cursor]
  by_cases moved : 0 < p.offset
  · have last : p.offset - 1 < octets.length := by
      have := within.length_eq
      omega
    have taken : itemAt octets (p.offset - 1) = .ok octets[p.offset - 1] :=
      itemAt_eq (List.getElem?_eq_getElem last)
    have behind : p.behind = some octets[p.offset - 1] := by
      rw [p.behind_eq moved, within.line, List.getElem?_eq_getElem last]
    rw [if_neg (by omega), sub_eq moved, ok_bind, taken, behind]
    rfl
  · have unread : p.read = [] := List.length_eq_zero_iff.mp (by rw [← Point.offset]; omega)
    rw [if_pos (by omega), Point.behind, unread]
    rfl

/-- Whether a header starts at the cursor, and a token may start there. -/
def atHeader (octets : List UInt8) (k : Cursor) : Checked Bool := do
  if k.peek octets = some openBrace then
    if ← k.startsToken octets then
      let body ← slice octets (← add k.position 1) octets.length
      let digits := (body.takeWhile isDigit).length
      return 0 < digits && Literal.closesHeader (← slice body digits body.length)
    else return false
  else return false

theorem atHeader_eq (within : p.Within octets) {body : List UInt8}
    (start : p.rest = openBrace :: body) :
    (p.cursor owed).atHeader octets = .ok (Literal.opensHeader p) := by
  have whole := within.length_eq
  rw [start, List.length_cons] at whole
  have after : octets.drop (p.offset + 1) = body := by
    rw [← List.drop_drop, ← within.line, Point.drop_offset_line, start, List.drop_one,
      List.tail_cons]
  have run : (body.takeWhile isDigit).length ≤ body.length :=
    (List.takeWhile_prefix isDigit).length_le
  have opens : Literal.opensHeader p = (Literal.startsToken p &&
      !(body.takeWhile isDigit).isEmpty &&
        Literal.closesHeader (body.drop (body.takeWhile isDigit).length)) := by
    simp only [Literal.opensHeader, start, List.drop_one, List.tail_cons]
  rw [atHeader, within.peek, start, List.head?_cons, if_pos rfl, startsToken_eq within, ok_bind,
    opens]
  cases Literal.startsToken p with
  | false => rfl
  | true =>
    have started : add p.offset 1 = .ok (p.offset + 1) := within.add (by omega)
    have sliced : slice octets (p.offset + 1) octets.length = .ok body := by
      rw [slice_eq (by omega) (Nat.le_refl _), List.take_length, after]
    have tail : slice body (body.takeWhile isDigit).length body.length =
        .ok (body.drop (body.takeWhile isDigit).length) := by
      rw [slice_eq run (Nat.le_refl _), List.take_length]
    rw [if_pos rfl, Point.position_cursor, started, ok_bind, sliced, ok_bind]
    dsimp only
    rw [tail, ok_bind]
    cases body.takeWhile isDigit <;> rfl

/-- Copies at most `chunk` of the octets that are owed. -/
def copyTurn (octets : List UInt8) (chunk : Nat) (copied : List UInt8) (k : Cursor) :
    Checked (Turn (List UInt8 × Cursor) (List UInt8 × Cursor)) :=
  match k.owed.filter (0 < ·) with
  | none => .ok (.done (copied, k))
  | some remaining => do
    let step := min remaining (max 1 chunk)
    let part ← slice octets k.position (← add k.position step)
    let k ← k.skip octets step
    let left ← sub remaining step
    return .again (copied ++ part, { k with owed := some left })

def copy (octets : List UInt8) (chunk : Nat) :
    List UInt8 × Cursor → Checked (List UInt8 × Cursor) :=
  iterate octets.length (·.2.position) fun (copied, k) => copyTurn octets chunk copied k

theorem copyTurn_zero (chunk : Nat) (copied : List UInt8) :
    copyTurn octets chunk copied (p.cursor (some 0)) = .ok (.done (copied, p.cursor (some 0))) := by
  rw [copyTurn, Point.owed_cursor, Option.filter_some_neg (by decide)]

theorem copyTurn_eq (within : p.Within octets) (chunk : Nat) (copied : List UInt8) {n : Nat}
    (positive : 0 < n) (inside : n ≤ p.rest.length) :
    ∃ step, 0 < step ∧ step ≤ n ∧
      copyTurn octets chunk copied (p.cursor (some n)) =
        .ok (.again (copied ++ p.rest.take step, (p.skip step).cursor (some (n - step)))) := by
  have step_pos : 0 < min n (max 1 chunk) := by omega
  have step_le : min n (max 1 chunk) ≤ n := Nat.min_le_left _ _
  refine ⟨min n (max 1 chunk), step_pos, step_le, ?_⟩
  rw [copyTurn, Point.owed_cursor, Option.filter_some_pos (by simpa using positive)]
  dsimp only
  rw [Point.position_cursor, within.add (by omega), ok_bind, within.slice (by omega), ok_bind,
    within.skip_cursor, ok_bind, sub_eq step_le]
  rfl

theorem copy_eq (within : p.Within octets) (chunk : Nat) (copied : List UInt8) {n : Nat}
    (inside : n ≤ p.rest.length) :
    copy octets chunk (copied, p.cursor (some n)) =
      .ok (copied ++ p.rest.take n, (p.skip n).cursor (some 0)) := by
  -- What has been copied and what is still owed make up the payload.
  refine iterate_eq (fun state result => ∃ copied, ∃ q : Point, ∃ n,
    q.Within octets ∧ n ≤ q.rest.length ∧ state = (copied, q.cursor (some n)) ∧
      result = .ok (copied ++ q.rest.take n, (q.skip n).cursor (some 0)))
    ?_ ⟨copied, p, n, within, inside, rfl, rfl⟩
  rintro _ _ ⟨copied, q, n, within, inside, rfl, rfl⟩
  rcases Nat.eq_zero_or_pos n with rfl | positive
  · left
    dsimp only
    rw [copyTurn_zero]
    simp [Point.skip_zero]
  · right
    obtain ⟨step, step_pos, step_le, onward⟩ := copyTurn_eq within chunk copied positive inside
    have more : q.rest ≠ [] := List.ne_nil_of_length_pos (by omega)
    refine ⟨_, onward, within.moves_skip step_pos more, _, q.skip step, n - step,
      within.skip step, ?_, rfl, ?_⟩
    · rw [Point.rest_skip, List.length_drop]
      omega
    · rw [Point.rest_skip, Point.skip_skip, List.append_assoc, ← List.take_add,
        Nat.add_sub_of_le step_le]

def readLiteral (octets : List UInt8) (chunk : Nat) (k : Cursor) : Checked (Token × Cursor) := do
  let start := k.position
  let expected := k.owed.getD 0
  let available ← sub octets.length start
  if available < expected then fault (.truncatedLiteral start expected available)
  else
    reserve octets expected
    let (copied, k) ← copy octets chunk ([], k)
    match text? copied with
    | some text => return (.literal text, { k with owed := none })
    | none => fault (.invalidText start)

/-- The payload is there as a whole, or the fault says how much of it is. -/
theorem readLiteral_eq (within : p.Within octets) (chunk n : Nat) :
    (p.cursor (some n)).readLiteral octets chunk =
      if p.rest.length < n then fault (.truncatedLiteral p.offset n p.rest.length)
      else match text? (p.rest.take n) with
        | some text => .ok (.literal text, (p.skip n).cursor)
        | none => fault (.invalidText p.offset) := by
  have whole := within.length_eq
  rw [readLiteral]
  dsimp only
  rw [Point.position_cursor, within.sub, ok_bind, Point.owed_cursor, Option.getD_some]
  by_cases short : p.rest.length < n
  · rw [if_pos short, if_pos short]
  · have inside : n ≤ p.rest.length := Nat.le_of_not_lt short
    have room : reserve octets n = .ok () := if_pos (by omega)
    rw [if_neg short, if_neg short, room, ok_bind, copy_eq within chunk [] inside, ok_bind]
    rfl

theorem readLiteral_header (within : p.Within octets) (chunk : Nat) {h : Literal.Header}
    (found : Literal.header p = .ok h) :
    ((p.skip h.extent).cursor (some h.length)).readLiteral octets chunk =
      landing .literal <$> lift (Literal.read chunk p) := by
  rw [readLiteral_eq (within.skip _), Literal.read, Literal.announced_of_header found]
  by_cases short : (p.skip h.extent).rest.length < h.length
  · simp only [if_pos short, lift_error, map_fault]
  · simp only [if_neg short, Literal.text?_copy]
    cases text? ((p.skip h.extent).rest.take h.length) <;> rfl

def skipLiteral (octets : List UInt8) (k : Cursor) : Checked Cursor := do
  let (announced, k) ← k.readHeader octets
  let available ← sub octets.length k.position
  if available < announced then fault (.truncatedLiteral k.position announced available)
  else k.skip octets announced

theorem skipLiteral_eq (within : p.Within octets) {body : List UInt8}
    (start : p.rest = openBrace :: body) :
    (p.cursor owed).skipLiteral octets =
      (fun n => (p.skip n).cursor owed) <$> lift (Literal.extent p) := by
  rw [skipLiteral, readHeader_eq within start, Literal.extent]
  cases found : Literal.header p with
  | error fault => simp [Literal.announced, found]
  | ok h =>
    have after := within.skip h.extent
    rw [Literal.announced_of_header found, lift_ok, Except.map_ok, ok_bind]
    dsimp only
    rw [Point.position_cursor, after.sub, ok_bind, after.skip_cursor, Point.skip_skip]
    by_cases short : (p.skip h.extent).rest.length < h.length
    · rw [if_pos short, if_pos short]
      rfl
    · rw [if_neg short, if_neg short]
      rfl

end Cursor

end ImapReply
