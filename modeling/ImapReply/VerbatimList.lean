import ImapReply.Collector

/-! Lists whose inner lists are kept as text. An inner list reaches from its parenthesis to the
matching one, whatever the strings and literals in between hold. -/
namespace ImapReply.VerbatimList

open Octet

/-- Octets passed over as one inside an inner list: a quoted string, a literal, or one octet. -/
def stride (p : Point) (b : UInt8) : Except Fault Nat :=
  match role b with
  | .quote => Quoted.extent p
  | .openBrace => if Literal.opensHeader p then Literal.extent p else .ok 1
  | _ => .ok 1

/-- Number of parentheses open after an octet, or none if it closes the last one. -/
def depthAfter (depth : Nat) (b : UInt8) : Option Nat :=
  match role b, depth with
  | .openParen, depth => some (depth + 1)
  | .closeParen, 0 => none
  | .closeParen, depth + 1 => some depth
  | _, depth => some depth

theorem stride_pos {p : Point} {b : UInt8} {n : Nat} (found : stride p b = .ok n) : 0 < n := by
  unfold stride at found
  split at found
  · exact Quoted.extent_pos found
  · split at found
    · exact Literal.extent_pos found
    · simp at found; omega
  · simp at found; omega

/-- Octets up to and with the parenthesis that matches one already passed, plus those `passed`
before; none if the line ends first. Inside, `depth` further parentheses are open. -/
def closeAfter (depth passed : Nat) (p : Point) : Except Fault (Option Nat) :=
  match _left : p.rest with
  | [] => .ok none
  | b :: _ =>
    match _step : stride p b with
    | .error fault => .error fault
    | .ok n =>
      match depthAfter depth b with
      | none => .ok (some (passed + n))
      | some depth => closeAfter depth (passed + n) (p.skip n)
termination_by p.rest.length
decreasing_by
  have := stride_pos _step
  simp [_left]
  omega

/-- Text of the inner list at `start`, parentheses included, and the point after it. If it is
never closed, neither is the list around it, and the fault names the outer one. -/
def inner (opening start : Point) : Except Fault (String × Point) :=
  match closeAfter 0 1 (start.skip 1) with
  | .error fault => .error fault
  | .ok none => .error (.unterminatedList opening.offset)
  | .ok (some n) =>
    match Octets.text? (start.rest.take n) with
    | none => .error (.invalidText start.offset)
    | some text => .ok (text, start.skip n)

theorem closeAfter_pos {depth passed n : Nat} {p : Point}
    (found : closeAfter depth passed p = .ok (some n)) : passed < n := by
  fun_induction closeAfter depth passed p with
  | case1 => simp at found
  | case2 => simp at found
  | case3 depth passed p b _ _ n step =>
    have := stride_pos step
    simp at found
    omega
  | case4 depth passed p b _ _ n step _ _ ih =>
    have := stride_pos step
    have := ih found
    omega

theorem inner_skip {opening start after : Point} {text : String}
    (found : inner opening start = .ok (text, after)) : ∃ n, after = start.skip (n + 1) := by
  unfold inner at found
  split at found
  · contradiction
  · contradiction
  next n closed =>
    have := closeAfter_pos closed
    split at found
    · contradiction
    · obtain ⟨-, rfl⟩ := Prod.mk.inj (Except.ok.inj found)
      exact ⟨n - 1, by rw [Nat.sub_add_cancel (by omega)]⟩

/-- Items up to the parenthesis that closes the list from `opening`, and the point after it. -/
def readItems (chunk : Nat) (opening : Point) (c : Collector) (p : Point) :
    Except Fault (List Value × Point) :=
  match _next : Lexeme.next chunk p with
  | .error fault => .error fault
  | .ok none => .error (.unterminatedList opening.offset)
  | .ok (some (.closeParen, after)) => .ok (c.items, after)
  | .ok (some (.piece piece, after)) => readItems chunk opening (c.add piece) after
  | .ok (some (.openParen, _)) =>
    match _kept : inner opening p.skipBlanks with
    | .error fault => .error fault
    | .ok (text, after) => readItems chunk opening (c.push (.ofText text)) after
termination_by p.rest.length
decreasing_by
  · exact Lexeme.next_shorter _next
  · obtain ⟨left, _⟩ := Lexeme.next_skip _next
    obtain ⟨n, rfl⟩ := inner_skip _kept
    have := p.length_rest_skipBlanks_le
    simp only [Point.rest_skip, List.length_drop]
    omega

/-- Items of the list whose parenthesis is at the point. A bare `NIL` inside is a word. -/
def read (chunk : Nat) (p : Point) : Except Fault (List Value × Point) :=
  readItems chunk p { mapsNil := false } (p.skip 1)

theorem readItems_eq (chunk : Nat) (opening : Point) (c : Collector) (p : Point) :
    readItems chunk opening c p =
      match Lexeme.next chunk p with
      | .error fault => .error fault
      | .ok none => .error (.unterminatedList opening.offset)
      | .ok (some (.closeParen, after)) => .ok (c.items, after)
      | .ok (some (.piece piece, after)) => readItems chunk opening (c.add piece) after
      | .ok (some (.openParen, _)) =>
        match inner opening p.skipBlanks with
        | .error fault => .error fault
        | .ok (text, after) => readItems chunk opening (c.push (.ofText text)) after := by
  rw [readItems]
  grind

theorem closeAfter_eq (depth passed : Nat) (p : Point) :
    closeAfter depth passed p =
      match p.rest with
      | [] => .ok none
      | b :: _ =>
        match stride p b with
        | .error fault => .error fault
        | .ok n =>
          match depthAfter depth b with
          | none => .ok (some (passed + n))
          | some depth => closeAfter depth (passed + n) (p.skip n) := by
  rw [closeAfter]
  grind

theorem readItems_shorter {chunk : Nat} {opening p after : Point} {c : Collector}
    {items : List Value} (found : readItems chunk opening c p = .ok (items, after)) :
    after.rest.length < p.rest.length := by
  fun_induction readItems chunk opening c p with
  | case1 => simp at found
  | case2 => simp at found
  | case3 c p after' next =>
    obtain ⟨-, rfl⟩ := by simpa using found
    exact Lexeme.next_shorter next
  | case4 c p piece after' next ih => exact Nat.lt_trans (ih found) (Lexeme.next_shorter next)
  | case5 => simp at found
  | case6 c p _ next text after' kept ih =>
    obtain ⟨left, _⟩ := Lexeme.next_skip next
    obtain ⟨n, rfl⟩ := inner_skip kept
    have := p.length_rest_skipBlanks_le
    have := ih found
    simp only [Point.rest_skip, List.length_drop] at this
    omega

end ImapReply.VerbatimList
