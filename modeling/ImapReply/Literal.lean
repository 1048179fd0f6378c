import ImapReply.Fault
import ImapReply.Point

/-! Literals: a header in braces announces how many octets of payload follow it. The payload may
hold any octets, so it is counted and never searched for delimiters. -/
namespace ImapReply.Literal

open Octet

/-- Reasons why octets after an opening brace are no header. -/
inductive Flaw where
  | notNumeric
  | unclosed
  | noDigits
  | outOfRange
deriving DecidableEq, Repr

def Flaw.reason : Flaw → String
  | .notNumeric => "non-numeric literal length"
  | .unclosed => "missing closing brace"
  | .noDigits => "missing literal length"
  | .outOfRange => "literal length out of range"

/-- A length is held in 64 bits. -/
def maxLength : Nat := UInt64.size - 1

/-- Value of a run of digits, the most significant first. -/
def lengthOf (digits : List UInt8) : Nat :=
  digits.foldl (fun value digit => 10 * value + digitValue digit) 0

structure Header where
  /-- Octets of payload announced. -/
  length : Nat
  /-- Octets of the header itself, braces included. -/
  extent : Nat
deriving DecidableEq, Repr

/-- Judges the digits of a header whose closing brace stands `close` octets after its start. -/
def Header.ofDigits (p : Point) (digits : List UInt8) (close : Nat) : Except Fault Header :=
  if digits = [] then .error (.invalidHeader (p.offset + close) Flaw.noDigits.reason)
  else if maxLength < lengthOf digits then
    .error (.invalidHeader (p.offset + close) Flaw.outOfRange.reason)
  else .ok ⟨lengthOf digits, close + 1⟩

theorem Header.ofDigits_eq_ok_iff {p : Point} {digits : List UInt8} {close : Nat} {h : Header} :
    Header.ofDigits p digits close = .ok h ↔
      digits ≠ [] ∧ lengthOf digits ≤ maxLength ∧ h = ⟨lengthOf digits, close + 1⟩ := by
  unfold Header.ofDigits
  by_cases none : digits = []
  · simp [none]
  · by_cases large : maxLength < lengthOf digits
    · simp [none, large, Nat.not_le_of_lt large]
    · simp [none, large, Nat.le_of_not_lt large, eq_comm]

/-- Header whose opening brace is at the point. One plus sign may stand before the closing
brace. A fault names the octet that cannot belong to the header. -/
def header (p : Point) : Except Fault Header :=
  let body := p.rest.drop 1
  let digits := body.takeWhile isDigit
  match body.drop digits.length with
  | [] => .error (.invalidHeader (p.offset + 1 + digits.length) Flaw.unclosed.reason)
  | b :: after =>
    if b = closeBrace then Header.ofDigits p digits (1 + digits.length)
    else if b = plus ∧ after.head? = some closeBrace then
      Header.ofDigits p digits (2 + digits.length)
    else .error (.invalidHeader (p.offset + 1 + digits.length) Flaw.notNumeric.reason)

/-- Header at the point, if its whole payload is in the line. -/
def announced (p : Point) : Except Fault Header :=
  match header p with
  | .error fault => .error fault
  | .ok h =>
    let payload := p.skip h.extent
    if (payload.rest.take h.length).length < h.length then
      .error (.truncatedLiteral payload.offset h.length payload.rest.length)
    else .ok h

/-- Appends `n` of the octets to `copied`, at most `chunk` of them in one step. -/
def copy (chunk : Nat) (copied : ByteArray) (n : Nat) (octets : List UInt8) : ByteArray :=
  if n = 0 then copied
  else
    let step := min n (max 1 chunk)
    copy chunk (copied ++ (octets.take step).toByteArray) (n - step) (octets.drop step)
termination_by n
decreasing_by omega

/-- How the payload is cut into steps does not show in the copy. -/
theorem copy_eq (chunk : Nat) (copied : ByteArray) (n : Nat) (octets : List UInt8) :
    copy chunk copied n octets = copied ++ (octets.take n).toByteArray := by
  fun_induction copy chunk copied n octets with
  | case1 => simp
  | case2 copied n octets nonzero step ih =>
    have cut : octets.take n = octets.take step ++ (octets.drop step).take (n - step) := by
      rw [← List.take_add]; congr 1; omega
    rw [ih, cut, List.toByteArray_append, ByteArray.append_assoc]

theorem text?_copy (chunk n : Nat) (octets : List UInt8) :
    String.fromUTF8? (copy chunk .empty n octets) = Octets.text? (octets.take n) := by
  rw [copy_eq, ByteArray.empty_append, Octets.text?]

/-- Text of the literal at the point, and the point after its payload. -/
def read (chunk : Nat) (p : Point) : Except Fault (String × Point) :=
  match announced p with
  | .error fault => .error fault
  | .ok h =>
    let payload := p.skip h.extent
    match String.fromUTF8? (copy chunk .empty h.length payload.rest) with
    | none => .error (.invalidText payload.offset)
    | some text => .ok (text, payload.skip h.length)

theorem extent_header_pos {p : Point} {h : Header} (found : header p = .ok h) : 0 < h.extent := by
  dsimp only [header] at found
  split at found
  · contradiction
  · split at found
    · obtain ⟨_, _, rfl⟩ := Header.ofDigits_eq_ok_iff.mp found
      exact Nat.zero_lt_succ _
    · split at found
      · obtain ⟨_, _, rfl⟩ := Header.ofDigits_eq_ok_iff.mp found
        exact Nat.zero_lt_succ _
      · contradiction

theorem announced_eq_ok_iff {p : Point} {h : Header} :
    announced p = .ok h ↔ header p = .ok h ∧ h.length ≤ (p.skip h.extent).rest.length := by
  unfold announced
  cases found : header p with
  | error fault => simp
  | ok other =>
    dsimp only
    have short : ((p.skip other.extent).rest.take other.length).length < other.length ↔
        ¬ other.length ≤ (p.skip other.extent).rest.length := by
      simp only [List.length_take]
      omega
    by_cases enough : other.length ≤ (p.skip other.extent).rest.length
    · rw [if_neg fun few => short.mp few enough]
      constructor
      · intro same
        obtain rfl := Except.ok.inj same
        exact ⟨rfl, enough⟩
      · exact fun both => both.1
    · rw [if_pos (short.mpr enough)]
      constructor
      · intro same
        contradiction
      · rintro ⟨same, within⟩
        obtain rfl := Except.ok.inj same
        exact absurd within enough

/-- Reading moves past a header at least. -/
theorem read_skip {chunk : Nat} {p after : Point} {text : String}
    (found : read chunk p = .ok (text, after)) : ∃ n, after = p.skip (n + 1) := by
  unfold read at found
  split at found
  · contradiction
  next h valid =>
    have positive := extent_header_pos (announced_eq_ok_iff.mp valid).1
    dsimp only at found
    split at found
    · contradiction
    · obtain ⟨rfl, rfl⟩ := by simpa using found
      exact ⟨h.extent + h.length - 1, by rw [Point.skip_skip]; congr 1; omega⟩

/-- Octets of the literal at the point, header and payload. The payload need not be text. -/
def extent (p : Point) : Except Fault Nat :=
  match announced p with
  | .error fault => .error fault
  | .ok h => .ok (h.extent + h.length)

theorem extent_pos {p : Point} {n : Nat} (found : extent p = .ok n) : 0 < n := by
  unfold extent at found
  split at found
  · contradiction
  next h valid =>
    have positive := extent_header_pos (announced_eq_ok_iff.mp valid).1
    simp at found
    omega

/-- Whether octets close a header, with or without a plus sign. -/
def closesHeader : List UInt8 → Bool
  | [] => false
  | b :: after => b = closeBrace ∨ (b = plus ∧ after.head? = some closeBrace)

/-- Whether a token may start at the point: at the start of the line, after a space or after an
opening parenthesis. -/
def startsToken (p : Point) : Bool :=
  match p.behind with
  | none => true
  | some b => b = space ∨ b = openParen

/-- Whether the opening brace at the point belongs to a header. One that stands inside a word
does not, and neither does one with anything but digits before the closing brace. -/
def opensHeader (p : Point) : Bool :=
  let body := p.rest.drop 1
  let digits := body.takeWhile isDigit
  startsToken p && !digits.isEmpty && closesHeader (body.drop digits.length)

end ImapReply.Literal
