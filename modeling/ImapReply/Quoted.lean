import ImapReply.Fault
import ImapReply.Point

/-! Quoted strings. A backslash keeps the octet after it from closing the string; which pairs are
then shortened is decided by two passes over the text. -/
namespace ImapReply.Quoted

open Octet

/-- Octets in front of the first quote that no backslash keeps, plus those `passed` before. -/
def lengthAfter (passed : Nat) : List UInt8 → Option Nat
  | [] => none
  | [b] => if b = quote then some passed else none
  | b :: c :: after =>
    if b = quote then some passed
    else if b = backslash then lengthAfter (passed + 2) after
    else lengthAfter (passed + 1) (c :: after)

/-- Length of the content of a string whose opening quote has just been passed. -/
def contentLength (octets : List UInt8) : Option Nat := lengthAfter 0 octets

theorem lengthAfter_eq (passed : Nat) (octets : List UInt8) :
    lengthAfter passed octets = (contentLength octets).map (passed + ·) := by
  suffices general : ∀ more, lengthAfter (passed + more) octets =
      (lengthAfter more octets).map (passed + ·) from general 0
  intro more
  fun_induction lengthAfter more octets <;> simp_all [lengthAfter, Nat.add_assoc]

theorem contentLength_nil : contentLength [] = none := rfl

theorem contentLength_quote (after : List UInt8) : contentLength (quote :: after) = some 0 := by
  cases after <;> rfl

theorem contentLength_backslash (b : UInt8) (after : List UInt8) :
    contentLength (backslash :: b :: after) = (contentLength after).map (2 + ·) :=
  lengthAfter_eq 2 after

theorem contentLength_plain {b : UInt8} (after : List UInt8) (notQuote : b ≠ quote)
    (notBackslash : b ≠ backslash) :
    contentLength (b :: after) = (contentLength after).map (1 + ·) := by
  cases after with
  | nil => simp [contentLength, lengthAfter, notQuote]
  | cons c after =>
    rw [contentLength, lengthAfter, if_neg notQuote, if_neg notBackslash, lengthAfter_eq]

/-- A pass reads from left to right and puts what it keeps onto `kept`, the newest first. -/
def passOnto (escaped : Char) (kept : List Char) : List Char → List Char
  | [] => kept
  | [c] => c :: kept
  | c :: d :: after =>
    if c = '\\' ∧ d = escaped then passOnto escaped (d :: kept) after
    else passOnto escaped (c :: kept) (d :: after)

/-- Shortens every pair of a backslash and `escaped` to the latter. -/
def pass (escaped : Char) (text : List Char) : List Char := (passOnto escaped [] text).reverse

theorem passOnto_eq (escaped : Char) (kept text : List Char) :
    passOnto escaped kept text = (pass escaped text).reverse ++ kept := by
  suffices general : ∀ more, passOnto escaped (more ++ kept) text =
      passOnto escaped more text ++ kept by
    simpa [pass] using general []
  intro more
  fun_induction passOnto escaped more text <;> simp_all [passOnto]

theorem pass_nil (escaped : Char) : pass escaped [] = [] := rfl

theorem pass_pair (escaped : Char) (after : List Char) :
    pass escaped ('\\' :: escaped :: after) = escaped :: pass escaped after := by
  rw [pass, passOnto, if_pos ⟨rfl, rfl⟩, passOnto_eq]
  simp

theorem pass_cons {escaped c : Char} {after : List Char}
    (single : ¬(c = '\\' ∧ after.head? = some escaped)) :
    pass escaped (c :: after) = c :: pass escaped after := by
  cases after with
  | nil => rfl
  | cons d after =>
    rw [pass, passOnto, if_neg (by simpa using single), passOnto_eq]
    simp

/-- Quotes are shortened first, backslashes in what is then left. -/
def unescape (content : String) : String :=
  String.ofList (pass '\\' (pass '"' content.toList))

/-- Octets of the quoted string at the point, both quotes included. -/
def extent (p : Point) : Except Fault Nat :=
  match contentLength (p.rest.drop 1) with
  | none => .error (.unterminatedQuoted p.offset)
  | some n => .ok (n + 2)

theorem extent_pos {p : Point} {n : Nat} (found : extent p = .ok n) : 0 < n := by
  unfold extent at found
  split at found
  · contradiction
  · obtain rfl := Except.ok.inj found
    omega

/-- Text of the quoted string at the point, and the point after its closing quote. -/
def read (p : Point) : Except Fault (String × Point) :=
  match contentLength (p.rest.drop 1) with
  | none => .error (.unterminatedQuoted p.offset)
  | some n =>
    match Octets.text? ((p.rest.drop 1).take n) with
    | none => .error (.invalidText (p.offset + 1))
    | some content => .ok (unescape content, p.skip (n + 2))

/-- Reading moves past two quotes at least. -/
theorem read_skip {p after : Point} {text : String} (found : read p = .ok (text, after)) :
    ∃ n, after = p.skip (n + 1) := by
  unfold read at found
  split at found
  · contradiction
  next n _ =>
    split at found
    · contradiction
    · obtain ⟨-, rfl⟩ := Prod.mk.inj (Except.ok.inj found)
      exact ⟨n + 1, rfl⟩

end ImapReply.Quoted
