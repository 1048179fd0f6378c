import ImapReply.Proofs.CheckedLiteral
import ImapReply.Proofs.Exchange
import ImapReply.Proofs.Layout
import Mathlib.Control.Monad.Basic

/-! The form of a literal's header. Reading a header and looking ahead for one are written apart
from each other, yet both go by this form. What is left for reading alone to judge is whether the
length can be held and, behind the header, whether the payload is there. -/
namespace ImapReply

open Octet Octets

/-- The line announces a literal in the right form, but more than 64 bits can say or more than there
is. -/
def Fault.OfLength : Fault → Prop
  | .invalidHeader _ reason => reason = Literal.Flaw.outOfRange.reason
  | .truncatedLiteral _ _ _ => True
  | .unterminatedQuoted _ | .unterminatedList _ | .invalidText _ | .nestingTooDeep _ _
  | .unexpected _ _ | .lineTooLong _ _ => False

namespace Literal

/-- At the point stands a brace, then digits, then a plus sign or none, then the closing brace.
This is a form only: the digits may denote any number. -/
structure Form (p : Point) (digits : List UInt8) (extent : Nat) : Prop where
  numeral : IsNumeral digits
  octets : ∃ signed tail, p.rest = headerOctets digits signed ++ tail ∧
    extent = (headerOctets digits signed).length

variable {p : Point} {body digits : List UInt8} {n : Nat}

/-- The digits of a form are all digits behind the brace. -/
theorem exists_form_iff (start : p.rest = openBrace :: body) :
    (∃ digits extent, Form p digits extent) ↔ body.takeWhile isDigit ≠ [] ∧
      closesHeader (body.drop (body.takeWhile isDigit).length) = true := by
  constructor
  · rintro ⟨digits, _, numeral, signed, tail, rest, rfl⟩
    have run := takeWhile_digits numeral.digit signed tail
    rw [← drop_headerOctets, ← rest, start, List.drop_one, List.tail_cons] at run
    have behind : body =
        digits ++ ((if signed then [plus, closeBrace] else [closeBrace]) ++ tail) := by
      rw [start, headerOctets] at rest
      simpa using rest
    rw [run, behind, List.drop_left]
    exact ⟨numeral.nonempty, by cases signed <;> simp [closesHeader]⟩
  · rintro ⟨nonempty, closed⟩
    have numeral : IsNumeral (body.takeWhile isDigit) :=
      ⟨nonempty, fun d member => List.all_eq_true.mp List.all_takeWhile d member⟩
    have cut : body.takeWhile isDigit ++ body.drop (body.takeWhile isDigit).length = body :=
      List.prefix_iff_eq_append.mp (List.takeWhile_prefix isDigit)
    generalize body.takeWhile isDigit = digits at numeral closed cut
    generalize body.drop digits.length = left at closed cut
    subst cut
    rcases left with _ | ⟨b, after⟩
    · contradiction
    rcases of_decide_eq_true closed with rfl | ⟨rfl, first⟩
    · exact ⟨digits, _, numeral, false, after, by simp [start, headerOctets], rfl⟩
    · obtain ⟨tail, rfl⟩ := List.head?_eq_some_iff.mp first
      exact ⟨digits, _, numeral, true, tail, by simp [start, headerOctets], rfl⟩

/-- Where the form is there, only the number is judged. -/
theorem header_of_form (form : Form p digits n) :
    header p = if lengthOf digits ≤ maxLength then .ok ⟨lengthOf digits, n⟩
      else .error (.invalidHeader (p.offset + (n - 1)) Flaw.outOfRange.reason) := by
  obtain ⟨numeral, signed, tail, start, rfl⟩ := form
  by_cases fits : lengthOf digits ≤ maxLength
  · rw [if_pos fits, header_headerOctets start numeral fits]
  · rw [if_neg fits, header_large start numeral (Nat.lt_of_not_le fits)]

/-- Where the form is not there, the fault is one of the form. -/
theorem header_formless (start : p.rest = openBrace :: body)
    (formless : ¬ ∃ digits extent, Form p digits extent) :
    ∃ position flaw, flaw ≠ .outOfRange ∧
      header p = .error (.invalidHeader position (Flaw.reason flaw)) := by
  have judged (empty : body.takeWhile isDigit = []) (close : Nat) :
      Header.ofDigits p (body.takeWhile isDigit) close =
        .error (.invalidHeader (p.offset + close) Flaw.noDigits.reason) := by
    rw [Header.ofDigits, if_pos empty]
  rw [exists_form_iff start] at formless
  simp only [header, start, List.drop_one, List.tail_cons]
  cases left : body.drop (body.takeWhile isDigit).length with
  | nil => exact ⟨_, .unclosed, by decide, rfl⟩
  | cons b after =>
    dsimp only
    by_cases closed : closesHeader (b :: after) = true
    · have empty : body.takeWhile isDigit = [] :=
        Decidable.byContradiction fun nonempty => formless ⟨nonempty, left ▸ closed⟩
      rcases of_decide_eq_true closed with closing | signing
      · exact ⟨_, .noDigits, by decide, by rw [if_pos closing, judged empty]⟩
      · have apart : b ≠ closeBrace := by rw [signing.1]; decide
        exact ⟨_, .noDigits, by decide, by rw [if_neg apart, if_pos signing, judged empty]⟩
    · rw [closesHeader, decide_eq_true_eq, not_or] at closed
      exact ⟨_, .notNumeric, by decide, by rw [if_neg closed.1, if_neg closed.2]⟩

theorem startsToken_iff : startsToken p = true ↔ Announcing p.behind := by
  unfold startsToken Announcing
  cases p.behind <;> simp

/-- Looking ahead is looking for the form, where a token may start. -/
theorem opensHeader_iff (start : p.rest = openBrace :: body) :
    opensHeader p = true ↔ Announcing p.behind ∧ ∃ digits extent, Form p digits extent := by
  simp only [opensHeader, start, List.drop_one, List.tail_cons, Bool.and_eq_true,
    startsToken_iff, Bool.not_eq_true', List.isEmpty_eq_false_iff, exists_form_iff start, and_assoc]

theorem header_ok_iff (start : p.rest = openBrace :: body) (h : Header) :
    header p = .ok h ↔ ∃ digits, Form p digits h.extent ∧ h.length = lengthOf digits ∧
      lengthOf digits ≤ maxLength := by
  rw [header_eq_ok_iff (by rw [start]; rfl)]
  constructor
  · rintro ⟨digits, signed, tail, rest, numeral, fits, rfl⟩
    exact ⟨digits, ⟨numeral, signed, tail, rest, rfl⟩, rfl, fits⟩
  · rintro ⟨digits, ⟨numeral, signed, tail, rest, extent⟩, length, fits⟩
    refine ⟨digits, signed, tail, rest, numeral, fits, ?_⟩
    rw [← length, ← extent]

/-- Of a form that is there nothing but the number can be at fault. -/
theorem header_large_iff (start : p.rest = openBrace :: body) :
    (∃ position, header p = .error (.invalidHeader position Flaw.outOfRange.reason)) ↔
      ∃ digits extent, Form p digits extent ∧ maxLength < lengthOf digits := by
  constructor
  · rintro ⟨position, failed⟩
    by_cases formed : ∃ digits extent, Form p digits extent
    · obtain ⟨digits, extent, form⟩ := formed
      refine ⟨digits, extent, form, Nat.lt_of_not_le fun fits => ?_⟩
      rw [header_of_form form, if_pos fits] at failed
      contradiction
    · obtain ⟨other, flaw, different, failed'⟩ := header_formless start formed
      rw [failed'] at failed
      cases flaw <;> simp [Flaw.reason] at failed different
  · rintro ⟨digits, extent, form, large⟩
    exact ⟨_, by rw [header_of_form form, if_neg (Nat.not_le_of_lt large)]⟩

theorem header_formless_iff (start : p.rest = openBrace :: body) :
    (∃ position reason, reason ≠ Flaw.outOfRange.reason ∧
      header p = .error (.invalidHeader position reason)) ↔
        ¬ ∃ digits extent, Form p digits extent := by
  constructor
  · rintro ⟨position, reason, different, failed⟩ ⟨digits, extent, form⟩
    rw [header_of_form form] at failed
    split at failed
    · contradiction
    · obtain ⟨-, rfl⟩ := Fault.invalidHeader.inj (Except.error.inj failed)
      exact different rfl
  · intro formless
    obtain ⟨position, flaw, different, failed⟩ := header_formless start formless
    refine ⟨position, _, ?_, failed⟩
    cases flaw <;> first | contradiction | decide

/-- The form is there if the header is judged by its number, whatever the verdict. -/
theorem exists_form_iff_judged (start : p.rest = openBrace :: body) :
    (∃ digits extent, Form p digits extent) ↔ (∃ h, header p = .ok h) ∨
      ∃ position, header p = .error (.invalidHeader position Flaw.outOfRange.reason) := by
  constructor
  · rintro ⟨digits, extent, form⟩
    rw [header_of_form form]
    split
    · exact .inl ⟨_, rfl⟩
    · exact .inr ⟨_, rfl⟩
  · rintro (⟨h, found⟩ | large)
    · obtain ⟨digits, form, -⟩ := (header_ok_iff start h).mp found
      exact ⟨digits, _, form⟩
    · obtain ⟨digits, extent, form, -⟩ := (header_large_iff start).mp large
      exact ⟨digits, extent, form⟩

/-- Where a header is expected, its form is there. -/
theorem extent_fault_ofLength {fault : Fault} (start : p.rest = openBrace :: body)
    (recognized : opensHeader p = true) (failed : extent p = .error fault) : fault.OfLength := by
  obtain ⟨-, digits, n, form⟩ := (opensHeader_iff start).mp recognized
  have judged := header_of_form form
  unfold extent announced at failed
  by_cases fits : lengthOf digits ≤ maxLength
  · rw [judged, if_pos fits] at failed
    dsimp only at failed
    split at failed
    next short =>
      split at short
      · obtain rfl := Except.error.inj short
        obtain rfl := Except.error.inj failed
        trivial
      · contradiction
    · contradiction
  · rw [judged, if_neg fits] at failed
    obtain rfl := Except.error.inj failed
    rfl

end Literal

namespace VerbatimList

variable {p : Point} {body : List UInt8} {b : UInt8} {fault : Fault} {depth passed : Nat}

theorem stride_fault_ofLength (start : p.rest = openBrace :: body)
    (failed : stride p openBrace = .error fault) : fault.OfLength := by
  have kind : role openBrace = .openBrace := role_eq_openBrace_iff.mpr rfl
  simp only [stride, kind] at failed
  split at failed
  next recognized => exact Literal.extent_fault_ofLength start recognized failed
  next => contradiction

/-- Passing over an inner list fails at a string that is not closed or at the length of a literal,
never at the form of a header. -/
theorem closeAfter_fault (failed : closeAfter depth passed p = .error fault) :
    (∃ position, fault = .unterminatedQuoted position) ∨ fault.OfLength := by
  fun_induction closeAfter depth passed p with
  | case1 => contradiction
  | case2 depth passed p b tail start other stuck =>
    obtain rfl := Except.error.inj failed
    cases kind : role b with
    | quote =>
      simp only [stride, kind, Quoted.extent] at stuck
      split at stuck
      · exact .inl ⟨_, (Except.error.inj stuck).symm⟩
      · contradiction
    | openBrace =>
      obtain rfl := role_eq_openBrace_iff.mp kind
      exact .inr (stride_fault_ofLength start stuck)
    | _ => simp [stride, kind] at stuck
  | case3 => contradiction
  | case4 depth passed p b tail start n taken deeper counted ih => exact ih failed

end VerbatimList

open Literal Checked

/-- A header is read exactly where its form is and its length can be held, and the reading then
stops right behind the closing brace. It is too large exactly where the form is and the length
cannot be held; where the form is not, the form is at fault. Looking ahead finds the form as well,
where a token may start, so a literal that is passed over can only be at fault for its length. All
this holds of the readings on the machine, which go octet by octet. -/
theorem headers_recognized_alike {p : Point} (opens : p.rest.head? = some openBrace) :
    (∀ h, header p = .ok h ↔ ∃ digits, Literal.Form p digits h.extent ∧
      h.length = lengthOf digits ∧ lengthOf digits ≤ maxLength) ∧
    ((∃ position, header p = .error (.invalidHeader position Flaw.outOfRange.reason)) ↔
      ∃ digits extent, Literal.Form p digits extent ∧ maxLength < lengthOf digits) ∧
    ((∃ position reason, reason ≠ Flaw.outOfRange.reason ∧
      header p = .error (.invalidHeader position reason)) ↔
        ¬ ∃ digits extent, Literal.Form p digits extent) ∧
    (opensHeader p = true ↔ Announcing p.behind ∧ ((∃ h, header p = .ok h) ∨
      ∃ position, header p = .error (.invalidHeader position Flaw.outOfRange.reason))) ∧
    (∀ fault, VerbatimList.stride p openBrace = .error fault → fault.OfLength) ∧
    (∀ depth passed start fault, VerbatimList.closeAfter depth passed start = .error fault →
      (∃ position, fault = .unterminatedQuoted position) ∨ fault.OfLength) ∧
    ∀ octets owed, p.Within octets →
      (p.cursor owed).readHeader octets =
        (fun h => (h.length, (p.skip h.extent).cursor owed)) <$> lift (header p) ∧
      (p.cursor owed).atHeader octets = .ok (opensHeader p) := by
  obtain ⟨body, start⟩ := List.head?_eq_some_iff.mp opens
  refine ⟨header_ok_iff start, header_large_iff start, header_formless_iff start, ?_,
    fun fault => VerbatimList.stride_fault_ofLength start,
    fun depth passed start fault => VerbatimList.closeAfter_fault,
    fun octets owed within => ⟨Cursor.readHeader_eq within start, Cursor.atHeader_eq within start⟩⟩
  rw [opensHeader_iff start, exists_form_iff_judged start]

/-- Leading zeros and one plus sign belong to the form, and one length too large is still expected
where a token may start. A plus sign in front of a digit is out of place. -/
theorem headers_recognized_alike_sample :
    header (.start (ofText "\x7b007+\x7dabc")) = .ok ⟨7, 6⟩ ∧
    opensHeader ⟨ofText " ", ofText "\x7b18446744073709551616\x7d"⟩ = true ∧
    ¬ ∃ digits extent, Literal.Form (.start (ofText "\x7b1+2\x7d")) digits extent := by
  have numeral : IsNumeral (ofText "007") := ⟨by decide +kernel, by decide +kernel⟩
  have form : Literal.Form (.start (ofText "\x7b007+\x7dabc")) (ofText "007") 6 :=
    ⟨numeral, true, ofText "abc", by decide +kernel, by decide +kernel⟩
  have large : header ⟨ofText " ", ofText "\x7b18446744073709551616\x7d"⟩ =
      .error (.invalidHeader 22 Flaw.outOfRange.reason) := by
    decide +kernel
  have misplaced : header (.start (ofText "\x7b1+2\x7d")) =
      .error (.invalidHeader 2 Flaw.notNumeric.reason) := by
    decide +kernel
  refine ⟨?_, ?_, ?_⟩
  · obtain ⟨read, -⟩ := headers_recognized_alike (p := .start (ofText "\x7b007+\x7dabc")) rfl
    exact (read _).mpr ⟨_, form, by decide +kernel, by decide +kernel⟩
  · obtain ⟨-, -, -, ahead, -⟩ := headers_recognized_alike
      (p := ⟨ofText " ", ofText "\x7b18446744073709551616\x7d"⟩) rfl
    exact ahead.mpr ⟨.inr (.inl rfl), .inr ⟨_, large⟩⟩
  · obtain ⟨-, -, formless, -⟩ := headers_recognized_alike
      (p := .start (ofText "\x7b1+2\x7d")) rfl
    exact formless.mp ⟨_, _, by decide, misplaced⟩

end ImapReply
