import ImapReply.Proofs.Orderly
import ImapReply.Proofs.RoundTrip
import Mathlib.Data.List.Forall2

/-! Recursive reading against verbatim reading with every kept list expanded: they agree on every
orderly line that recursive reading accepts. -/
namespace ImapReply

open Octets

variable {s : Settings}

/-- What verbatim reading, applied again and again, gives for a value inside a list. -/
inductive Unfolds (s : Settings) : Value → Value → Prop
  | text (text : String) : Unfolds s (.ofText text) (.ofText text)
  | nil : Unfolds s .nil (.ofText "NIL")
  | list {text : String} {items kept : List Value} :
      expand s (.ofText text) = .ok (.list kept) → List.Forall₂ (Unfolds s) items kept →
      Unfolds s (.list items) (.ofText text)

/-- Outside all lists nothing needs to be expanded. -/
inductive Mirrors (s : Settings) : Value → Value → Prop
  | atom (text : String) (isNull : Bool) : Mirrors s (.atom text isNull) (.atom text isNull)
  | list {items kept : List Value} : List.Forall₂ (Unfolds s) items kept →
      Mirrors s (.list items) (.list kept)

def Fits (s : Settings) (length : Nat) : Prop := ∀ max, s.maxLineLength = some max → length ≤ max

theorem Fits.mono {m n : Nat} (fits : Fits s n) (fewer : m ≤ n) : Fits s m :=
  fun max limit => Nat.le_trans fewer (fits max limit)

theorem fits_iff {n : Nat} : Fits s n ↔ s.maxLineLength.filter (· < n) = none := by
  simp [Fits, Option.filter_eq_none_iff]

theorem Token.unfolds (token : Token) : Unfolds s (token.value true) (token.value false) := by
  cases token with
  | bare text =>
    by_cases isNil : text = "NIL"
    · subst isNil
      exact .nil
    · simpa [Token.value, isNil] using Unfolds.text text
  | quoted text | literal text => exact .text text

theorem Token.mirrors (token : Token) : Mirrors s (token.value true) (token.value true) := by
  cases token with
  | bare text =>
    rw [Token.value]
    split <;> exact .atom _ _
  | quoted text | literal text => exact .atom text false

theorem Layout.unfolds (verbatim : s.nesting = .verbatim) {behind : Option UInt8}
    {octets : List UInt8} {items : List Element} (layout : Layout behind octets items)
    (fits : Fits s octets.length) :
    List.Forall₂ (Unfolds s) (Element.values items) (items.map Element.inner) := by
  induction layout with
  | done => exact .nil
  | blank _ _ ih => exact ih (fits.mono (by simp))
  | @token behind octets rest token items _ _ _ _ ih =>
    apply List.Forall₂.cons
    · exact token.unfolds
    · exact ih (fits.mono (by simp))
  | @list behind inside rest text inner items whole layout _ ihInside ihRest =>
    have textFits : Fits s (ofText text).length := fits.mono (by simp)
    have insideFits : Fits s inside.length := by
      apply textFits.mono
      rw [whole.length]
      omega
    apply List.Forall₂.cons
    · apply Unfolds.list
      · exact expand_layout verbatim (fits_iff.mp textFits) whole layout
      · exact ihInside insideFits
    · exact ihRest (fits.mono (by simp))

theorem Layout.mirrors (verbatim : s.nesting = .verbatim) {behind : Option UInt8}
    {octets : List UInt8} {items : List Element} (layout : Layout behind octets items)
    (fits : Fits s octets.length) :
    List.Forall₂ (Mirrors s) (Element.values items) (items.map Element.outer) := by
  induction layout with
  | done => exact .nil
  | blank _ _ ih => exact ih (fits.mono (by simp))
  | @token behind octets rest token items _ _ _ _ ih =>
    apply List.Forall₂.cons
    · exact token.mirrors
    · exact ih (fits.mono (by simp))
  | @list behind inside rest text inner items whole layout _ _ ih =>
    have insideFits : Fits s inside.length := by
      apply fits.mono
      rw [List.length_append, whole.length]
      omega
    apply List.Forall₂.cons
    · exact .list (layout.unfolds verbatim insideFits)
    · exact ih (fits.mono (by simp))

/-- Where recursive reading succeeds, verbatim reading does too. Expanding what it keeps, down to
the innermost list, gives the same values, but a `NIL` inside a list is a word there. -/
theorem verbatim_mirrors_recursive {line : List UInt8} {values : List Value}
    (orderly : Orderly line)
    (decoded : decode { s with nesting := .recursive } line = .ok values) :
    ∃ kept, decode { s with nesting := .verbatim } line = .ok kept ∧
      List.Forall₂ (Mirrors { s with nesting := .verbatim }) values kept := by
  cases short : s.maxLineLength.filter (· < line.length) with
  | some max => simp [decode, short] at decoded
  | none =>
    simp only [decode, short] at decoded
    have start : Orderly (Point.start line).line := orderly
    obtain ⟨more, close, rfl, ⟨octets, elements, layout, rfl, whole, rfl⟩, finished⟩ :=
      Line.laidOut_of_readValues rfl start rfl rfl decoded
    have all : line = octets := by
      rw [finished, List.append_nil] at whole
      exact whole
    subst all
    refine ⟨_, decode_layout rfl short layout, ?_⟩
    apply layout.mirrors rfl
    exact fits_iff.mpr short

/-- Parentheses and a brace inside strings, and lists three levels deep. -/
def nestedSample : List Written :=
  [.list [.string "a" .quoted,
    .list [.string ")" .quoted, .string "(\x7b)" (.literal false (by decide)), .list [.nil]]], .nil]

theorem verbatim_mirrors_recursive_sample :
    ∃ kept, decode ⟨64, .verbatim, none, 3⟩
        (ofText "(\"a\" (\")\" \x7b3\x7d(\x7b) (NIL))) NIL") = .ok kept ∧
      List.Forall₂ (Mirrors ⟨64, .verbatim, none, 3⟩)
        [.list [.ofText "a", .list [.ofText ")", .ofText "(\x7b)", .list [.nil]]], .nil] kept := by
  have spelling : Written.line nestedSample =
      "(\"a\" (\")\" \x7b3\x7d(\x7b) (NIL))) NIL" := by decide
  have orderly : Orderly (ofText (Written.line nestedSample)) := by
    rw [spelling]
    exact ⟨by decide, by decide⟩
  have decoded := Written.decode_shallow 64 (show Written.depths nestedSample ≤ 3 by decide)
  rw [← spelling]
  exact verbatim_mirrors_recursive (s := ⟨64, .verbatim, none, 3⟩) orderly decoded

end ImapReply
