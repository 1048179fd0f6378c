import ImapReply.Proofs.Spelling

/-! The outline of a line: which of its parentheses are never closed. A scan finds them octet by
octet and skips nothing but strings; of words, brackets and the values of lists it knows nothing. -/
namespace ImapReply

open Octet Octets

namespace Outline

/-- Where a scan is. Inside a string it remembers the quote that opened it. -/
inductive Place where
  | outside
  | string (opening : Nat)
  /-- Just behind a backslash. -/
  | escaped (opening : Nat)

/-- Where an octet of a string leads. -/
def within (opening : Nat) (b : UInt8) : Place :=
  if b = quote then .outside else if b = backslash then .escaped opening else .string opening

/-- What one octet does. The parentheses that are open come with it, the innermost first. -/
def step (offset : Nat) (b : UInt8) : Place → List Nat → Except Fault (Place × List Nat)
  | .outside, opened =>
    match role b, opened with
    | .openParen, opened => .ok (.outside, offset :: opened)
    | .closeParen, [] => .error (.unexpected offset ')')
    | .closeParen, _ :: outer => .ok (.outside, outer)
    | .quote, opened => .ok (.string offset, opened)
    | _, opened => .ok (.outside, opened)
  | .string opening, opened => .ok (within opening b, opened)
  | .escaped opening, opened => .ok (.string opening, opened)

/-- A string has to be closed before the line ends, a list need not be. -/
def stop : Place → List Nat → Except Fault (List Nat)
  | .outside, opened => .ok opened
  | .string opening, _ | .escaped opening, _ => .error (.unterminatedQuoted opening)

def scan (place : Place) (opened : List Nat) (offset : Nat) : List UInt8 → Except Fault (List Nat)
  | [] => stop place opened
  | b :: later =>
    match step offset b place opened with
    | .error fault => .error fault
    | .ok (place, opened) => scan place opened (offset + 1) later

/-- An octet that neither opens nor closes a list or a string. -/
def Passes (b : UInt8) : Prop := role b ≠ .openParen ∧ role b ≠ .closeParen ∧ role b ≠ .quote

instance : DecidablePred Passes := fun b =>
  inferInstanceAs (Decidable (role b ≠ .openParen ∧ role b ≠ .closeParen ∧ role b ≠ .quote))

variable {place : Place} {opened left : List Nat} {offset : Nat} {b : UInt8}
  {octets front tail : List UInt8}

theorem passes_of_isBlank (blank : isBlank b = true) : Passes b := by
  have kind : role b = .blank := by simpa [isBlank] using blank
  simp [Passes, kind]

theorem passes_of_undelimited (inside : isDelimiter b = false) : Passes b := by
  cases kind : role b with
  | plain | openBrace => simp [Passes, kind]
  | _ => simp [isDelimiter, kind] at inside

/-- Only three octets do more than pass. -/
theorem passes_or_sign (b : UInt8) : Passes b ∨ b = openParen ∨ b = closeParen ∨ b = quote := by
  cases kind : role b with
  | openParen => exact .inr (.inl (role_eq_openParen_iff.mp kind))
  | closeParen => exact .inr (.inr (.inl (role_eq_closeParen_iff.mp kind)))
  | quote => exact .inr (.inr (.inr (role_eq_quote_iff.mp kind)))
  | _ => exact .inl (by simp [Passes, kind])

theorem step_passes (passes : Passes b) :
    step offset b .outside opened = .ok (.outside, opened) := by
  obtain ⟨notOpen, notClose, notQuote⟩ := passes
  cases kind : role b with
  | openParen | closeParen | quote => contradiction
  | blank | openBracket | closeBracket | openBrace | plain => simp only [step, kind]

theorem step_openParen :
    step offset openParen .outside opened = .ok (.outside, offset :: opened) := rfl

theorem step_closeParen {o : Nat} {outer : List Nat} :
    step offset closeParen .outside (o :: outer) = .ok (.outside, outer) := rfl

theorem step_unopened :
    step offset closeParen .outside [] = .error (.unexpected offset ')') := rfl

theorem step_quote : step offset quote .outside opened = .ok (.string offset, opened) := rfl

theorem step_string {opening : Nat} :
    step offset b (.string opening) opened = .ok (within opening b, opened) := rfl

theorem step_escaped {opening : Nat} :
    step offset b (.escaped opening) opened = .ok (.string opening, opened) := rfl

theorem within_plain {opening : Nat} (notQuote : b ≠ quote) (notBackslash : b ≠ backslash) :
    within opening b = .string opening := by
  rw [within, if_neg notQuote, if_neg notBackslash]

/-- All that an octet can do to the parentheses that are open. -/
theorem step_cases {next : Place} (taken : step offset b place opened = .ok (next, left)) :
    left = opened ∨ left = offset :: opened ∨ ∃ o, opened = o :: left := by
  cases place with
  | string | escaped => exact .inl (Prod.mk.inj (Except.ok.inj taken)).2.symm
  | outside =>
    obtain passes | rfl | rfl | rfl := passes_or_sign b
    · rw [step_passes passes] at taken
      exact .inl (Prod.mk.inj (Except.ok.inj taken)).2.symm
    · exact .inr (.inl (Prod.mk.inj (Except.ok.inj taken)).2.symm)
    · cases opened with
      | nil => contradiction
      | cons o outer =>
        obtain ⟨-, rfl⟩ := Prod.mk.inj (Except.ok.inj taken)
        exact .inr (.inr ⟨o, rfl⟩)
    · exact .inl (Prod.mk.inj (Except.ok.inj taken)).2.symm

theorem scan_passes (passes : ∀ b ∈ front, Passes b) :
    scan .outside opened offset (front ++ tail) =
      scan .outside opened (offset + front.length) tail := by
  induction front generalizing offset with
  | nil => rfl
  | cons b front ih =>
    rw [List.cons_append, scan, step_passes (passes b (by simp))]
    dsimp only
    rw [ih fun c member => passes c (by simp [member]), List.length_cons, Nat.add_assoc,
      Nat.add_comm 1]

/-- A string is skipped as a whole. -/
theorem scan_content {opening : Nat} {content : List UInt8} (valid : Quoted.Content content) :
    scan (.string opening) opened offset (content ++ quote :: tail) =
      scan .outside opened (offset + content.length + 1) tail := by
  induction valid generalizing offset with
  | nil => rfl
  | pair c _ ih =>
    have escapes : within opening backslash = .escaped opening := rfl
    simp only [List.cons_append, scan, step_string, step_escaped, escapes, ih, List.length_cons]
    congr 1
    omega
  | plain notQuote notBackslash _ ih =>
    simp only [List.cons_append, scan, step_string, within_plain notQuote notBackslash, ih,
      List.length_cons]
    congr 1
    omega

theorem scan_unclosed {opening : Nat} (unclosed : Quoted.contentLength octets = none) :
    scan (.string opening) opened offset octets = .error (.unterminatedQuoted opening) := by
  unfold Quoted.contentLength at unclosed
  generalize 0 = passed at unclosed
  fun_induction Quoted.lengthAfter passed octets generalizing offset with
  | case1 => rfl
  | case2 | case4 => contradiction
  | case3 passed b notQuote =>
    simp only [scan, step_string, within, notQuote, ite_false]
    split <;> rfl
  | case5 passed c after _ ih =>
    exact ih unclosed
  | case6 passed b c after notQuote notBackslash ih =>
    rw [scan, step_string, within_plain notQuote notBackslash]
    exact ih unclosed

theorem step_ne_unterminatedList (position : Nat) :
    step offset b place opened ≠ .error (.unterminatedList position) := by
  cases place with
  | outside =>
    obtain passes | rfl | rfl | rfl := passes_or_sign b
    · simp [step_passes passes]
    · simp [step_openParen]
    · cases opened <;> simp [step_unopened, step_closeParen]
    · simp [step_quote]
  | string | escaped => simp [step_string, step_escaped]

/-- A scan finds fault only with a string that is not closed or a list that was not opened. -/
theorem scan_ne_unterminatedList (position : Nat) :
    scan place opened offset octets ≠ .error (.unterminatedList position) := by
  induction octets generalizing place opened offset with
  | nil => cases place <;> simp [scan, stop]
  | cons b later ih =>
    rw [scan]
    split
    next fault failed =>
      rintro same
      obtain rfl := Except.error.inj same
      exact step_ne_unterminatedList position failed
    · exact ih

/-- Of the parentheses open at the offset, the inner ones lie further on. -/
def Descends (offset : Nat) (opened : List Nat) : Prop := (offset :: opened).Pairwise (· > ·)

theorem Descends.next (descends : Descends offset opened) : Descends (offset + 1) opened := by
  obtain ⟨behind, inner⟩ := List.pairwise_cons.mp descends
  exact List.pairwise_cons.mpr ⟨fun o member => Nat.lt_succ_of_lt (behind o member), inner⟩

theorem Descends.enter (descends : Descends offset opened) :
    Descends (offset + 1) (offset :: opened) := by
  refine List.pairwise_cons.mpr ⟨fun o member => ?_, descends⟩
  rcases List.mem_cons.mp member with rfl | outer
  · exact Nat.lt_succ_self o
  · exact Nat.lt_succ_of_lt (List.rel_of_pairwise_cons descends outer)

theorem step_descends {next : Place} (descends : Descends offset opened)
    (taken : step offset b place opened = .ok (next, left)) : Descends (offset + 1) left := by
  obtain rfl | rfl | ⟨o, rfl⟩ := step_cases taken
  · exact descends.next
  · exact descends.enter
  · exact descends.next.sublist (by simp)

theorem scan_descends (descends : Descends offset opened)
    (scanned : scan place opened offset octets = .ok left) : left.Pairwise (· > ·) := by
  induction octets generalizing place opened offset with
  | nil =>
    cases place with
    | outside => exact Except.ok.inj scanned ▸ (List.pairwise_cons.mp descends).2
    | string | escaped => contradiction
  | cons b later ih =>
    rw [scan] at scanned
    split at scanned
    · contradiction
    next taken => exact ih (step_descends descends taken) scanned

end Outline

/-- Parentheses of a line that are never closed, the innermost first, if there is no fault in its
strings and none is closed that was not opened. -/
def outline (line : List UInt8) : Except Fault (List Nat) := Outline.scan .outside [] 0 line

theorem getLast_le_head_outline {line : List UInt8} {left : List Nat}
    (scanned : outline line = .ok left) (nonempty : left ≠ []) :
    left.getLast nonempty ≤ left.head nonempty := by
  have descending := Outline.scan_descends (List.pairwise_singleton _ 0) scanned
  cases left with
  | nil => contradiction
  | cons o outer =>
    rcases List.mem_cons.mp (List.getLast_mem nonempty) with same | further
    · exact Nat.le_of_eq same
    · exact Nat.le_of_lt (List.rel_of_pairwise_cons descending further)

open Outline

namespace Point

/-- The outline from the point on, where these parentheses are open. -/
def outline (opened : List Nat) (p : Point) : Except Fault (List Nat) :=
  scan .outside opened p.offset p.rest

variable {p : Point} {opened outer : List Nat} {o : Nat} {front tail content : List UInt8}
  {b : UInt8}

theorem outline_end (finished : p.rest = []) : p.outline opened = .ok opened := by
  rw [outline, finished]
  rfl

theorem outline_skip (passes : ∀ b ∈ front, Passes b) (start : p.rest = front ++ tail) :
    p.outline opened = (p.skip front.length).outline opened := by
  rw [outline, outline, offset_skip_append start, rest_skip_append start, start,
    scan_passes passes]

theorem outline_skip_one (passes : Passes b) (start : p.rest = b :: tail) :
    p.outline opened = (p.skip 1).outline opened := by
  have front : p.rest = [b] ++ tail := start
  exact outline_skip (by simpa using passes) front

theorem outline_skipBlanks : p.outline opened = p.skipBlanks.outline opened := by
  refine outline_skip (fun b member => ?_) List.takeWhile_append_dropWhile.symm
  exact passes_of_isBlank (List.all_eq_true.mp List.all_takeWhile b member)

theorem outline_openParen (start : p.rest = openParen :: tail) :
    p.outline opened = (p.skip 1).outline (p.offset :: opened) := by
  simp [outline, scan, step_openParen, start]

theorem outline_closeParen (start : p.rest = closeParen :: tail) :
    p.outline (o :: outer) = (p.skip 1).outline outer := by
  simp [outline, scan, step_closeParen, start]

theorem outline_unopened (start : p.rest = closeParen :: tail) :
    p.outline [] = .error (.unexpected p.offset ')') := by
  simp [outline, scan, step_unopened, start]

theorem outline_quoted (valid : Quoted.Content content)
    (start : p.rest = quote :: content ++ quote :: tail) :
    p.outline opened = (p.skip (content.length + 2)).outline opened := by
  have taken : (p.skip (content.length + 2)).rest = tail := by
    rw [rest_skip, start]
    simp
  have length : p.rest.length = content.length + 2 + tail.length := by
    rw [start]
    simp only [List.cons_append, List.length_cons, List.length_append]
    omega
  have offset : (p.skip (content.length + 2)).offset = p.offset + 1 + content.length + 1 := by
    rw [offset_skip]
    omega
  rw [outline, outline, taken, offset, start, List.cons_append, scan, step_quote]
  exact scan_content valid

theorem outline_unclosed (start : p.rest = quote :: tail)
    (unclosed : Quoted.contentLength tail = none) :
    p.outline opened = .error (.unterminatedQuoted p.offset) := by
  rw [outline, start, scan, step_quote]
  exact scan_unclosed unclosed

end Point

end ImapReply
