import ImapReply.Proofs.Continuation
import ImapReply.Proofs.Displacement

/-! Two lines that differ in the payload of one literal, seen from the same place in both. The next
lexeme is the same in both lines, but for the payload itself. -/
namespace ImapReply

open Octet Octets

/-- The other result is the same fault, or is related to what was found. -/
def Agrees {α β : Type} (R : α → β → Prop) (result : Except Fault α) (other : Except Fault β) :
    Prop :=
  match result with
  | .error fault => other = .error fault
  | .ok found => ∃ again, other = .ok again ∧ R found again

theorem Agrees.mono {α β : Type} {R S : α → β → Prop} {result : Except Fault α}
    {other : Except Fault β} (agrees : Agrees R result other)
    (weaker : ∀ found again, R found again → S found again) : Agrees S result other := by
  cases result with
  | error fault => exact agrees
  | ok found =>
    obtain ⟨again, same, related⟩ := agrees
    exact ⟨again, same, weaker found again related⟩

namespace Octets

/-- A text in front takes nothing away from the text behind it. -/
theorem IsText.of_text_append {front : String} {tail : List UInt8}
    (whole : IsText (ofText front ++ tail)) : IsText tail := by
  obtain ⟨text, same⟩ := whole
  obtain ⟨fs, rfl⟩ : ∃ fs, front = String.ofList fs := ⟨front.toList, by simp⟩
  obtain ⟨cs, rfl⟩ : ∃ cs, text = String.ofList cs := ⟨text.toList, by simp⟩
  rw [ofText_ofList, ofText_ofList] at same
  have encoded : fs.utf8Encode ++ tail.toByteArray = cs.utf8Encode := by
    have bytes := congrArg List.toByteArray same
    rw [List.toByteArray_append] at bytes
    exact bytes.symm
  obtain ⟨more, rfl⟩ := List.isPrefix_of_utf8Encode_append_eq_utf8Encode _ encoded
  rw [List.flatMap_append] at same
  exact ⟨String.ofList more, (ofText_ofList more).trans (List.append_cancel_left same)⟩

/-- One text in place of another leaves what stands around it a text. -/
theorem IsText.exchange {front between tail : List UInt8} {b : UInt8} {x : String} (y : String)
    (ascii : ∀ c ∈ b :: between, c.toNat < 128)
    (whole : IsText (front ++ (b :: between ++ ofText x ++ tail))) :
    IsText (front ++ (b :: between ++ ofText y ++ tail)) := by
  have first : b.toNat < 128 := ascii b List.mem_cons_self
  have others : ∀ c ∈ between, c.toNat < 128 :=
    fun c member => ascii c (List.mem_cons_of_mem b member)
  rw [List.append_assoc, List.cons_append] at whole
  obtain ⟨before, after⟩ := whole.split first
  have behind := (after.of_append others).of_text_append
  rw [List.append_assoc]
  exact before.append ((isText_ascii ascii).append ((isText_ofText y).append behind))

theorem isText_iff {octets : List UInt8} : IsText octets ↔ ∃ text, text? octets = some text := by
  simp only [text?_eq_some_iff]
  exact exists_congr fun text => eq_comm

end Octets

namespace Literal

variable {p : Point} {digits tail : List UInt8} {signed : Bool}

theorem header_large (start : p.rest = headerOctets digits signed ++ tail)
    (numeral : IsNumeral digits) (large : maxLength < lengthOf digits) :
    header p = .error (.invalidHeader (p.offset + ((headerOctets digits signed).length - 1))
      Flaw.outOfRange.reason) := by
  have judged (close : Nat) : Header.ofDigits p digits close =
      .error (.invalidHeader (p.offset + close) Flaw.outOfRange.reason) := by
    rw [Header.ofDigits, if_neg numeral.nonempty, if_pos large]
  have run := takeWhile_digits numeral.digit signed tail
  simp only [header, start, drop_headerOctets, run]
  rw [List.append_assoc, List.drop_left]
  cases signed with
  | false => simp [judged, headerOctets, Nat.add_comm]
  | true =>
    have different : plus ≠ closeBrace := by decide
    simp [judged, headerOctets, different]
    omega

end Literal

/-- A line with a literal whose payload is exchanged for another one of the same length. In front of
the literal stand no strings and no other literals, and nothing that makes a word of it. -/
structure Exchange where
  front : List UInt8
  digits : List UInt8
  signed : Bool
  x : String
  y : String
  later : List UInt8
  unquoted : quote ∉ front
  unbraced : openBrace ∉ front
  announcing : Announcing front.getLast?
  numeral : Literal.IsNumeral digits
  announces : Literal.lengthOf digits = (ofText x).length
  even : (ofText x).length = (ofText y).length

namespace Exchange

/-- The literal with one of the payloads, and the rest of the line. -/
def octets (e : Exchange) (payload : String) : List UInt8 :=
  Literal.headerOctets e.digits e.signed ++ ofText payload ++ e.later

/-- Looking behind does not tell the payloads apart. -/
def Hidden (e : Exchange) : Prop :=
  Literal.opensHeader ⟨(ofText e.x).reverse, e.later⟩ =
    Literal.opensHeader ⟨(ofText e.y).reverse, e.later⟩

/-- The same place in both lines, in front of the literal or behind it. -/
inductive Twin (e : Exchange) : Point → Point → Prop
  | ahead {read left : List UInt8} : read.reverse ++ left = e.front →
      e.Twin ⟨read, left ++ e.octets e.x⟩ ⟨read, left ++ e.octets e.y⟩
  | past {p q : Point} : p.rest = q.rest → p.offset = q.offset → p.rest <:+ e.later → e.Twin p q

variable {e : Exchange} {p q : Point}

theorem ne_quote_of_mem (e : Exchange) {read left : List UInt8} {b : UInt8}
    (whole : read.reverse ++ b :: left = e.front) : b ≠ quote := by
  rintro rfl
  exact e.unquoted (whole ▸ List.mem_append_right _ List.mem_cons_self)

theorem ne_openBrace_of_mem (e : Exchange) {read left : List UInt8} {b : UInt8}
    (whole : read.reverse ++ b :: left = e.front) : b ≠ openBrace := by
  rintro rfl
  exact e.unbraced (whole ▸ List.mem_append_right _ List.mem_cons_self)

theorem Twin.offset_eq (twin : e.Twin p q) : p.offset = q.offset := by
  cases twin with
  | ahead => rfl
  | past _ offset _ => exact offset

theorem Twin.skip_past (rest : p.rest = q.rest) (offset : p.offset = q.offset)
    (suffix : p.rest <:+ e.later) (n : Nat) : e.Twin (p.skip n) (q.skip n) := by
  refine .past ?_ ?_ ?_
  · rw [Point.rest_skip, Point.rest_skip, rest]
  · rw [Point.offset_skip, Point.offset_skip, offset, rest]
  · exact (List.drop_suffix n p.rest).trans suffix

/-- Octets without a brace are the same in both lines. -/
theorem Twin.skip_run (twin : e.Twin p q) {run tail : List UInt8} (start : p.rest = run ++ tail)
    (unbraced : openBrace ∉ run) :
    e.Twin (p.skip run.length) (q.skip run.length) ∧ ∃ other, q.rest = run ++ other := by
  cases twin with
  | past rest offset suffix =>
    exact ⟨.skip_past rest offset suffix _, tail, rest ▸ start⟩
  | @ahead read left whole =>
    obtain ⟨left, rfl⟩ : ∃ more, left = run ++ more := by
      rcases List.append_eq_append_iff.mp start with ⟨beyond, rfl, octets⟩ | ⟨more, rfl, -⟩
      · cases beyond with
        | nil => exact ⟨[], by simp⟩
        | cons b beyond =>
          obtain ⟨rfl, -⟩ := List.cons.inj octets
          simp at unbraced
      · exact ⟨more, rfl⟩
    have skips (octets : List UInt8) :
        Point.skip run.length ⟨read, run ++ left ++ octets⟩ =
          ⟨run.reverse ++ read, left ++ octets⟩ := by
      simp [Point.skip]
    refine ⟨?_, left ++ e.octets e.y, List.append_assoc _ _ _⟩
    rw [skips, skips]
    exact .ahead (by simpa using whole)

theorem Twin.head?_eq (twin : e.Twin p q) : q.rest.head? = p.rest.head? := by
  cases twin with
  | past rest _ _ => rw [rest]
  | @ahead _ left => cases left <;> rfl

theorem Twin.skipBlanks (twin : e.Twin p q) : e.Twin p.skipBlanks q.skipBlanks := by
  have blank : ∀ b ∈ p.rest.takeWhile isBlank, isBlank b = true :=
    fun b => List.all_eq_true.mp List.all_takeWhile b
  have unbraced : openBrace ∉ p.rest.takeWhile isBlank :=
    fun member => absurd (blank openBrace member) (by decide)
  obtain ⟨skipped, other, start⟩ := twin.skip_run List.takeWhile_append_dropWhile.symm unbraced
  have same : q.skipBlanks = q.skip (p.rest.takeWhile isBlank).length := by
    rw [Point.skipBlanks_of_all blank start]
    apply Point.skipBlanks_of_nonblank
    intro b first
    rw [skipped.head?_eq] at first
    exact p.nonblank_skipBlanks b first
  rw [same]
  exact skipped

theorem Twin.skip_one (twin : e.Twin p q) {b : UInt8} {tail : List UInt8}
    (start : p.rest = b :: tail) (unbraced : b ≠ openBrace) :
    e.Twin (p.skip 1) (q.skip 1) ∧ ∃ other, q.rest = b :: other := by
  have run : p.rest = [b] ++ tail := start
  exact twin.skip_run run (by simpa using unbraced.symm)

end Exchange

/-- Lexemes that differ at most in the payload of a literal. -/
inductive Lexeme.Alike : Lexeme → Lexeme → Prop
  | refl (lexeme : Lexeme) : Alike lexeme lexeme
  | literal (x y : String) : Alike (.piece (.token (.literal x))) (.piece (.token (.literal y)))

namespace Exchange

variable {e : Exchange} {p q : Point} {chunk : Nat}

inductive Same (e : Exchange) : Option (Lexeme × Point) → Option (Lexeme × Point) → Prop
  | finished : e.Same none none
  | lexeme {one other : Lexeme} {after again : Point} : one.Alike other → e.Twin after again →
      e.Same (some (one, after)) (some (other, again))

/-- Behind the literal both lines are one line with different octets in front. -/
theorem next_past (rest : p.rest = q.rest) (offset : p.offset = q.offset)
    (suffix : p.rest <:+ e.later) :
    Agrees e.Same (Lexeme.next chunk p) (Lexeme.next chunk q) := by
  have one : p = Point.prepend p.read.reverse ⟨[], p.rest⟩ := by simp [Point.prepend]
  have other : q = Point.prepend q.read.reverse ⟨[], p.rest⟩ := by simp [Point.prepend, rest]
  have length : p.read.reverse.length = q.read.reverse.length := by
    simpa [Point.offset] using offset
  rw [one, other, Lexeme.next_prepend, Lexeme.next_prepend, ← length]
  cases found : Lexeme.next chunk ⟨[], p.rest⟩ with
  | error fault => rfl
  | ok next =>
    rcases next with _ | ⟨lexeme, after⟩
    · exact ⟨none, rfl, .finished⟩
    · obtain ⟨n, rfl⟩ := Lexeme.next_reaches found
      refine ⟨_, rfl, .lexeme (.refl lexeme) ?_⟩
      rw [← Point.skip_prepend, ← Point.skip_prepend, ← one, ← other]
      exact .skip_past rest offset suffix n

/-- Octets of the literal, which are as many with the one payload as with the other. -/
def extent (e : Exchange) : Nat := (Literal.headerOctets e.digits e.signed ++ ofText e.x).length

/-- The payload is as long as the header announces. -/
def Suits (e : Exchange) (payload : String) : Prop :=
  Literal.lengthOf e.digits = (ofText payload).length

theorem suits_x (e : Exchange) : e.Suits e.x := e.announces

theorem suits_y (e : Exchange) : e.Suits e.y := e.announces.trans e.even

theorem Suits.extent {payload : String} (suits : e.Suits payload) :
    (Literal.headerOctets e.digits e.signed ++ ofText payload).length = e.extent := by
  rw [Exchange.extent, List.length_append, List.length_append, ← e.announces, suits]

theorem Suits.skip {payload : String} (suits : e.Suits payload) (read : List UInt8) :
    Point.skip e.extent ⟨read, e.octets payload⟩ = ⟨(ofText payload).reverse ++
      ((Literal.headerOctets e.digits e.signed).reverse ++ read), e.later⟩ := by
  rw [← suits.extent, Point.skip, octets, List.take_left, List.drop_left, List.reverse_append,
    List.append_assoc]

/-- Behind the literal the places are the same again, whatever the payload was. -/
theorem skip_literal (e : Exchange) (read : List UInt8) (k : Nat) :
    e.Twin (Point.skip (e.extent + k) ⟨read, e.octets e.x⟩)
      (Point.skip (e.extent + k) ⟨read, e.octets e.y⟩) := by
  rw [← Point.skip_skip, ← Point.skip_skip, e.suits_x.skip, e.suits_y.skip]
  apply Twin.skip_past
  · rfl
  · simp [Point.offset, e.even]
  · exact List.suffix_refl e.later

theorem next_literal (e : Exchange) (read : List UInt8) :
    Agrees e.Same (Lexeme.next chunk ⟨read, e.octets e.x⟩)
      (Lexeme.next chunk ⟨read, e.octets e.y⟩) := by
  by_cases fits : Literal.lengthOf e.digits ≤ Literal.maxLength
  · have reads {payload : String} (suits : e.Suits payload) :
        Lexeme.next chunk ⟨read, e.octets payload⟩ = .ok (some
          (.piece (.token (.literal payload)), Point.skip e.extent ⟨read, e.octets payload⟩)) := by
      rw [← suits.extent]
      exact Lexeme.next_spelled rfl (.literal e.signed e.numeral suits (suits ▸ fits)) trivial
    rw [reads e.suits_x, reads e.suits_y]
    exact ⟨_, rfl, .lexeme (.literal e.x e.y) (e.skip_literal read 0)⟩
  · have broken (payload : String) : Lexeme.next chunk ⟨read, e.octets payload⟩ =
        .error (.invalidHeader (read.length + ((Literal.headerOctets e.digits e.signed).length - 1))
          Literal.Flaw.outOfRange.reason) := by
      have start : (Point.mk read (e.octets payload)).rest =
          Literal.headerOctets e.digits e.signed ++ (ofText payload ++ e.later) :=
        List.append_assoc ..
      have header := Literal.header_large start e.numeral (Nat.lt_of_not_le fits)
      rw [Lexeme.next_openBrace start]
      simp only [Literal.read, Literal.announced, header]
      rfl
    rw [broken, broken]
    rfl

theorem next_single (twin : e.Twin p q) (lexeme : Lexeme) {b : UInt8} {tail : List UInt8}
    (single : lexeme.octet? = some b) (start : p.rest = b :: tail) (nonblank : isBlank b = false)
    (unbraced : b ≠ openBrace) :
    Agrees e.Same (Lexeme.next chunk p) (Lexeme.next chunk q) := by
  obtain ⟨after, other, again⟩ := twin.skip_one start unbraced
  rw [Lexeme.next, Lexeme.next, Point.skipBlanks_of_cons start nonblank,
    Point.skipBlanks_of_cons again nonblank, Lexeme.here_single single start,
    Lexeme.here_single single again]
  exact ⟨_, rfl, .lexeme (.refl lexeme) after⟩

/-- A word in front of the literal ends there: the octet just before the literal is a delimiter. -/
theorem next_word {read left : List UInt8} {b : UInt8} (plain : role b = .plain)
    (whole : read.reverse ++ b :: left = e.front) :
    Agrees e.Same (Lexeme.next chunk ⟨read, b :: left ++ e.octets e.x⟩)
      (Lexeme.next chunk ⟨read, b :: left ++ e.octets e.y⟩) := by
  have twin : e.Twin ⟨read, b :: left ++ e.octets e.x⟩ ⟨read, b :: left ++ e.octets e.y⟩ :=
    .ahead whole
  have stops : ((b :: left).takeWhile (!isDelimiter ·)).length ≠ (b :: left).length := by
    intro all
    have inWord := List.all_takeWhile (p := (!isDelimiter ·)) (l := b :: left)
    rw [(List.takeWhile_prefix _).eq_of_length all] at inWord
    obtain ⟨last, isLast⟩ : ∃ d, (b :: left).getLast? = some d := ⟨_, List.getLast?_cons⟩
    have delimiter : isDelimiter last = true := by
      have announcing := e.announcing
      rw [← whole, List.getLast?_append, isLast] at announcing
      rcases announcing with none | space | paren
      · contradiction
      · exact Option.some.inj space ▸ by decide
      · exact Option.some.inj paren ▸ by decide
    have undelimited := List.all_eq_true.mp inWord last (List.mem_of_getLast? isLast)
    simp [delimiter] at undelimited
  have word (octets : List UInt8) : (b :: left ++ octets).takeWhile (!isDelimiter ·) =
      (b :: left).takeWhile (!isDelimiter ·) := by
    rw [List.takeWhile_append, if_neg stops]
  have nonblank : isBlank b = false := by simp [isBlank, plain]
  have next (octets : List UInt8) : Lexeme.next chunk ⟨read, b :: left ++ octets⟩ =
      Lexeme.asToken .bare (Lexeme.word ⟨read, b :: left ++ octets⟩) := by
    rw [Lexeme.next, Point.skipBlanks_of_cons rfl nonblank]
    simp only [Lexeme.here, List.cons_append, plain]
  rw [next, next, Lexeme.word, Lexeme.word, word, word]
  cases text? ((b :: left).takeWhile (!isDelimiter ·)) with
  | none => rfl
  | some text =>
    obtain ⟨more, cut⟩ := List.takeWhile_prefix (!isDelimiter ·) (l := b :: left)
    have start : b :: left ++ e.octets e.x =
        (b :: left).takeWhile (!isDelimiter ·) ++ (more ++ e.octets e.x) := by
      rw [← List.append_assoc, cut]
    have unbraced : openBrace ∉ (b :: left).takeWhile (!isDelimiter ·) :=
      fun member => e.unbraced (whole ▸ List.mem_append_right _ (List.takeWhile_subset _ member))
    exact ⟨_, rfl, .lexeme (.refl _) (twin.skip_run start unbraced).1⟩

theorem next_agrees (chunk : Nat) (twin : e.Twin p q) :
    Agrees e.Same (Lexeme.next chunk p) (Lexeme.next chunk q) := by
  have nonblank := p.nonblank_skipBlanks
  have skipped := twin.skipBlanks
  rw [← Lexeme.next_skipBlanks p, ← Lexeme.next_skipBlanks q]
  generalize p.skipBlanks = p, q.skipBlanks = q at nonblank skipped ⊢
  cases skipped with
  | past rest offset suffix => exact next_past rest offset suffix
  | @ahead read left whole =>
    cases left with
    | nil => exact e.next_literal read
    | cons b left =>
      have twin : e.Twin ⟨read, b :: left ++ e.octets e.x⟩ ⟨read, b :: left ++ e.octets e.y⟩ :=
        .ahead whole
      cases kind : role b with
      | blank => exact absurd (nonblank b rfl) (by simp [isBlank, kind])
      | quote => exact absurd (role_eq_quote_iff.mp kind) (e.ne_quote_of_mem whole)
      | openBrace => exact absurd (role_eq_openBrace_iff.mp kind) (e.ne_openBrace_of_mem whole)
      | openParen =>
        obtain rfl := role_eq_openParen_iff.mp kind
        exact next_single twin .openParen rfl rfl (by decide) (by decide)
      | closeParen =>
        obtain rfl := role_eq_closeParen_iff.mp kind
        exact next_single twin .closeParen rfl rfl (by decide) (by decide)
      | openBracket =>
        obtain rfl := role_eq_openBracket_iff.mp kind
        exact next_single twin (.piece .openBracket) rfl rfl (by decide) (by decide)
      | closeBracket =>
        obtain rfl := role_eq_closeBracket_iff.mp kind
        exact next_single twin (.piece .closeBracket) rfl rfl (by decide) (by decide)
      | plain => exact next_word kind whole

theorem next_eq_none (twin : e.Twin p q) (found : Lexeme.next chunk p = .ok none) :
    Lexeme.next chunk q = .ok none := by
  have next := next_agrees chunk twin
  rw [found] at next
  obtain ⟨_, same, related⟩ := next
  cases related
  exact same

theorem next_eq_error (twin : e.Twin p q) {fault : Fault}
    (failed : Lexeme.next chunk p = .error fault) : Lexeme.next chunk q = .error fault := by
  have next := next_agrees chunk twin
  rw [failed] at next
  exact next

theorem next_eq_some (twin : e.Twin p q) {lexeme : Lexeme} {after : Point}
    (found : Lexeme.next chunk p = .ok (some (lexeme, after))) :
    ∃ other again, Lexeme.next chunk q = .ok (some (other, again)) ∧ lexeme.Alike other ∧
      e.Twin after again := by
  have next := next_agrees chunk twin
  rw [found] at next
  obtain ⟨_, same, related⟩ := next
  cases related with
  | lexeme alike after => exact ⟨_, _, same, alike, after⟩

end Exchange

end ImapReply
