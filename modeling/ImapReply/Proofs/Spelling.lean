import ImapReply.Lexeme
import ImapReply.Proofs.Utf8

/-! How tokens are spelled in a line. Reading gives a token exactly where one of its spellings
stands, whatever comes after it; only a bare word must be followed by a delimiter or nothing. -/
namespace ImapReply

open Octet Octets

namespace Quoted

/-- Octets that may stand between quotes: no quote but after a backslash, which always takes the
octet after it along. -/
inductive Content : List UInt8 → Prop
  | nil : Content []
  | pair {rest : List UInt8} (b : UInt8) : Content rest → Content (backslash :: b :: rest)
  | plain {b : UInt8} {rest : List UInt8} : b ≠ quote → b ≠ backslash → Content rest →
      Content (b :: rest)

theorem contentLength_content {content : List UInt8} (valid : Content content)
    (tail : List UInt8) : contentLength (content ++ quote :: tail) = some content.length := by
  induction valid with
  | nil => exact contentLength_quote tail
  | pair b _ ih =>
    rw [List.cons_append, List.cons_append, contentLength_backslash, ih, Option.map_some]
    simp only [List.length_cons, Option.some.injEq]
    omega
  | plain notQuote notBackslash _ ih =>
    rw [List.cons_append, contentLength_plain _ notQuote notBackslash, ih, Option.map_some,
      List.length_cons, Nat.add_comm]

theorem content_of_lengthAfter {passed n : Nat} {octets : List UInt8}
    (found : lengthAfter passed octets = some n) :
    ∃ content tail, octets = content ++ quote :: tail ∧ Content content ∧
      n = passed + content.length := by
  fun_induction lengthAfter passed octets with
  | case1 => contradiction
  | case2 => exact ⟨[], [], rfl, .nil, by simpa using found.symm⟩
  | case3 => contradiction
  | case4 _ c after => exact ⟨[], c :: after, rfl, .nil, by simpa using found.symm⟩
  | case5 passed c after _ ih =>
    obtain ⟨content, tail, rfl, valid, rfl⟩ := ih found
    exact ⟨_, tail, rfl, .pair c valid, by simp only [List.length_cons]; omega⟩
  | case6 passed b c after notQuote notBackslash ih =>
    obtain ⟨content, tail, rest, valid, rfl⟩ := ih found
    refine ⟨b :: content, tail, ?_, .plain notQuote notBackslash valid, ?_⟩
    · rw [rest, List.cons_append]
    · simp only [List.length_cons]
      omega

theorem contentLength_eq_some_iff {octets : List UInt8} {n : Nat} :
    contentLength octets = some n ↔
      ∃ content tail, octets = content ++ quote :: tail ∧ Content content ∧
        n = content.length := by
  constructor
  · intro found
    simpa using content_of_lengthAfter found
  · rintro ⟨content, tail, rfl, valid, rfl⟩
    exact contentLength_content valid tail

theorem read_eq_ok_iff {p after : Point} {text : String} (opens : p.rest.head? = some quote) :
    read p = .ok (text, after) ↔
      ∃ raw tail, p.rest = quote :: ofText raw ++ quote :: tail ∧ Content (ofText raw) ∧
        text = unescape raw ∧ after = p.skip ((ofText raw).length + 2) := by
  obtain ⟨later, start⟩ := List.head?_eq_some_iff.mp opens
  have body : p.rest.drop 1 = later := by rw [start, List.drop_one, List.tail_cons]
  constructor
  · intro found
    unfold read at found
    rw [body] at found
    split at found
    · contradiction
    next n closed =>
      obtain ⟨content, tail, rfl, valid, rfl⟩ := contentLength_eq_some_iff.mp closed
      rw [List.take_left] at found
      split at found
      · contradiction
      next raw isText =>
        obtain rfl := text?_eq_some_iff.mp isText
        obtain ⟨rfl, rfl⟩ := Prod.mk.inj (Except.ok.inj found)
        exact ⟨raw, tail, start, valid, rfl, rfl⟩
  · rintro ⟨raw, tail, whole, valid, rfl, rfl⟩
    have same : later = ofText raw ++ quote :: tail := by
      rw [start] at whole
      exact (List.cons.inj whole).2
    unfold read
    rw [body, same, contentLength_content valid]
    simp only [List.take_left, text?_ofText]

theorem extent_content {p : Point} {content tail : List UInt8}
    (start : p.rest = quote :: content ++ quote :: tail) (valid : Content content) :
    extent p = .ok (content.length + 2) := by
  unfold extent
  rw [start, List.cons_append, List.drop_one, List.tail_cons, contentLength_content valid]

end Quoted

namespace Literal

def headerOctets (digits : List UInt8) (signed : Bool) : List UInt8 :=
  openBrace :: digits ++ if signed then [plus, closeBrace] else [closeBrace]

structure IsNumeral (digits : List UInt8) : Prop where
  nonempty : digits ≠ []
  digit : ∀ d ∈ digits, isDigit d = true

theorem not_isDigit_plus : isDigit plus = false := by decide
theorem not_isDigit_closeBrace : isDigit closeBrace = false := by decide

theorem ascii_headerOctets {digits : List UInt8} (numeral : IsNumeral digits) (signed : Bool) :
    ∀ b ∈ headerOctets digits signed, b.toNat < 128 := by
  intro b member
  rw [headerOctets, List.cons_append, List.mem_cons, List.mem_append] at member
  rcases member with rfl | digit | closing
  · decide
  · have bound := numeral.digit b digit
    simp only [isDigit, UInt8.le_iff_toNat_le, decide_eq_true_eq] at bound
    exact Nat.lt_of_le_of_lt bound.2 (by decide)
  · have mark : b = plus ∨ b = closeBrace := by
      cases signed with
      | false => exact .inr (List.mem_singleton.mp closing)
      | true => simpa using closing
    rcases mark with rfl | rfl <;> decide

theorem takeWhile_digits {digits : List UInt8} (all : ∀ d ∈ digits, isDigit d = true)
    (signed : Bool) (tail : List UInt8) :
    (digits ++ (if signed then [plus, closeBrace] else [closeBrace]) ++ tail).takeWhile isDigit =
      digits := by
  rw [List.append_assoc, List.takeWhile_append_of_pos all]
  cases signed <;> simp [not_isDigit_plus, not_isDigit_closeBrace]

theorem drop_headerOctets (digits tail : List UInt8) (signed : Bool) :
    (headerOctets digits signed ++ tail).drop 1 =
      digits ++ (if signed then [plus, closeBrace] else [closeBrace]) ++ tail := rfl

theorem header_headerOctets {p : Point} {digits tail : List UInt8} {signed : Bool}
    (start : p.rest = headerOctets digits signed ++ tail) (numeral : IsNumeral digits)
    (fits : lengthOf digits ≤ maxLength) :
    header p = .ok ⟨lengthOf digits, (headerOctets digits signed).length⟩ := by
  have judged (close : Nat) : Header.ofDigits p digits close = .ok ⟨lengthOf digits, close + 1⟩ :=
    Header.ofDigits_eq_ok_iff.mpr ⟨numeral.nonempty, fits, rfl⟩
  have run := takeWhile_digits numeral.digit signed tail
  simp only [header, start, drop_headerOctets, run]
  rw [List.append_assoc, List.drop_left]
  cases signed with
  | false => simp [judged, headerOctets, Nat.add_comm]
  | true =>
    have different : plus ≠ closeBrace := by decide
    simp [judged, headerOctets, different]
    omega

/-- Only octets of this form are a header, with one plus sign at most. -/
theorem header_eq_ok_iff {p : Point} {h : Header} (opens : p.rest.head? = some openBrace) :
    header p = .ok h ↔
      ∃ digits signed tail, p.rest = headerOctets digits signed ++ tail ∧ IsNumeral digits ∧
        lengthOf digits ≤ maxLength ∧
        h = ⟨lengthOf digits, (headerOctets digits signed).length⟩ := by
  constructor
  · intro found
    obtain ⟨body, start⟩ := List.head?_eq_some_iff.mp opens
    have all : ∀ d ∈ body.takeWhile isDigit, isDigit d = true :=
      fun d member => List.all_eq_true.mp List.all_takeWhile d member
    have cut : body.takeWhile isDigit ++ body.drop (body.takeWhile isDigit).length = body :=
      List.prefix_iff_eq_append.mp (List.takeWhile_prefix isDigit)
    simp only [header, start, List.drop_one, List.tail_cons] at found
    generalize body.takeWhile isDigit = digits at all cut found
    split at found
    · contradiction
    next b after left =>
      rw [left] at cut
      split at found
      next closing =>
        obtain ⟨nonempty, fits, rfl⟩ := Header.ofDigits_eq_ok_iff.mp found
        refine ⟨digits, false, after, ?_, ⟨nonempty, all⟩, fits, ?_⟩
        · simp [start, ← cut, headerOctets, closing]
        · simp [headerOctets, Nat.add_comm]
      split at found
      next signing =>
        obtain ⟨nonempty, fits, rfl⟩ := Header.ofDigits_eq_ok_iff.mp found
        obtain ⟨tail, rfl⟩ := List.head?_eq_some_iff.mp signing.2
        refine ⟨digits, true, tail, ?_, ⟨nonempty, all⟩, fits, ?_⟩
        · simp [start, ← cut, headerOctets, signing.1]
        · simp [headerOctets]
          omega
      · contradiction
  · rintro ⟨digits, signed, tail, start, numeral, fits, rfl⟩
    exact header_headerOctets start numeral fits

theorem announced_eq_ok {p : Point} {digits payload tail : List UInt8} {signed : Bool}
    (start : p.rest = headerOctets digits signed ++ payload ++ tail) (numeral : IsNumeral digits)
    (announces : lengthOf digits = payload.length) (fits : payload.length ≤ maxLength) :
    announced p = .ok ⟨payload.length, (headerOctets digits signed).length⟩ := by
  rw [List.append_assoc] at start
  have found := header_headerOctets start numeral (announces ▸ fits)
  rw [announces] at found
  refine announced_eq_ok_iff.mpr ⟨found, ?_⟩
  simp only [Point.rest_skip, start, List.drop_left, List.length_append]
  omega

theorem extent_literal {p : Point} {digits payload tail : List UInt8} {signed : Bool}
    (start : p.rest = headerOctets digits signed ++ payload ++ tail) (numeral : IsNumeral digits)
    (announces : lengthOf digits = payload.length) (fits : payload.length ≤ maxLength) :
    extent p = .ok (headerOctets digits signed ++ payload).length := by
  simp only [extent, announced_eq_ok start numeral announces fits, List.length_append]

theorem read_eq_ok_iff {chunk : Nat} {p after : Point} {text : String}
    (opens : p.rest.head? = some openBrace) :
    read chunk p = .ok (text, after) ↔
      ∃ digits signed tail, p.rest = headerOctets digits signed ++ ofText text ++ tail ∧
        IsNumeral digits ∧ lengthOf digits = (ofText text).length ∧
        (ofText text).length ≤ maxLength ∧
        after = p.skip (headerOctets digits signed ++ ofText text).length := by
  constructor
  · intro found
    unfold read at found
    split at found
    · contradiction
    next h valid =>
      obtain ⟨isHeader, within⟩ := announced_eq_ok_iff.mp valid
      obtain ⟨digits, signed, later, start, numeral, fits, rfl⟩ :=
        (header_eq_ok_iff opens).mp isHeader
      simp only [text?_copy, Point.rest_skip, start, List.drop_left] at found within
      split at found
      · contradiction
      next text isText =>
        obtain ⟨rfl, rfl⟩ := Prod.mk.inj (Except.ok.inj found)
        have payload := text?_eq_some_iff.mp isText
        have length : lengthOf digits = (ofText text).length := by
          rw [← payload, List.length_take, Nat.min_eq_left within]
        refine ⟨digits, signed, later.drop (lengthOf digits), ?_, numeral, length, length ▸ fits,
          ?_⟩
        · rw [start, List.append_assoc, ← payload, List.take_append_drop]
        · rw [Point.skip_skip, List.length_append, length]
  · rintro ⟨digits, signed, tail, start, numeral, announces, fits, rfl⟩
    have payload : (p.skip (headerOctets digits signed).length).rest = ofText text ++ tail := by
      rw [Point.rest_skip, start, List.append_assoc, List.drop_left]
    simp only [read, announced_eq_ok start numeral announces fits, text?_copy, payload,
      List.take_left, text?_ofText, Point.skip_skip, List.length_append]

theorem opensHeader_headerOctets {p : Point} {digits tail : List UInt8} {signed : Bool}
    (start : p.rest = headerOctets digits signed ++ tail) (numeral : IsNumeral digits)
    (placed : startsToken p = true) : opensHeader p = true := by
  have run := takeWhile_digits numeral.digit signed tail
  simp only [opensHeader, start, drop_headerOctets, run, placed, Bool.true_and]
  rw [List.append_assoc, List.drop_left]
  have nonempty : digits.isEmpty = false := by simpa using numeral.nonempty
  cases signed <;> simp [nonempty, closesHeader]

end Literal

/-- A text that can stand in a line as it is. -/
structure IsWord (text : String) : Prop where
  nonempty : text ≠ ""
  unbraced : (ofText text).head? ≠ some openBrace
  undelimited : ∀ b ∈ ofText text, isDelimiter b = false

namespace Token

inductive Spelled : List UInt8 → Token → Prop
  | bare {text : String} : IsWord text → Spelled (ofText text) (.bare text)
  | quoted {raw : String} : Quoted.Content (ofText raw) →
      Spelled (quote :: ofText raw ++ [quote]) (.quoted (Quoted.unescape raw))
  | literal {digits : List UInt8} {text : String} (signed : Bool) : Literal.IsNumeral digits →
      Literal.lengthOf digits = (ofText text).length →
      (ofText text).length ≤ Literal.maxLength →
      Spelled (Literal.headerOctets digits signed ++ ofText text) (.literal text)

/-- What may follow a token: after a bare word only a delimiter, else the word would go on. -/
def Ends : Token → List UInt8 → Prop
  | .bare _, tail => ∀ b, tail.head? = some b → isDelimiter b = true
  | .quoted _, _ | .literal _, _ => True

end Token

/-- No token goes on into these octets. -/
def Bounded (tail : List UInt8) : Prop := ∀ b, tail.head? = some b → isDelimiter b = true

theorem Bounded.ends {tail : List UInt8} (bounded : Bounded tail) (token : Token) :
    token.Ends tail := by
  cases token with
  | bare text => exact bounded
  | quoted | literal => trivial

/-- Where something follows already, what comes behind it does not matter. -/
theorem Token.Ends.append {token : Token} {front tail : List UInt8} (ends : token.Ends front)
    (last : front = [] → token.Ends tail) : token.Ends (front ++ tail) := by
  cases front with
  | nil => exact last rfl
  | cons b front => cases token <;> exact ends

theorem bounded_nil : Bounded [] := by
  intro b first
  contradiction

theorem Token.Ends.of_append {token : Token} {front tail : List UInt8}
    (ends : token.Ends (front ++ tail)) : token.Ends front := by
  cases front with
  | nil => cases token <;> first | exact bounded_nil | trivial
  | cons b front => cases token <;> exact ends

theorem bounded_cons {b : UInt8} {tail : List UInt8} (delimiter : isDelimiter b = true) :
    Bounded (b :: tail) := by
  intro c first
  exact Option.some.inj first ▸ delimiter

theorem bounded_space (tail : List UInt8) : Bounded (space :: tail) := bounded_cons (by decide)

theorem bounded_closeParen (tail : List UInt8) : Bounded (closeParen :: tail) :=
  bounded_cons (by decide)

theorem isBlank_space : isBlank space = true := by decide

namespace Point

theorem skipBlanks_of_nonblank {p : Point}
    (nonblank : ∀ b, p.rest.head? = some b → isBlank b = false) : p.skipBlanks = p := by
  have none : p.rest.takeWhile isBlank = [] := by
    cases rest : p.rest with
    | nil => rfl
    | cons b tail => simp [nonblank b (by rw [rest]; rfl)]
  simp [skipBlanks, none, skip]

theorem skipBlanks_of_cons {p : Point} {b : UInt8} {tail : List UInt8}
    (start : p.rest = b :: tail) (nonblank : isBlank b = false) : p.skipBlanks = p := by
  apply skipBlanks_of_nonblank
  intro c first
  rw [start] at first
  exact Option.some.inj first ▸ nonblank

theorem skipBlanks_openParen {p : Point} {tail : List UInt8} (start : p.rest = openParen :: tail) :
    p.skipBlanks = p :=
  skipBlanks_of_cons start (by decide)

theorem skipBlanks_closeParen {p : Point} {tail : List UInt8}
    (start : p.rest = closeParen :: tail) : p.skipBlanks = p :=
  skipBlanks_of_cons start (by decide)

theorem skipBlanks_of_blank {p : Point} {b : UInt8} {tail : List UInt8}
    (start : p.rest = b :: tail) (blank : isBlank b = true) :
    p.skipBlanks = (p.skip 1).skipBlanks := by
  simp only [skipBlanks, skip_skip, rest_skip, start, List.takeWhile_cons, blank, ite_true,
    List.length_cons, List.drop_one, List.tail_cons, Nat.add_comm]

theorem nonblank_skipBlanks (p : Point) :
    ∀ b, p.skipBlanks.rest.head? = some b → isBlank b = false := by
  intro b first
  obtain ⟨tail, start⟩ := List.head?_eq_some_iff.mp first
  exact isBlank_head_skipBlanks start

theorem rest_skip_one {p : Point} {b : UInt8} {tail : List UInt8} (start : p.rest = b :: tail) :
    (p.skip 1).rest = tail := by
  rw [rest_skip, start, List.drop_one, List.tail_cons]

theorem rest_skip_append {p : Point} {front tail : List UInt8} (start : p.rest = front ++ tail) :
    (p.skip front.length).rest = tail := by
  rw [rest_skip, start, List.drop_left]

theorem offset_skip_append {p : Point} {front tail : List UInt8}
    (start : p.rest = front ++ tail) :
    (p.skip front.length).offset = p.offset + front.length := by
  simp [start]

end Point

namespace Lexeme

theorem word_eq_ok_iff {p after : Point} {text : String} :
    word p = .ok (text, after) ↔
      ∃ tail, p.rest = ofText text ++ tail ∧ (∀ b ∈ ofText text, isDelimiter b = false) ∧
        (∀ b, tail.head? = some b → isDelimiter b = true) ∧
        after = p.skip (ofText text).length := by
  constructor
  · intro found
    have all := List.all_takeWhile (p := (!isDelimiter ·)) (l := p.rest)
    have stop := List.head?_dropWhile_not (!isDelimiter ·) p.rest
    have cut := List.takeWhile_append_dropWhile (p := (!isDelimiter ·)) (l := p.rest)
    unfold word at found
    dsimp only at found
    split at found
    · contradiction
    next text isText =>
      obtain ⟨rfl, rfl⟩ := Prod.mk.inj (Except.ok.inj found)
      have octets := text?_eq_some_iff.mp isText
      rw [octets] at cut all
      refine ⟨_, cut.symm, by simpa using all, ?_, by rw [octets]⟩
      intro b first
      rw [first] at stop
      simpa using stop
  · rintro ⟨tail, start, inside, ends, rfl⟩
    have run : p.rest.takeWhile (!isDelimiter ·) = ofText text := by
      rw [start, List.takeWhile_append_of_pos (by simpa using inside)]
      cases tail with
      | nil => simp
      | cons b tail => simp [ends b rfl]
    simp only [word, run, text?_ofText]

theorem here_spelled {chunk : Nat} {p : Point} {octets tail : List UInt8} {token : Token}
    (start : p.rest = octets ++ tail) (spelled : token.Spelled octets) (ends : token.Ends tail) :
    here chunk p = .ok (some (.piece (.token token), p.skip octets.length)) := by
  cases spelled with
  | @bare text word =>
    have read := word_eq_ok_iff.mpr ⟨tail, start, word.undelimited, ends, rfl⟩
    cases spelling : ofText text with
    | nil => exact absurd (ofText_eq_nil_iff.mp spelling) word.nonempty
    | cons b octets =>
      have first : role b = .plain := by
        have unbraced := word.unbraced
        have undelimited := word.undelimited b (by simp [spelling])
        simp only [spelling, List.head?_cons, Option.some.injEq, ne_eq,
          ← role_eq_openBrace_iff] at unbraced
        simpa [isDelimiter, unbraced] using undelimited
      rw [spelling, List.cons_append] at start
      rw [spelling] at read
      simp only [here, start, first]
      exact asToken_eq_some_iff.mpr ⟨text, read, rfl⟩
  | @quoted raw content =>
    have start' : p.rest = quote :: (ofText raw ++ quote :: tail) := by simp [start]
    have opens : p.rest.head? = some quote := by rw [start']; rfl
    have first : role quote = .quote := role_eq_quote_iff.mpr rfl
    have read := (Quoted.read_eq_ok_iff opens).mpr
      ⟨raw, tail, start', content, rfl, rfl⟩
    have length : (quote :: ofText raw ++ [quote]).length = (ofText raw).length + 2 := by simp
    simp only [here, start', first, length]
    exact asToken_eq_some_iff.mpr ⟨_, read, rfl⟩
  | @literal digits text signed numeral announces fits =>
    have opens : p.rest.head? = some openBrace := by rw [start]; rfl
    obtain ⟨later, start'⟩ := List.head?_eq_some_iff.mp opens
    have first : role openBrace = .openBrace := role_eq_openBrace_iff.mpr rfl
    have read : Literal.read chunk p = .ok (text, _) := (Literal.read_eq_ok_iff opens).mpr
      ⟨digits, signed, tail, start, numeral, announces, fits, rfl⟩
    simp only [here, start', first]
    exact asToken_eq_some_iff.mpr ⟨text, read, rfl⟩

theorem spelled_of_here {chunk : Nat} {p after : Point} {token : Token}
    (nonblank : ∀ b, p.rest.head? = some b → isBlank b = false)
    (found : here chunk p = .ok (some (.piece (.token token), after))) :
    ∃ octets tail, p.rest = octets ++ tail ∧ token.Spelled octets ∧ token.Ends tail ∧
      after = p.skip octets.length := by
  cases start : p.rest with
  | nil => simp [here, start] at found
  | cons b later =>
    have first : p.rest.head? = some b := by rw [start]; rfl
    simp only [here, start] at found
    split at found
    case h_5 isQuote =>
      obtain rfl := role_eq_quote_iff.mp isQuote
      obtain ⟨text, read, same⟩ := asToken_eq_some_iff.mp found
      obtain ⟨raw, tail, whole, content, rfl, rfl⟩ := (Quoted.read_eq_ok_iff first).mp read
      obtain rfl := Piece.token.inj (Lexeme.piece.inj same)
      exact ⟨_, tail, by rw [← start, whole]; simp, .quoted content, trivial, by simp⟩
    case h_6 isBrace =>
      obtain rfl := role_eq_openBrace_iff.mp isBrace
      obtain ⟨text, read, same⟩ := asToken_eq_some_iff.mp found
      obtain ⟨digits, signed, tail, whole, numeral, announces, fits, rfl⟩ :=
        (Literal.read_eq_ok_iff first).mp read
      obtain rfl := Piece.token.inj (Lexeme.piece.inj same)
      exact ⟨_, tail, start ▸ whole, .literal signed numeral announces fits, trivial, rfl⟩
    case h_7 blank => exact absurd (nonblank b first) (by simp [isBlank, blank])
    case h_8 plain =>
      obtain ⟨text, read, same⟩ := asToken_eq_some_iff.mp found
      obtain ⟨tail, whole, inside, ends, rfl⟩ := word_eq_ok_iff.mp read
      obtain rfl := Piece.token.inj (Lexeme.piece.inj same)
      have head : (ofText text).head? = some b := by
        cases spelling : ofText text with
        | nil =>
          rw [spelling, List.nil_append] at whole
          have delimiter := ends b (whole ▸ first)
          simp [isDelimiter, plain] at delimiter
        | cons c octets =>
          rw [spelling, List.cons_append] at whole
          rw [whole] at first
          exact first
      have word : IsWord text := by
        refine ⟨?_, ?_, inside⟩
        · rintro rfl
          have empty : ofText "" = [] := ofText_eq_nil_iff.mpr rfl
          rw [empty] at head
          exact Option.some_ne_none b head.symm
        · rw [head]
          intro same
          obtain rfl := Option.some.inj same
          rw [role_eq_openBrace_iff.mpr rfl] at plain
          contradiction
      exact ⟨_, tail, start ▸ whole, .bare word, ends, rfl⟩
    all_goals simp at found

theorem isBlank_of_undelimited {b : UInt8} (inside : isDelimiter b = false) :
    isBlank b = false := by
  cases kind : role b with
  | blank => simp [isDelimiter, kind] at inside
  | _ => simp [isBlank, kind]

theorem nonblank_of_spelled {octets tail : List UInt8} {token : Token}
    (spelled : token.Spelled octets) :
    ∀ b, (octets ++ tail).head? = some b → isBlank b = false := by
  cases spelled with
  | @bare text word =>
    intro b first
    cases spelling : ofText text with
    | nil => exact absurd (ofText_eq_nil_iff.mp spelling) word.nonempty
    | cons c octets =>
      rw [spelling] at first
      obtain rfl : c = b := Option.some.inj first
      exact isBlank_of_undelimited (word.undelimited c (by simp [spelling]))
  | quoted content =>
    intro b first
    obtain rfl : quote = b := Option.some.inj first
    decide
  | literal signed numeral announces fits =>
    intro b first
    obtain rfl : openBrace = b := Option.some.inj first
    decide

theorem next_spelled {chunk : Nat} {p : Point} {octets tail : List UInt8} {token : Token}
    (start : p.rest = octets ++ tail) (spelled : token.Spelled octets) (ends : token.Ends tail) :
    next chunk p = .ok (some (.piece (.token token), p.skip octets.length)) := by
  rw [next, Point.skipBlanks_of_nonblank (start ▸ nonblank_of_spelled spelled)]
  exact here_spelled start spelled ends

theorem next_blank {chunk : Nat} {p : Point} {b : UInt8} {tail : List UInt8}
    (start : p.rest = b :: tail) (blank : isBlank b = true) :
    next chunk p = next chunk (p.skip 1) := by
  rw [next, next, Point.skipBlanks_of_blank start blank]

theorem next_skipBlanks {chunk : Nat} (p : Point) : next chunk p.skipBlanks = next chunk p := by
  rw [next, next, Point.skipBlanks_of_nonblank p.nonblank_skipBlanks]

theorem next_openBrace {chunk : Nat} {p : Point} {tail : List UInt8}
    (start : p.rest = openBrace :: tail) :
    next chunk p = asToken .literal (Literal.read chunk p) := by
  have kind : role openBrace = .openBrace := role_eq_openBrace_iff.mpr rfl
  rw [next, Point.skipBlanks_of_cons start (by decide)]
  simp only [here, start, kind]

theorem next_openParen {chunk : Nat} {p : Point} {tail : List UInt8}
    (start : p.rest = Octet.openParen :: tail) :
    next chunk p = .ok (some (.openParen, p.skip 1)) := by
  have kind : role Octet.openParen = .openParen := role_eq_openParen_iff.mpr rfl
  rw [next, Point.skipBlanks_openParen start]
  simp only [here, start, kind]

theorem next_closeParen {chunk : Nat} {p : Point} {tail : List UInt8}
    (start : p.rest = Octet.closeParen :: tail) :
    next chunk p = .ok (some (.closeParen, p.skip 1)) := by
  have kind : role Octet.closeParen = .closeParen := role_eq_closeParen_iff.mpr rfl
  rw [next, Point.skipBlanks_closeParen start]
  simp only [here, start, kind]

theorem next_end {chunk : Nat} {p : Point} (finished : p.rest = []) :
    next chunk p = .ok none := by
  rw [next, Point.skipBlanks_of_nonblank (by simp [finished])]
  simp only [here, finished]

end Lexeme

end ImapReply
