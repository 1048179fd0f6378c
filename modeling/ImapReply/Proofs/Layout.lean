import ImapReply.Line
import ImapReply.Proofs.Spelling

/-! Octets as a sequence of elements without brackets around them, and what verbatim reading makes
of it. The scan over an inner list never leaves step with the elements: it passes over tokens
whole, so a parenthesis counts only if it opens or closes a list. -/
namespace ImapReply

open Octet Octets

/-- A list carries its own text, parentheses included. -/
inductive Element where
  | token (token : Token)
  | list (text : String) (items : List Element)

namespace Element

/-- What stands for an element inside a list. -/
def inner : Element → Value
  | .token t => t.value false
  | .list text _ => .ofText text

/-- What stands for an element outside all lists. -/
def outer : Element → Value
  | .token t => t.value true
  | .list _ items => .list (items.map inner)

end Element

/-- Octets behind which an opening brace announces a literal and is not part of a word. -/
def Announcing (behind : Option UInt8) : Prop :=
  behind = none ∨ behind = some space ∨ behind = some openParen

/-- Where a token of this form may stand. -/
def Token.Placed (behind : Option UInt8) : Token → Prop
  | .bare _ | .quoted _ => True
  | .literal _ => Announcing behind

theorem Announcing.placed {behind : Option UInt8} (announcing : Announcing behind)
    (token : Token) : token.Placed behind := by
  cases token with
  | bare | quoted => trivial
  | literal text => exact announcing

theorem Announcing.startsToken {p : Point} (announcing : Announcing p.behind) :
    Literal.startsToken p = true := by
  rcases announcing with none | space | paren <;> simp [Literal.startsToken, *]

/-- Parentheses around the octets make this text. -/
def Encloses (text : String) (inside : List UInt8) : Prop :=
  ofText text = openParen :: inside ++ [closeParen]

theorem Encloses.length {text : String} {inside : List UInt8} (whole : Encloses text inside) :
    (ofText text).length = 1 + (inside.length + 1) := by
  rw [whole, List.length_append, List.length_cons, List.length_singleton]
  omega

theorem Encloses.start {text : String} {inside rest tail : List UInt8}
    (whole : Encloses text inside) (start : rest = ofText text ++ tail) :
    rest = openParen :: (inside ++ closeParen :: tail) := by
  rw [start, whole, List.append_assoc]
  rfl

/-- Octets, with the octet that stands behind them, as a sequence of elements. -/
inductive Layout : Option UInt8 → List UInt8 → List Element → Prop
  | done {behind : Option UInt8} : Layout behind [] []
  | blank {behind : Option UInt8} {b : UInt8} {rest : List UInt8} {items : List Element} :
      isBlank b = true → Layout (some b) rest items → Layout behind (b :: rest) items
  | token {behind : Option UInt8} {octets rest : List UInt8} {token : Token}
      {items : List Element} : token.Spelled octets → token.Ends rest → token.Placed behind →
      Layout octets.getLast? rest items → Layout behind (octets ++ rest) (.token token :: items)
  | list {behind : Option UInt8} {inside rest : List UInt8} {text : String}
      {inner items : List Element} : Encloses text inside →
      Layout (some openParen) inside inner → Layout (some closeParen) rest items →
      Layout behind (ofText text ++ rest) (.list text inner :: items)

namespace Point

theorem behind_skip {p : Point} {front tail : List UInt8} (start : p.rest = front ++ tail)
    (nonempty : front ≠ []) : (p.skip front.length).behind = front.getLast? := by
  rw [behind, skip, start, List.take_left, List.head?_append, List.head?_reverse]
  cases last : front.getLast? with
  | none => exact absurd (List.getLast?_eq_none_iff.mp last) nonempty
  | some b => rfl

theorem behind_skip_one {p : Point} {b : UInt8} {tail : List UInt8} (start : p.rest = b :: tail) :
    (p.skip 1).behind = some b := by
  have front : p.rest = [b] ++ tail := start
  exact behind_skip front (by simp)

end Point

theorem Token.Spelled.ne_nil {octets : List UInt8} {token : Token}
    (spelled : token.Spelled octets) : octets ≠ [] := by
  cases spelled with
  | bare word => exact fun none => word.nonempty (ofText_eq_nil_iff.mp none)
  | quoted | literal => simp [Literal.headerOctets]

namespace VerbatimList

theorem closeAfter_step {depth passed n deeper : Nat} {p : Point} {b : UInt8} {tail : List UInt8}
    (start : p.rest = b :: tail) (taken : stride p b = .ok n)
    (counted : depthAfter depth b = some deeper) :
    closeAfter depth passed p = closeAfter deeper (passed + n) (p.skip n) := by
  rw [closeAfter_eq]
  simp only [start, taken, counted]

theorem closeAfter_word {depth : Nat} {word tail : List UInt8}
    (undelimited : ∀ b ∈ word, isDelimiter b = false) :
    ∀ {passed : Nat} {p : Point}, p.rest = word ++ tail →
      (word.head? = some openBrace → Literal.startsToken p = false) →
      closeAfter depth passed p = closeAfter depth (passed + word.length) (p.skip word.length) := by
  induction word with
  | nil => intro passed p _ _; simp [Point.skip]
  | cons b word ih =>
    intro passed p start inWord
    have inside := undelimited b (by simp)
    have next : (p.skip 1).rest = word ++ tail := Point.rest_skip_one start
    have placed : Literal.startsToken (p.skip 1) = false := by
      rw [Literal.startsToken, Point.behind_skip_one start]
      have notSpace : b ≠ space := by rintro rfl; revert inside; decide
      have notParen : b ≠ openParen := by rintro rfl; revert inside; decide
      simp [notSpace, notParen]
    have taken : stride p b = .ok 1 := by
      cases kind : role b with
      | plain => simp only [stride, kind]
      | openBrace =>
        obtain rfl := role_eq_openBrace_iff.mp kind
        have closed : Literal.opensHeader p = false := by
          rw [Literal.opensHeader, inWord rfl, Bool.false_and, Bool.false_and]
        simp [stride, kind, closed]
      | _ => simp [isDelimiter, kind] at inside
    have counted : depthAfter depth b = some depth := by
      cases kind : role b with
      | plain | openBrace => simp only [depthAfter, kind]
      | _ => simp [isDelimiter, kind] at inside
    rw [closeAfter_step start taken counted,
      ih (fun c member => undelimited c (by simp [member])) next (fun _ => placed),
      Point.skip_skip, List.length_cons, Nat.add_assoc, Nat.add_comm 1]

theorem closeAfter_token {behind : Option UInt8} {depth passed : Nat} {p : Point}
    {octets tail : List UInt8} {token : Token} (here : p.behind = behind)
    (start : p.rest = octets ++ tail) (spelled : token.Spelled octets)
    (placed : token.Placed behind) :
    closeAfter depth passed p =
      closeAfter depth (passed + octets.length) (p.skip octets.length) := by
  cases spelled with
  | bare word =>
    exact closeAfter_word word.undelimited start fun brace => absurd brace word.unbraced
  | @quoted raw content =>
    have taken : stride p quote = .ok (quote :: ofText raw ++ [quote]).length := by
      have kind : role quote = .quote := role_eq_quote_iff.mpr rfl
      have string : p.rest = quote :: ofText raw ++ quote :: tail := by simpa using start
      simpa [stride, kind] using Quoted.extent_content string content
    exact closeAfter_step start taken rfl
  | @literal digits text signed numeral announces fits =>
    have taken : stride p openBrace =
        .ok (Literal.headerOctets digits signed ++ ofText text).length := by
      have kind : role openBrace = .openBrace := role_eq_openBrace_iff.mpr rfl
      have starts : Literal.startsToken p = true := Announcing.startsToken (here ▸ placed)
      have header := start
      rw [List.append_assoc] at header
      simp only [stride, kind, Literal.opensHeader_headerOctets header numeral starts, ite_true]
      exact Literal.extent_literal start numeral announces fits
    exact closeAfter_step start taken rfl

/-- The scan passes over elements as a whole and comes out at the depth where it went in. -/
theorem closeAfter_layout {behind : Option UInt8} {octets : List UInt8} {items : List Element}
    (layout : Layout behind octets items) :
    ∀ {depth passed : Nat} {p : Point} {tail : List UInt8}, p.behind = behind →
      p.rest = octets ++ tail →
      closeAfter depth passed p =
        closeAfter depth (passed + octets.length) (p.skip octets.length) := by
  induction layout with
  | done => intro depth passed p tail _ _; simp [Point.skip]
  | @blank behind b rest items blank _ ih =>
    intro depth passed p tail _ start
    have kind : role b = .blank := by simpa [isBlank] using blank
    have taken : stride p b = .ok 1 := by simp only [stride, kind]
    have counted : depthAfter depth b = some depth := by simp only [depthAfter, kind]
    rw [closeAfter_step start taken counted,
      ih (Point.behind_skip_one start) (Point.rest_skip_one start),
      Point.skip_skip, List.length_cons, Nat.add_assoc, Nat.add_comm 1]
  | @token behind octets rest token items spelled _ placed _ ih =>
    intro depth passed p tail here start
    rw [List.append_assoc] at start
    rw [closeAfter_token here start spelled placed,
      ih (Point.behind_skip start spelled.ne_nil) (Point.rest_skip_append start),
      Point.skip_skip, List.length_append, Nat.add_assoc]
  | @list behind inside rest text inner items whole _ _ ihInside ihRest =>
    intro depth passed p tail _ start
    rw [List.append_assoc] at start
    have opening := whole.start start
    have next := Point.rest_skip_one opening
    have closing := Point.rest_skip_append next
    have last := Point.rest_skip_one closing
    rw [closeAfter_step opening rfl rfl, ihInside (Point.behind_skip_one opening) next,
      closeAfter_step closing rfl rfl, ihRest (Point.behind_skip_one closing) last]
    simp only [Point.skip_skip, List.length_append, whole.length, Nat.add_assoc]

theorem inner_layout {opening p : Point} {inside tail : List UInt8} {text : String}
    {items : List Element} (start : p.rest = ofText text ++ tail)
    (whole : Encloses text inside) (layout : Layout (some openParen) inside items) :
    inner opening p = .ok (text, p.skip (ofText text).length) := by
  have opens := whole.start start
  have next := Point.rest_skip_one opens
  have closing := Point.rest_skip_append next
  have closed : closeAfter 0 1 (p.skip 1) = .ok (some (ofText text).length) := by
    rw [closeAfter_layout layout (Point.behind_skip_one opens) next, closeAfter_eq]
    simp only [closing, whole.length, ← Nat.add_assoc]
    rfl
  simp only [inner, closed, start, List.take_left, text?_ofText]

theorem readItems_blank {chunk : Nat} {opening p : Point} {c : Collector} {b : UInt8}
    {tail : List UInt8} (start : p.rest = b :: tail) (blank : isBlank b = true) :
    readItems chunk opening c p = readItems chunk opening c (p.skip 1) := by
  rw [readItems_eq, readItems_eq, Lexeme.next_blank start blank,
    Point.skipBlanks_of_blank start blank]

theorem readItems_layout {chunk : Nat} {opening : Point} {behind : Option UInt8}
    {octets : List UInt8} {items : List Element} (layout : Layout behind octets items) :
    ∀ {c : Collector} {p : Point} {tail : List UInt8}, c.joining = false → c.mapsNil = false →
      p.rest = octets ++ closeParen :: tail →
      readItems chunk opening c p =
        .ok (c.items ++ items.map Element.inner, p.skip (octets.length + 1)) := by
  induction layout with
  | done =>
    intro c p tail _ _ start
    rw [readItems_eq, Lexeme.next_closeParen start]
    simp
  | blank blank _ ih =>
    intro c p tail separate bare start
    rw [List.cons_append] at start
    rw [readItems_blank start blank, ih separate bare (Point.rest_skip_one start),
      Point.skip_skip, List.length_cons, Nat.add_assoc, Nat.add_comm 1]
  | @token behind octets rest token items spelled ends _ _ ih =>
    intro c p tail separate bare start
    rw [List.append_assoc] at start
    have stops := ends.append fun _ => (bounded_closeParen tail).ends token
    rw [readItems_eq, Lexeme.next_spelled start spelled stops]
    simp only [Collector.add_token separate, bare]
    rw [ih (by simpa using separate) (by simpa using bare) (Point.rest_skip_append start)]
    simp [Element.inner, Point.skip_skip, Nat.add_assoc]
  | @list behind inside rest text inner items whole layout _ _ ih =>
    intro c p tail separate bare start
    rw [List.append_assoc] at start
    have opens := whole.start start
    have kept : VerbatimList.inner opening p = .ok (text, p.skip (ofText text).length) :=
      inner_layout start whole layout
    rw [readItems_eq, Lexeme.next_openParen opens, Point.skipBlanks_openParen opens]
    simp only [kept]
    rw [ih (by simpa using separate) (by simpa using bare) (Point.rest_skip_append start)]
    simp [Element.inner, Point.skip_skip, Nat.add_assoc]

end VerbatimList

namespace Line

theorem readValues_blank {s : Settings} {p : Point} {c : Collector} {b : UInt8}
    {tail : List UInt8} (start : p.rest = b :: tail) (blank : isBlank b = true) :
    readValues s c p = readValues s c (p.skip 1) := by
  rw [readValues_eq, readValues_eq, Lexeme.next_blank start blank,
    Point.skipBlanks_of_blank start blank]

theorem readValues_layout {s : Settings} (verbatim : s.nesting = .verbatim)
    {behind : Option UInt8} {octets : List UInt8} {items : List Element}
    (layout : Layout behind octets items) :
    ∀ {c : Collector} {p : Point}, c.joining = false → c.mapsNil = true → p.rest = octets →
      readValues s c p = .ok (c.items ++ items.map Element.outer) := by
  induction layout with
  | done =>
    intro c p _ _ finished
    rw [readValues_eq, Lexeme.next_end finished]
    simp
  | blank blank _ ih =>
    intro c p separate mapsNil start
    rw [readValues_blank start blank]
    exact ih separate mapsNil (Point.rest_skip_one start)
  | @token behind octets rest token items spelled ends _ _ ih =>
    intro c p separate mapsNil start
    rw [readValues_eq, Lexeme.next_spelled start spelled ends]
    simp only [Collector.add_token separate, mapsNil]
    rw [ih (by simpa using separate) (by simpa using mapsNil) (Point.rest_skip_append start)]
    simp [Element.outer]
  | @list behind inside rest text inner items whole layout _ _ ih =>
    intro c p separate mapsNil start
    have opens := whole.start start
    have next := Point.rest_skip_one opens
    have read : readList s p =
        .ok (inner.map Element.inner, p.skip (ofText text).length) := by
      simp only [readList, verbatim, VerbatimList.read]
      rw [VerbatimList.readItems_layout layout rfl rfl next, Point.skip_skip, whole.length]
      rfl
    rw [readValues_eq, Lexeme.next_openParen opens, Point.skipBlanks_openParen opens]
    simp only [read]
    rw [ih (by simpa using separate) (by simpa using mapsNil) (Point.rest_skip_append start)]
    simp [Element.outer]

end Line

variable {s : Settings}

theorem decode_layout (verbatim : s.nesting = .verbatim) {line : List UInt8}
    {items : List Element} (short : s.maxLineLength.filter (· < line.length) = none)
    (layout : Layout none line items) : decode s line = .ok (items.map Element.outer) := by
  simp only [decode, short]
  exact Line.readValues_layout verbatim layout rfl rfl rfl

/-- A list read again from its own text gives its elements one level further down. -/
theorem expand_layout (verbatim : s.nesting = .verbatim) {text : String} {isNull : Bool}
    {inside : List UInt8} {items : List Element}
    (short : s.maxLineLength.filter (· < (ofText text).length) = none)
    (whole : Encloses text inside) (layout : Layout (some openParen) inside items) :
    expand s (.atom text isNull) = .ok (.list (items.map Element.inner)) := by
  have alone : Layout none (ofText text ++ []) [.list text items] := .list whole layout .done
  rw [List.append_nil] at alone
  have opens : (ofText text).head? = some openParen := by rw [whole]; rfl
  simp only [expand, Value.text?, opens, ite_true, decode_layout verbatim short alone,
    List.map_cons, List.map_nil, Element.outer]

end ImapReply
