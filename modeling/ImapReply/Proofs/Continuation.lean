import ImapReply.Proofs.Layout
import ImapReply.Proofs.Walk

/-! Octets put at the end of a line leave alone what was read before them, if no word can go on
into them. In the other direction, what is read without touching the last octets of a line is read
without them as well. -/
namespace ImapReply

open Octet Octets

namespace Point

theorem skipBlanks_of_all {p : Point} {front tail : List UInt8}
    (blank : ∀ b ∈ front, isBlank b = true) (start : p.rest = front ++ tail) :
    p.skipBlanks = (p.skip front.length).skipBlanks := by
  rw [skipBlanks, skipBlanks, skip_skip, rest_skip_append start, start,
    List.takeWhile_append_of_pos blank, List.length_append]

theorem suffix_skip {p : Point} {n : Nat} (positive : 0 < n) :
    (p.skip n).rest <:+ p.rest.drop 1 := by
  rw [rest_skip, ← Nat.add_sub_of_le positive, ← List.drop_drop]
  exact List.drop_suffix _ _

/-- The same place in a line with more octets at its end. -/
def extend (tail : List UInt8) (p : Point) : Point := ⟨p.read, p.rest ++ tail⟩

variable {tail : List UInt8} {p : Point}

@[simp] theorem rest_extend (tail : List UInt8) (p : Point) :
    (p.extend tail).rest = p.rest ++ tail := rfl

theorem skip_extend {n : Nat} (within : n ≤ p.rest.length) :
    (p.extend tail).skip n = (p.skip n).extend tail := by
  simp [extend, skip, List.take_append_of_le_length within, List.drop_append_of_le_length within]

theorem skipBlanks_extend (more : p.skipBlanks.rest ≠ []) :
    (p.extend tail).skipBlanks = p.skipBlanks.extend tail := by
  have short : (p.rest.takeWhile isBlank).length ≤ p.rest.length :=
    (List.takeWhile_prefix isBlank).length_le
  have stops : (p.rest.takeWhile isBlank).length ≠ p.rest.length := by
    intro whole
    exact more (by rw [skipBlanks, rest_skip, whole, List.drop_length])
  have run : (p.rest ++ tail).takeWhile isBlank = p.rest.takeWhile isBlank := by
    rw [List.takeWhile_append, if_neg stops]
  rw [skipBlanks, rest_extend, run, skip_extend short]
  rfl

end Point

namespace Lexeme

inductive Spelled : List UInt8 → Lexeme → Prop
  | single {lexeme : Lexeme} {b : UInt8} : lexeme.octet? = some b → Spelled [b] lexeme
  | token {token : Token} {octets : List UInt8} : token.Spelled octets →
      Spelled octets (.piece (.token token))

/-- What may follow a lexeme. Only tokens mind. -/
def Ends : Lexeme → List UInt8 → Prop
  | .piece (.token token), tail => token.Ends tail
  | _, _ => True

theorem Spelled.ne_nil {octets : List UInt8} {lexeme : Lexeme} (spelled : lexeme.Spelled octets) :
    octets ≠ [] := by
  cases spelled with
  | single => simp
  | token spelled => exact spelled.ne_nil

theorem Ends.append {lexeme : Lexeme} {front tail : List UInt8} (ends : lexeme.Ends front)
    (last : front = [] → lexeme.Ends tail) : lexeme.Ends (front ++ tail) := by
  unfold Ends at ends last ⊢
  split
  · exact Token.Ends.append ends last
  · trivial

theorem Ends.of_append {lexeme : Lexeme} {front tail : List UInt8}
    (ends : lexeme.Ends (front ++ tail)) : lexeme.Ends front := by
  unfold Ends at ends ⊢
  split
  · exact Token.Ends.of_append ends
  · trivial

theorem here_single {chunk : Nat} {p : Point} {lexeme : Lexeme} {b : UInt8} {tail : List UInt8}
    (single : lexeme.octet? = some b) (start : p.rest = b :: tail) :
    here chunk p = .ok (some (lexeme, p.skip 1)) := by
  cases lexeme with
  | openParen =>
    obtain rfl := Option.some.inj single
    have kind : role Octet.openParen = .openParen := role_eq_openParen_iff.mpr rfl
    simp only [here, start, kind]
  | closeParen =>
    obtain rfl := Option.some.inj single
    have kind : role Octet.closeParen = .closeParen := role_eq_closeParen_iff.mpr rfl
    simp only [here, start, kind]
  | piece piece =>
    cases piece with
    | openBracket =>
      obtain rfl := Option.some.inj single
      have kind : role openBracket = .openBracket := role_eq_openBracket_iff.mpr rfl
      simp only [here, start, kind]
    | closeBracket =>
      obtain rfl := Option.some.inj single
      have kind : role closeBracket = .closeBracket := role_eq_closeBracket_iff.mpr rfl
      simp only [here, start, kind]
    | token => contradiction

theorem next_eq_some_iff {chunk : Nat} {p after : Point} {lexeme : Lexeme} :
    next chunk p = .ok (some (lexeme, after)) ↔
      ∃ octets tail, p.skipBlanks.rest = octets ++ tail ∧ lexeme.Spelled octets ∧
        lexeme.Ends tail ∧ after = p.skipBlanks.skip octets.length := by
  constructor
  · intro found
    cases single : lexeme.octet? with
    | some b =>
      obtain ⟨first, rfl⟩ := start_of_here single found
      obtain ⟨tail, start⟩ := List.head?_eq_some_iff.mp first
      refine ⟨[b], tail, start, .single single, ?_, rfl⟩
      unfold Ends
      split
      · contradiction
      · trivial
    | none =>
      obtain ⟨token, rfl⟩ : ∃ token, lexeme = .piece (.token token) := by
        rcases lexeme with _ | _ | ⟨_ | _ | token⟩
        all_goals first | exact ⟨_, rfl⟩ | contradiction
      obtain ⟨octets, tail, start, spelled, ends, rfl⟩ :=
        spelled_of_here p.nonblank_skipBlanks found
      exact ⟨octets, tail, start, .token spelled, ends, rfl⟩
  · rintro ⟨octets, tail, start, spelled, ends, rfl⟩
    cases spelled with
    | single single => exact here_single single start
    | token spelled => exact here_spelled start spelled ends

theorem next_eq_none_iff {chunk : Nat} {p : Point} :
    next chunk p = .ok none ↔ ∀ b ∈ p.rest, isBlank b = true := by
  have cut : p.rest.takeWhile isBlank ++ p.skipBlanks.rest = p.rest := by
    rw [Point.rest_skipBlanks, List.takeWhile_append_dropWhile]
  constructor
  · intro finished
    rw [finished_of_here finished, List.append_nil] at cut
    exact cut ▸ fun b => List.all_eq_true.mp List.all_takeWhile b
  · intro blank
    have none : p.skipBlanks.rest = [] := by
      rw [Point.skipBlanks_of_all blank (List.append_nil _).symm]
      simp [Point.skipBlanks]
    simp only [next, here, none]

/-- Blanks in front of a lexeme may be passed over first. -/
theorem next_of_blank {chunk : Nat} {p : Point} {front tail : List UInt8}
    (blank : ∀ b ∈ front, isBlank b = true) (start : p.rest = front ++ tail) :
    next chunk p = next chunk (p.skip front.length) := by
  rw [next, next, Point.skipBlanks_of_all blank start]

/-- A lexeme is the same with more octets behind it, if none of them can belong to it. -/
theorem next_extend_of {chunk : Nat} {p after : Point} {lexeme : Lexeme} {tail : List UInt8}
    (last : after.rest = [] → lexeme.Ends tail)
    (found : next chunk p = .ok (some (lexeme, after))) :
    next chunk (p.extend tail) = .ok (some (lexeme, after.extend tail)) := by
  obtain ⟨octets, later, start, spelled, ends, rfl⟩ := next_eq_some_iff.mp found
  rw [Point.rest_skip_append start] at last
  have more : p.skipBlanks.rest ≠ [] := by simp [start, spelled.ne_nil]
  have within : octets.length ≤ p.skipBlanks.rest.length := by simp [start]
  refine next_eq_some_iff.mpr ⟨octets, later ++ tail, ?_, spelled, ends.append last, ?_⟩
  · rw [Point.skipBlanks_extend more, Point.rest_extend, start, List.append_assoc]
  · rw [Point.skipBlanks_extend more, Point.skip_extend within]

theorem next_extend {chunk : Nat} {p after : Point} {lexeme : Lexeme} {tail : List UInt8}
    (bounded : Bounded tail) (found : next chunk p = .ok (some (lexeme, after))) :
    next chunk (p.extend tail) = .ok (some (lexeme, after.extend tail)) := by
  refine next_extend_of (fun _ => ?_) found
  unfold Ends
  split
  · exact bounded.ends _
  · trivial

/-- A lexeme that leaves the last octets of the line alone is there without them. -/
theorem next_of_extend {chunk : Nat} {p after : Point} {lexeme : Lexeme} {tail : List UInt8}
    (found : next chunk (p.extend tail) = .ok (some (lexeme, after)))
    (enough : tail.length ≤ after.rest.length) :
    ∃ before, after = before.extend tail ∧ next chunk p = .ok (some (lexeme, before)) := by
  obtain ⟨octets, later, start, spelled, ends, rfl⟩ := next_eq_some_iff.mp found
  have taken := List.length_pos_iff.mpr spelled.ne_nil
  rw [Point.rest_skip_append start] at enough
  have more : p.skipBlanks.rest ≠ [] := by
    intro none
    rw [Point.rest_skipBlanks] at none start
    have fewer := (List.dropWhile_suffix isBlank (l := tail)).length_le
    simp only [Point.rest_extend, List.dropWhile_append, none, List.isEmpty_nil, ite_true] at start
    rw [start, List.length_append] at fewer
    omega
  rw [Point.skipBlanks_extend more, Point.rest_extend] at start
  have within : octets.length ≤ p.skipBlanks.rest.length := by
    have total := congrArg List.length start
    simp only [List.length_append] at total
    omega
  have last : tail <:+ octets ++ later := start ▸ List.suffix_append _ _
  obtain ⟨between, rfl⟩ := List.suffix_of_suffix_length_le last (List.suffix_append _ _) enough
  rw [← List.append_assoc] at start
  have start := List.append_cancel_right start
  refine ⟨p.skipBlanks.skip octets.length, ?_, ?_⟩
  · rw [Point.skipBlanks_extend more, Point.skip_extend within]
  · exact next_eq_some_iff.mpr ⟨octets, between, start, spelled, ends.of_append, rfl⟩

end Lexeme

namespace Quoted

theorem extent_le {p : Point} {n : Nat} (found : extent p = .ok n) : n ≤ p.rest.length := by
  unfold extent at found
  split at found
  · contradiction
  next k closed =>
    obtain rfl := Except.ok.inj found
    obtain ⟨content, tail, start, -, rfl⟩ := contentLength_eq_some_iff.mp closed
    have length := congrArg List.length start
    simp only [List.length_drop, List.length_append, List.length_cons] at length
    omega

theorem extent_extend {p : Point} {n : Nat} (tail : List UInt8) (found : extent p = .ok n) :
    extent (p.extend tail) = .ok n := by
  have within := extent_le found
  have positive := extent_pos found
  unfold extent at found ⊢
  split at found
  · contradiction
  next k closed =>
    obtain ⟨content, after, start, valid, rfl⟩ := contentLength_eq_some_iff.mp closed
    have body : (p.extend tail).rest.drop 1 = content ++ quote :: (after ++ tail) := by
      rw [Point.rest_extend, List.drop_append_of_le_length (by omega), start, List.append_assoc,
        List.cons_append]
    rw [body, contentLength_content valid]
    exact found

end Quoted

namespace Literal

theorem extent_eq_ok_iff {p : Point} {n : Nat} (opens : p.rest.head? = some openBrace) :
    extent p = .ok n ↔ ∃ digits signed payload tail,
      p.rest = headerOctets digits signed ++ payload ++ tail ∧ IsNumeral digits ∧
      lengthOf digits = payload.length ∧ payload.length ≤ maxLength ∧
      n = (headerOctets digits signed ++ payload).length := by
  constructor
  · intro found
    unfold extent at found
    split at found
    · contradiction
    next h valid =>
      obtain rfl := Except.ok.inj found
      obtain ⟨isHeader, within⟩ := announced_eq_ok_iff.mp valid
      obtain ⟨digits, signed, later, start, numeral, fits, rfl⟩ :=
        (header_eq_ok_iff opens).mp isHeader
      rw [Point.rest_skip_append start] at within
      have taken : (later.take (lengthOf digits)).length = lengthOf digits := by
        rw [List.length_take, Nat.min_eq_left within]
      refine ⟨digits, signed, later.take (lengthOf digits), later.drop (lengthOf digits), ?_,
        numeral, taken.symm, taken.symm ▸ fits, ?_⟩
      · rw [start, List.append_assoc, List.take_append_drop]
      · rw [List.length_append, taken]
  · rintro ⟨digits, signed, payload, tail, start, numeral, announces, fits, rfl⟩
    exact extent_literal start numeral announces fits

theorem extent_le {p : Point} {n : Nat} (opens : p.rest.head? = some openBrace)
    (found : extent p = .ok n) : n ≤ p.rest.length := by
  obtain ⟨digits, signed, payload, tail, start, -, -, -, rfl⟩ := (extent_eq_ok_iff opens).mp found
  rw [start]
  exact (List.sublist_append_left _ _).length_le

theorem extent_extend {p : Point} {n : Nat} (tail : List UInt8)
    (opens : p.rest.head? = some openBrace) (found : extent p = .ok n) :
    extent (p.extend tail) = .ok n := by
  obtain ⟨digits, signed, payload, later, start, numeral, announces, fits, rfl⟩ :=
    (extent_eq_ok_iff opens).mp found
  have rest : (p.extend tail).rest = headerOctets digits signed ++ payload ++ (later ++ tail) := by
    rw [Point.rest_extend, start, List.append_assoc _ later tail]
  exact extent_literal rest numeral announces fits

/-- An octet that cannot stand in a header between its brace and the closing one. -/
def Foreign (b : UInt8) : Prop := isDigit b = false ∧ b ≠ plus

theorem foreign_closeParen : Foreign closeParen := ⟨by decide, by decide⟩

/-- A header is recognized by what stands in front of an octet that is foreign to it. -/
theorem opensHeader_extend {p : Point} (tail : List UInt8) {b : UInt8} (foreign : Foreign b)
    (member : b ∈ p.rest.drop 1) : opensHeader (p.extend tail) = opensHeader p := by
  have started : 1 ≤ p.rest.length := by
    have := List.length_pos_of_mem member
    rw [List.length_drop] at this
    omega
  have body : (p.extend tail).rest.drop 1 = p.rest.drop 1 ++ tail := by
    rw [Point.rest_extend, List.drop_append_of_le_length started]
  simp only [opensHeader, body]
  generalize p.rest.drop 1 = body at member
  have short : (body.takeWhile isDigit).length ≤ body.length :=
    (List.takeWhile_prefix isDigit).length_le
  have noDigit {octets : List UInt8} (all : octets.all isDigit = true) : b ∉ octets := by
    intro among
    have digit := List.all_eq_true.mp all b among
    rw [foreign.1] at digit
    contradiction
  have stops : (body.takeWhile isDigit).length ≠ body.length := by
    intro whole
    have all := List.all_takeWhile (p := isDigit) (l := body)
    rw [(List.takeWhile_prefix isDigit).eq_of_length whole] at all
    exact noDigit all member
  have run : (body ++ tail).takeWhile isDigit = body.takeWhile isDigit := by
    rw [List.takeWhile_append, if_neg stops]
  have left : b ∈ body.drop (body.takeWhile isDigit).length := by
    have cut : body.takeWhile isDigit ++ body.drop (body.takeWhile isDigit).length = body :=
      List.prefix_iff_eq_append.mp (List.takeWhile_prefix isDigit)
    rw [← cut] at member
    exact (List.mem_append.mp member).resolve_left (noDigit List.all_takeWhile)
  have same : closesHeader (body.drop (body.takeWhile isDigit).length ++ tail) =
      closesHeader (body.drop (body.takeWhile isDigit).length) := by
    generalize body.drop (body.takeWhile isDigit).length = later at left
    rcases later with _ | ⟨c, _ | ⟨d, later⟩⟩
    · contradiction
    · obtain rfl := List.mem_singleton.mp left
      simp [closesHeader, foreign.2]
    · rfl
  rw [run, List.drop_append_of_le_length short, same]
  rfl

end Literal

namespace VerbatimList

theorem stride_le {p : Point} {b : UInt8} {n : Nat} (start : p.rest.head? = some b)
    (taken : stride p b = .ok n) : n ≤ p.rest.length := by
  have one : 1 ≤ p.rest.length := by
    obtain ⟨tail, start⟩ := List.head?_eq_some_iff.mp start
    simp [start]
  unfold stride at taken
  split at taken
  · exact Quoted.extent_le taken
  next kind =>
    obtain rfl := role_eq_openBrace_iff.mp kind
    split at taken
    · exact Literal.extent_le start taken
    · exact Except.ok.inj taken ▸ one
  · exact Except.ok.inj taken ▸ one

theorem stride_extend {p : Point} {b c : UInt8} {n : Nat} (tail : List UInt8)
    (start : p.rest.head? = some b) (foreign : Literal.Foreign c) (member : c ∈ p.rest.drop 1)
    (taken : stride p b = .ok n) : stride (p.extend tail) b = .ok n := by
  cases kind : role b with
  | quote =>
    simp only [stride, kind] at taken ⊢
    exact Quoted.extent_extend tail taken
  | openBrace =>
    obtain rfl := role_eq_openBrace_iff.mp kind
    simp only [stride, kind, Literal.opensHeader_extend tail foreign member] at taken ⊢
    split at taken
    next opens =>
      rw [if_pos opens]
      exact Literal.extent_extend tail start taken
    next word =>
      rw [if_neg word]
      exact taken
  | _ => simpa only [stride, kind] using taken

theorem role_of_depthAfter {depth : Nat} {b : UInt8} (closes : depthAfter depth b = none) :
    b = closeParen := by
  unfold depthAfter at closes
  split at closes
  case h_2 kind => exact role_eq_closeParen_iff.mp kind
  all_goals contradiction

/-- What has been scanned ends with the parenthesis that matches. -/
theorem closeAfter_eq_some {depth passed n : Nat} {p : Point}
    (found : closeAfter depth passed p = .ok (some n)) :
    ∃ inside tail, p.rest = inside ++ closeParen :: tail ∧ n = passed + inside.length + 1 := by
  fun_induction closeAfter depth passed p with
  | case1 => simp at found
  | case2 => contradiction
  | case3 depth passed p b tail start n taken closes =>
    obtain rfl := role_of_depthAfter closes
    have kind : role closeParen = .closeParen := role_eq_closeParen_iff.mpr rfl
    obtain rfl : 1 = n := by simpa [stride, kind] using taken
    obtain rfl := Option.some.inj (Except.ok.inj found)
    exact ⟨[], tail, start, rfl⟩
  | case4 depth passed p b tail start n taken deeper counted ih =>
    have within := stride_le (by rw [start]; rfl) taken
    obtain ⟨inside, later, rest, rfl⟩ := ih found
    refine ⟨p.rest.take n ++ inside, later, ?_, ?_⟩
    · rw [List.append_assoc, ← rest, Point.rest_skip, List.take_append_drop]
    · rw [List.length_append, List.length_take, Nat.min_eq_left within]
      omega

/-- An inner list stands between its own parentheses. -/
theorem enclosed_of_closeAfter {p : Point} {tail : List UInt8} {n : Nat}
    (start : p.rest = openParen :: tail) (closed : closeAfter 0 1 (p.skip 1) = .ok (some n)) :
    ∃ inside later, p.rest = (openParen :: inside ++ [closeParen]) ++ later ∧
      n = (openParen :: inside ++ [closeParen]).length := by
  obtain ⟨inside, later, rest, rfl⟩ := closeAfter_eq_some closed
  rw [Point.rest_skip_one start] at rest
  exact ⟨inside, later, by simp [start, rest], by simp [Nat.add_comm]⟩

theorem closeAfter_extend {depth passed n : Nat} {p : Point} (tail : List UInt8)
    (found : closeAfter depth passed p = .ok (some n)) :
    closeAfter depth passed (p.extend tail) = .ok (some n) := by
  fun_induction closeAfter depth passed p with
  | case1 => simp at found
  | case2 => contradiction
  | case3 depth passed p b later start n taken closes =>
    obtain rfl := role_of_depthAfter closes
    have kind : role closeParen = .closeParen := role_eq_closeParen_iff.mpr rfl
    have taken : stride (p.extend tail) closeParen = .ok n := by
      simpa [stride, kind] using taken
    rw [closeAfter_eq]
    simp only [Point.rest_extend, start, List.cons_append, taken, closes]
    exact found
  | case4 depth passed p b later start n taken deeper counted ih =>
    have first : p.rest.head? = some b := by rw [start]; rfl
    obtain ⟨inside, after, rest, -⟩ := closeAfter_eq_some found
    have closes : closeParen ∈ p.rest.drop 1 :=
      (Point.suffix_skip (stride_pos taken)).subset
        (rest ▸ List.mem_append_right _ (List.mem_cons_self ..))
    rw [closeAfter_step (by rw [Point.rest_extend, start, List.cons_append])
      (stride_extend tail first Literal.foreign_closeParen closes taken) counted,
      Point.skip_extend (stride_le first taken)]
    exact ih found

theorem inner_eq_ok_iff {opening p after : Point} {text : String} :
    inner opening p = .ok (text, after) ↔ ∃ n, closeAfter 0 1 (p.skip 1) = .ok (some n) ∧
      text? (p.rest.take n) = some text ∧ after = p.skip n := by
  unfold inner
  constructor
  · intro found
    split at found
    · contradiction
    · contradiction
    next n closed =>
      split at found
      · contradiction
      next isText =>
        obtain ⟨rfl, rfl⟩ := Prod.mk.inj (Except.ok.inj found)
        exact ⟨n, closed, isText, rfl⟩
  · rintro ⟨n, closed, isText, rfl⟩
    simp only [closed, isText]

/-- A list that is kept is kept whatever comes after it, and whatever list it stands in. -/
theorem inner_extend {opening p after : Point} {text : String} (tail : List UInt8)
    (other : Point) (found : inner opening p = .ok (text, after)) :
    inner other (p.extend tail) = .ok (text, after.extend tail) := by
  obtain ⟨n, closed, isText, rfl⟩ := inner_eq_ok_iff.mp found
  obtain ⟨inside, later, rest, rfl⟩ := closeAfter_eq_some closed
  have length := congrArg List.length rest
  simp only [Point.rest_skip, List.length_drop, List.length_append, List.length_cons] at length
  have one : 1 ≤ p.rest.length := by omega
  have within : 1 + inside.length + 1 ≤ p.rest.length := by omega
  refine inner_eq_ok_iff.mpr ⟨_, ?_, ?_, (Point.skip_extend within).symm⟩
  · rw [Point.skip_extend one]
    exact closeAfter_extend tail closed
  · rwa [Point.rest_extend, List.take_append_of_le_length within]

end VerbatimList

namespace ListReader

/-- Where the one gives a list, the other gives it with the octets at the end of the line. -/
def Extended (tail : List UInt8) (list other : ListReader) : Prop :=
  ∀ {p after : Point} {v : Value}, p.rest.head? = some openParen → list p = .ok (v, after) →
    other (p.extend tail) = .ok (v, after.extend tail)

/-- Lists that the one gives without touching the octets at the end, the other gives without
them. -/
def Retracted (tail : List UInt8) (list other : ListReader) : Prop :=
  ∀ {p after : Point} {v : Value}, p.rest.head? = some openParen →
    list (p.extend tail) = .ok (v, after) → tail.length ≤ after.rest.length →
    ∃ before, after = before.extend tail ∧ other p = .ok (v, before)

variable {α : Type} {value : α → Value} {read other : Point → Except Fault (α × Point)}
  {tail : List UInt8}

theorem extended_form
    (extended : ∀ {p after : Point} {found : α}, p.rest.head? = some openParen →
      read p = .ok (found, after) → other (p.extend tail) = .ok (found, after.extend tail)) :
    Extended tail (fun p => form value (read p)) (fun p => form value (other p)) := by
  intro p after v opens given
  obtain ⟨found, list, rfl⟩ := form_eq_ok_iff.mp given
  exact form_eq_ok_iff.mpr ⟨found, extended opens list, rfl⟩

theorem retracted_form
    (retracted : ∀ {p after : Point} {found : α}, p.rest.head? = some openParen →
      read (p.extend tail) = .ok (found, after) → tail.length ≤ after.rest.length →
      ∃ before, after = before.extend tail ∧ other p = .ok (found, before)) :
    Retracted tail (fun p => form value (read p)) (fun p => form value (other p)) := by
  intro p after v opens given enough
  obtain ⟨found, list, rfl⟩ := form_eq_ok_iff.mp given
  obtain ⟨before, rfl, same⟩ := retracted opens list enough
  exact ⟨before, rfl, form_eq_ok_iff.mpr ⟨found, same, rfl⟩⟩

end ListReader

section Walk

variable {chunk : Nat} {list other : ListReader} {c d : Collector} {p q : Point}
  {tail : List UInt8}

theorem Lexeme.skipBlanks_openParen {after : Point} (tail : List UInt8)
    (found : next chunk p = .ok (some (.openParen, after))) :
    p.skipBlanks.rest.head? = some Octet.openParen ∧
      (p.extend tail).skipBlanks = p.skipBlanks.extend tail := by
  have opens := (start_of_here rfl found).1
  refine ⟨opens, Point.skipBlanks_extend ?_⟩
  intro none
  simp [none] at opens

theorem Step.extend (bounded : Bounded tail) (extended : ListReader.Extended tail list other)
    (step : Step chunk list c p d q) :
    Step chunk other c (p.extend tail) d (q.extend tail) := by
  cases step with
  | piece found => exact .piece (Lexeme.next_extend bounded found)
  | list found read =>
    obtain ⟨opens, blanks⟩ := Lexeme.skipBlanks_openParen tail found
    refine .list (Lexeme.next_extend bounded found) ?_
    rw [blanks]
    exact extended opens read

theorem Walk.extend (bounded : Bounded tail) (extended : ListReader.Extended tail list other)
    (walk : Walk chunk list c p d q) :
    Walk chunk other c (p.extend tail) d (q.extend tail) :=
  walk.map (Point.extend tail) fun step => step.extend bounded extended

theorem Step.of_extend (consuming : list.Consuming)
    (retracted : ListReader.Retracted tail list other)
    (step : Step chunk list c (p.extend tail) d q) (enough : tail.length ≤ q.rest.length) :
    ∃ before, q = before.extend tail ∧ Step chunk other c p d before := by
  cases step with
  | piece found =>
    obtain ⟨before, rfl, same⟩ := Lexeme.next_of_extend found enough
    exact ⟨before, rfl, .piece same⟩
  | @list start _ value found read =>
    have shorter := consuming read
    obtain ⟨first, rfl⟩ := Lexeme.start_of_here rfl found
    obtain ⟨more, opening⟩ := List.head?_eq_some_iff.mp first
    have left : tail.length ≤ ((p.extend tail).skipBlanks.skip 1).rest.length := by
      rw [opening, List.length_cons] at shorter
      rw [Point.rest_skip_one opening]
      omega
    obtain ⟨_, -, same⟩ := Lexeme.next_of_extend found left
    obtain ⟨opens, blanks⟩ := Lexeme.skipBlanks_openParen tail same
    rw [blanks] at read
    obtain ⟨before, rfl, list⟩ := retracted opens read enough
    exact ⟨before, rfl, .list same list⟩

theorem Walk.of_extend (consuming : list.Consuming) (advancing : list.Advancing)
    (retracted : ListReader.Retracted tail list other) {r : Point}
    (walk : Walk chunk list c r d q) (here : r = p.extend tail)
    (enough : tail.length ≤ q.rest.length) :
    ∃ before, q = before.extend tail ∧ Walk chunk other c p d before := by
  induction walk generalizing p with
  | here => exact ⟨p, here, .here⟩
  | step step walk ih =>
    subst here
    have onward := (walk.reaches advancing).suffix.length_le
    obtain ⟨between, rfl, first⟩ := step.of_extend consuming retracted (by omega)
    obtain ⟨before, rfl, rest⟩ := ih rfl enough
    exact ⟨before, rfl, .step first rest⟩

end Walk

theorem Point.one_le_of_opens {p : Point} {b : UInt8} (opens : p.rest.head? = some b) :
    1 ≤ p.rest.length := by
  obtain ⟨tail, start⟩ := List.head?_eq_some_iff.mp opens
  simp [start]

theorem VerbatimList.read_extend {chunk : Nat} {p after : Point} {items : List Value}
    {tail : List UInt8} (bounded : Bounded tail) (opens : p.rest.head? = some openParen)
    (found : read chunk p = .ok (items, after)) :
    read chunk (p.extend tail) = .ok (items, after.extend tail) := by
  have kept : ListReader.Extended tail (.kept p) (.kept (p.extend tail)) :=
    ListReader.extended_form fun _ inside => inner_extend tail _ inside
  obtain ⟨d, q, walk, closing, rfl⟩ := (loop_readItems chunk p).eq_ok_iff.mp found
  rw [read, Point.skip_extend (Point.one_le_of_opens opens)]
  exact (loop_readItems chunk _).eq_ok_iff.mpr
    ⟨d, q.extend tail, walk.extend bounded kept, Lexeme.next_extend bounded closing, rfl⟩

namespace RecursiveList

variable {s : Settings} {tail : List UInt8}

theorem read_extend (bounded : Bounded tail) {room : Nat} {p after : Point}
    {items : List Value} (opens : p.rest.head? = some openParen)
    (found : read s room p = .ok (items, after)) :
    read s room (p.extend tail) = .ok (items, after.extend tail) := by
  induction room generalizing p after items with
  | zero => contradiction
  | succ room ih =>
    have nested : ListReader.Extended tail (.nested s room) (.nested s room) :=
      ListReader.extended_form ih
    obtain ⟨d, q, walk, closing, rfl⟩ := (loop_readItems s room p).eq_ok_iff.mp found
    rw [read, Point.skip_extend (Point.one_le_of_opens opens)]
    exact (loop_readItems s room _).eq_ok_iff.mpr
      ⟨d, q.extend tail, walk.extend bounded nested, Lexeme.next_extend bounded closing, rfl⟩

theorem read_of_extend {room : Nat} {p after : Point} {items : List Value}
    (opens : p.rest.head? = some openParen)
    (found : read s room (p.extend tail) = .ok (items, after))
    (enough : tail.length ≤ after.rest.length) :
    ∃ before, after = before.extend tail ∧ read s room p = .ok (items, before) := by
  induction room generalizing p after items with
  | zero => contradiction
  | succ room ih =>
    have nested : ListReader.Retracted tail (.nested s room) (.nested s room) :=
      ListReader.retracted_form ih
    rw [read, Point.skip_extend (Point.one_le_of_opens opens)] at found
    obtain ⟨d, q, walk, closing, rfl⟩ := (loop_readItems s room _).eq_ok_iff.mp found
    have shorter := Lexeme.next_shorter closing
    obtain ⟨stop, rfl, within⟩ := walk.of_extend (loop_readItems s room p).consuming
      (advancing_nested s room) nested rfl (by omega)
    obtain ⟨before, rfl, close⟩ := Lexeme.next_of_extend closing enough
    exact ⟨before, rfl, (loop_readItems s room p).eq_ok_iff.mpr ⟨d, stop, within, close, rfl⟩⟩

end RecursiveList

theorem Line.outermost_extend {s : Settings} {tail : List UInt8} (bounded : Bounded tail) :
    ListReader.Extended tail (.outermost s) (.outermost s) := by
  refine ListReader.extended_form fun opens found => ?_
  unfold readList at found ⊢
  split at found
  · exact VerbatimList.read_extend bounded opens found
  · exact RecursiveList.read_extend bounded opens found

end ImapReply
