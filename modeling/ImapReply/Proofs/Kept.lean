import ImapReply.Proofs.Exchange

/-! A kept list that holds the literal whose payload is exchanged. The scan for its end looks behind
itself where a header may start, so just behind the payload it sees the last octet of that. -/
namespace ImapReply

open Octet Octets

/-- Number of parentheses open behind the octets, if `depth` are open in front of them. -/
def unclosed (depth : Nat) : List UInt8 → Nat
  | [] => depth
  | b :: later => unclosed ((VerbatimList.depthAfter depth b).getD 0) later

theorem unclosed_append (depth : Nat) (octets more : List UInt8) :
    unclosed depth (octets ++ more) = unclosed (unclosed depth octets) more := by
  induction octets generalizing depth with
  | nil => rfl
  | cons b octets ih => exact ih _

/-- Neither parenthesis is among the octets. -/
def Flat (octets : List UInt8) : Prop := ∀ b ∈ octets, b ≠ openParen ∧ b ≠ closeParen

namespace VerbatimList

theorem depthAfter_flat {b : UInt8} (notOpen : b ≠ openParen) (notClose : b ≠ closeParen)
    (depth : Nat) : depthAfter depth b = some depth := by
  unfold depthAfter
  split
  next kind => exact absurd (role_eq_openParen_iff.mp kind) notOpen
  next kind => exact absurd (role_eq_closeParen_iff.mp kind) notClose
  next kind => exact absurd (role_eq_closeParen_iff.mp kind) notClose
  next => rfl

/-- With more parentheses open around it, an octet does the same. -/
theorem depthAfter_below {depth deeper : Nat} {b : UInt8}
    (counted : depthAfter depth b = some deeper) (base : Nat) :
    depthAfter (base + 1 + depth) b = some (base + 1 + deeper) := by
  cases kind : role b with
  | openParen =>
    obtain rfl : depth + 1 = deeper := by simpa [depthAfter, kind] using counted
    simp only [depthAfter, kind, Nat.add_assoc]
  | closeParen =>
    cases depth with
    | zero => simp [depthAfter, kind] at counted
    | succ depth =>
      obtain rfl : depth = deeper := by simpa [depthAfter, kind] using counted
      rw [← Nat.add_assoc]
      simp only [depthAfter, kind]
  | _ =>
    obtain rfl : depth = deeper := by simpa [depthAfter, kind] using counted
    simp only [depthAfter, kind]

theorem depthAfter_closing {depth : Nat} {b : UInt8} (closes : depthAfter depth b = none)
    (base : Nat) : depthAfter (base + 1 + depth) b = some base := by
  obtain rfl := role_of_depthAfter closes
  have kind : role closeParen = .closeParen := role_eq_closeParen_iff.mpr rfl
  cases depth with
  | zero => simp only [depthAfter, kind, Nat.add_zero]
  | succ depth => simp [depthAfter, kind] at closes

theorem closeAfter_failed {depth passed : Nat} {p : Point} {b : UInt8} {tail : List UInt8}
    {fault : Fault} (start : p.rest = b :: tail) (failed : stride p b = .error fault) :
    closeAfter depth passed p = .error fault := by
  rw [closeAfter_eq]
  simp only [start, failed]

theorem stride_plain {b : UInt8} (notQuote : b ≠ quote) (notBrace : b ≠ openBrace) (p : Point) :
    stride p b = .ok 1 := by
  cases kind : role b with
  | quote => exact absurd (role_eq_quote_iff.mp kind) notQuote
  | openBrace => exact absurd (role_eq_openBrace_iff.mp kind) notBrace
  | _ => simp only [stride, kind]

/-- Among octets without strings a scan either finds the end of its list, whatever comes after them,
or comes out behind them with the list still open. -/
theorem closeAfter_plain {left : List UInt8} (unquoted : quote ∉ left) (unbraced : openBrace ∉ left)
    (depth : Nat) :
    (∃ k, k < left.length ∧ (∀ base, unclosed (base + 1 + depth) (left.take (k + 1)) = base) ∧
      ∀ passed read tail,
        closeAfter depth passed ⟨read, left ++ tail⟩ = .ok (some (passed + (k + 1)))) ∨
    ∃ deeper, (∀ base, unclosed (base + 1 + depth) left = base + 1 + deeper) ∧
      ∀ passed read tail, closeAfter depth passed ⟨read, left ++ tail⟩ =
        closeAfter deeper (passed + left.length) ⟨left.reverse ++ read, tail⟩ := by
  induction left generalizing depth with
  | nil => exact .inr ⟨depth, fun _ => rfl, fun _ _ _ => rfl⟩
  | cons b left ih =>
    have taken := stride_plain (b := b) (by rintro rfl; simp at unquoted)
      (by rintro rfl; simp at unbraced)
    cases counted : depthAfter depth b with
    | none =>
      refine .inl ⟨0, Nat.zero_lt_succ _, fun base => ?_, fun passed read tail => ?_⟩
      · simp only [List.take_succ_cons, List.take_zero, unclosed, depthAfter_closing counted,
          Option.getD_some]
      · rw [closeAfter_eq]
        simp only [List.cons_append, taken, counted]
    | some deeper =>
      have onward (passed : Nat) (read tail : List UInt8) :
          closeAfter depth passed ⟨read, b :: left ++ tail⟩ =
            closeAfter deeper (passed + 1) ⟨b :: read, left ++ tail⟩ :=
        closeAfter_step rfl (taken _) counted
      have level (base : Nat) (octets : List UInt8) :
          unclosed (base + 1 + depth) (b :: octets) = unclosed (base + 1 + deeper) octets := by
        rw [unclosed, depthAfter_below counted, Option.getD_some]
      simp only [List.mem_cons, not_or] at unquoted unbraced
      rcases ih unquoted.2 unbraced.2 deeper with ⟨k, within, closed, ends⟩ | ⟨last, opened, passes⟩
      · refine .inl ⟨k + 1, Nat.succ_lt_succ within, fun base => ?_, fun passed read tail => ?_⟩
        · rw [List.take_succ_cons, level, closed]
        · rw [onward, ends]
          congr 2
          omega
      · refine .inr ⟨last, fun base => ?_, fun passed read tail => ?_⟩
        · rw [level, opened]
        · rw [onward, passes, List.length_cons, List.reverse_cons, List.append_assoc]
          congr 1
          omega

theorem unclosed_flat {octets : List UInt8} (flat : Flat octets) (depth : Nat) :
    unclosed depth octets = depth := by
  induction octets with
  | nil => rfl
  | cons b octets ih =>
    obtain ⟨notOpen, notClose⟩ := flat b List.mem_cons_self
    rw [unclosed, depthAfter_flat notOpen notClose, Option.getD_some]
    exact ih fun c member => flat c (List.mem_cons_of_mem b member)

/-- A kept list without strings leaves no parenthesis open and closes none in front of it. -/
theorem unclosed_of_closeAfter {read inside tail : List UInt8} (unquoted : quote ∉ inside)
    (unbraced : openBrace ∉ inside)
    (closed : closeAfter 0 1 ⟨openParen :: read, inside ++ tail⟩ = .ok (some (1 + inside.length)))
    (base : Nat) : unclosed (base + 1) (openParen :: inside) = base + 1 := by
  have kind : role openParen = .openParen := role_eq_openParen_iff.mpr rfl
  rw [unclosed]
  simp only [depthAfter, kind, Option.getD_some]
  rcases closeAfter_plain unquoted unbraced 0 with
    ⟨k, within, level, closes⟩ | ⟨deeper, -, passes⟩
  · rw [closes] at closed
    have whole : k + 1 = inside.length :=
      Nat.add_left_cancel (Option.some.inj (Except.ok.inj closed))
    rw [whole, List.take_length] at level
    exact level (base + 1)
  · rw [passes] at closed
    exact absurd (closeAfter_pos closed) (Nat.lt_irrefl _)

end VerbatimList

theorem Lexeme.Spelled.flat {octets : List UInt8} {piece : Piece}
    (spelled : (Lexeme.piece piece).Spelled octets) (unquoted : quote ∉ octets)
    (unbraced : openBrace ∉ octets) : Flat octets := by
  intro b member
  cases spelled with
  | @single _ c single =>
    obtain rfl := List.mem_singleton.mp member
    cases piece with
    | openBracket | closeBracket => exact Option.some.inj single ▸ by decide
    | token => contradiction
  | token spelled =>
    cases spelled with
    | bare word =>
      have inWord := word.undelimited b member
      constructor
      · rintro rfl
        revert inWord
        decide
      · rintro rfl
        revert inWord
        decide
    | quoted => simp at unquoted
    | literal => simp [Literal.headerOctets] at unbraced

/-- As far as parentheses outside of strings can tell, a list is open at the point. -/
def Inside (p : Point) : Prop :=
  quote ∉ p.read → openBrace ∉ p.read → 1 ≤ unclosed 0 p.read.reverse

namespace Inside

variable {p q : Point}

theorem skip_run (inside : Inside p) {run tail : List UInt8} (start : p.rest = run ++ tail)
    (level : quote ∉ run → openBrace ∉ run → ∀ base, unclosed (base + 1) run = base + 1) :
    Inside (p.skip run.length) := by
  intro unquoted unbraced
  have read : (p.skip run.length).read = run.reverse ++ p.read := by
    rw [Point.skip, start, List.take_left]
  rw [read] at unquoted unbraced ⊢
  simp only [List.mem_append, List.mem_reverse, not_or] at unquoted unbraced
  have before := inside unquoted.2 unbraced.2
  obtain ⟨base, same⟩ : ∃ base, unclosed 0 p.read.reverse = base + 1 :=
    ⟨_, (Nat.sub_add_cancel before).symm⟩
  rw [List.reverse_append, List.reverse_reverse, unclosed_append, same,
    level unquoted.1 unbraced.1]
  exact Nat.le_add_left 1 base

theorem skipBlanks (inside : Inside p) : Inside p.skipBlanks := by
  apply inside.skip_run List.takeWhile_append_dropWhile.symm
  intro _ _ base
  apply VerbatimList.unclosed_flat
  intro b member
  have blank : isBlank b = true := List.all_eq_true.mp List.all_takeWhile b member
  constructor <;> (rintro rfl; revert blank; decide)

/-- Just behind the parenthesis of a list the list is open. -/
theorem enter {tail : List UInt8} (start : p.rest = openParen :: tail) :
    Inside (p.skip 1) := by
  intro _ _
  have kind : role openParen = .openParen := role_eq_openParen_iff.mpr rfl
  have read : (p.skip 1).read = openParen :: p.read := by
    simp [Point.skip, start]
  rw [read, List.reverse_cons, unclosed_append, unclosed, unclosed]
  simp only [VerbatimList.depthAfter, kind, Option.getD_some]
  exact Nat.le_add_left 1 _

theorem step {chunk : Nat} {opening : Point} {c d : Collector}
    (step : Step chunk (.kept opening) c p d q) (inside : Inside p) : Inside q := by
  have there := inside.skipBlanks
  cases step with
  | piece found =>
    obtain ⟨octets, tail, start, spelled, -, rfl⟩ := Lexeme.next_eq_some_iff.mp found
    exact there.skip_run start fun unquoted unbraced base =>
      VerbatimList.unclosed_flat (spelled.flat unquoted unbraced) _
  | list found kept =>
    obtain ⟨text, inner, -⟩ := ListReader.form_eq_ok_iff.mp kept
    obtain ⟨n, closed, -, rfl⟩ := VerbatimList.inner_eq_ok_iff.mp inner
    obtain ⟨tail, start⟩ := List.head?_eq_some_iff.mp (Lexeme.start_of_here rfl found).1
    generalize p.skipBlanks = p at there closed start ⊢
    obtain ⟨body, later, rest, rfl⟩ := VerbatimList.closeAfter_eq_some closed
    rw [Point.rest_skip_one start] at rest
    have list : tail = body ++ [closeParen] ++ later := by
      rw [rest, List.append_assoc]
      rfl
    have entered : p.skip 1 = ⟨openParen :: p.read, body ++ [closeParen] ++ later⟩ := by
      simp [Point.skip, start, list]
    have whole : p.rest = openParen :: (body ++ [closeParen]) ++ later := by
      rw [start, list]
      rfl
    have length : 1 + body.length + 1 = 1 + (body ++ [closeParen]).length := by
      rw [List.length_append, List.length_singleton, Nat.add_assoc]
    rw [entered, length] at closed
    have onward := there.skip_run whole fun unquoted unbraced base => by
      simp only [List.mem_cons, not_or] at unquoted unbraced
      exact VerbatimList.unclosed_of_closeAfter unquoted.2 unbraced.2 closed base
    rwa [List.length_cons, Nat.add_comm, ← length] at onward

end Inside

namespace Exchange

variable {e : Exchange} {p q : Point}

/-- Just behind a payload a scan sees its last octet, if it has one. -/
theorem opensHeader_literal (hidden : e.Hidden) (read : List UInt8) :
    Literal.opensHeader (Point.skip e.extent ⟨read, e.octets e.x⟩) =
      Literal.opensHeader (Point.skip e.extent ⟨read, e.octets e.y⟩) := by
  rw [e.suits_x.skip, e.suits_y.skip]
  have nearest {payload : String} (some : ofText payload ≠ []) (more : List UInt8) :
      Literal.opensHeader ⟨(ofText payload).reverse ++ more, e.later⟩ =
        Literal.opensHeader ⟨(ofText payload).reverse, e.later⟩ := by
    obtain ⟨b, reversed, same⟩ := List.exists_cons_of_ne_nil (mt List.reverse_eq_nil_iff.mp some)
    rw [same]
    rfl
  by_cases empty : ofText e.x = []
  · have none : ofText e.y = [] := List.length_eq_zero_iff.mp (by rw [← e.even, empty]; rfl)
    rw [empty, none]
  · have some : ofText e.y ≠ [] := by
      intro none
      exact empty (List.length_eq_zero_iff.mp (by rw [e.even, none]; rfl))
    rw [nearest empty, nearest some]
    exact hidden

/-- Further on both see the same octets behind themselves. -/
theorem opensHeader_onward (rest : p.rest = q.rest) {b : UInt8} {tail : List UInt8}
    (start : p.rest = b :: tail) (n : Nat) :
    Literal.opensHeader (p.skip (n + 1)) = Literal.opensHeader (q.skip (n + 1)) := by
  have begun : q.rest = b :: tail := rest ▸ start
  have behind : (p.skip (n + 1)).behind = (q.skip (n + 1)).behind := by
    simp [Point.behind, Point.skip, start, begun]
  simp only [Literal.opensHeader, Literal.startsToken, behind, Point.rest_skip, rest]

theorem opensHeader_skip (rest : p.rest = q.rest)
    (view : Literal.opensHeader p = Literal.opensHeader q) (n : Nat) :
    Literal.opensHeader (p.skip n) = Literal.opensHeader (q.skip n) := by
  cases start : p.rest with
  | nil =>
    have finished : q.rest = [] := rest ▸ start
    simp [Literal.opensHeader, start, finished]
  | cons b tail =>
    cases n with
    | zero => simpa [Point.skip] using view
    | succ n => exact opensHeader_onward rest start n

/-- Places behind the literal that see the same behind themselves are the same to a scan. -/
theorem closeAfter_past (rest : p.rest = q.rest) (offset : p.offset = q.offset)
    (view : Literal.opensHeader p = Literal.opensHeader q) (depth passed : Nat) :
    VerbatimList.closeAfter depth passed p = VerbatimList.closeAfter depth passed q := by
  have strides {p q : Point} (rest : p.rest = q.rest) (offset : p.offset = q.offset)
      (view : Literal.opensHeader p = Literal.opensHeader q) (b : UInt8) :
      VerbatimList.stride p b = VerbatimList.stride q b := by
    simp only [VerbatimList.stride, view, Quoted.extent, Literal.extent, Literal.announced,
      Literal.header, Literal.Header.ofDigits, Point.rest_skip, Point.offset_skip, rest, offset]
  fun_induction VerbatimList.closeAfter depth passed p generalizing q with
  | case1 depth passed p finished =>
    rw [VerbatimList.closeAfter_eq]
    simp only [← rest, finished]
  | case2 depth passed p b tail start fault failed =>
    exact (VerbatimList.closeAfter_failed (rest ▸ start) (strides rest offset view b ▸ failed)).symm
  | case3 depth passed p b tail start n taken closes =>
    rw [VerbatimList.closeAfter_eq]
    simp only [← rest, start, ← strides rest offset view, taken, closes]
  | case4 depth passed p b tail start n taken deeper counted ih =>
    rw [VerbatimList.closeAfter_step (rest ▸ start) (strides rest offset view b ▸ taken) counted]
    apply ih
    · rw [Point.rest_skip, Point.rest_skip, rest]
    · rw [Point.offset_skip, Point.offset_skip, offset, rest]
    · exact opensHeader_skip rest view n

/-- A scan that comes to the literal goes on behind it as if nothing had been exchanged. -/
theorem closeAfter_literal (hidden : e.Hidden) {read : List UInt8} (whole : read.reverse = e.front)
    (depth passed : Nat) :
    VerbatimList.closeAfter depth passed ⟨read, e.octets e.x⟩ =
        VerbatimList.closeAfter depth passed ⟨read, e.octets e.y⟩ ∧
      ∀ {n}, VerbatimList.closeAfter depth passed ⟨read, e.octets e.x⟩ = .ok (some n) →
        ∃ k, n = passed + (e.extent + k) := by
  have kind : role openBrace = .openBrace := role_eq_openBrace_iff.mpr rfl
  have header (payload : String) : (Point.mk read (e.octets payload)).rest =
      Literal.headerOctets e.digits e.signed ++ (ofText payload ++ e.later) :=
    List.append_assoc ..
  have opens (payload : String) : Literal.opensHeader ⟨read, e.octets payload⟩ = true := by
    have announcing := e.announcing
    rw [← whole, List.getLast?_reverse] at announcing
    exact Literal.opensHeader_headerOctets (header payload) e.numeral
      (Announcing.startsToken announcing)
  by_cases fits : Literal.lengthOf e.digits ≤ Literal.maxLength
  · have passes {payload : String} (suits : e.Suits payload) :
        VerbatimList.closeAfter depth passed ⟨read, e.octets payload⟩ =
          VerbatimList.closeAfter depth (passed + e.extent)
            (Point.skip e.extent ⟨read, e.octets payload⟩) := by
      apply VerbatimList.closeAfter_step (header payload)
      · simp only [VerbatimList.stride, kind, opens, if_true]
        rw [Literal.extent_literal rfl e.numeral suits (suits ▸ fits), suits.extent]
      · simp only [VerbatimList.depthAfter, kind]
    have twin := e.skip_literal read 0
    rw [passes e.suits_x, passes e.suits_y]
    constructor
    · apply closeAfter_past
      · rw [e.suits_x.skip, e.suits_y.skip]
      · exact twin.offset_eq
      · exact opensHeader_literal hidden read
    · intro n closed
      have further := VerbatimList.closeAfter_pos closed
      exact ⟨n - passed - e.extent, by omega⟩
  · have broken (payload : String) : VerbatimList.closeAfter depth passed ⟨read, e.octets payload⟩ =
        .error (.invalidHeader (read.length + ((Literal.headerOctets e.digits e.signed).length - 1))
          Literal.Flaw.outOfRange.reason) := by
      have large := Literal.header_large (header payload) e.numeral (Nat.lt_of_not_le fits)
      apply VerbatimList.closeAfter_failed (header payload)
      simp only [VerbatimList.stride, kind, opens, if_true, Literal.extent, Literal.announced,
        large]
      rfl
    rw [broken, broken]
    refine ⟨rfl, fun closed => ?_⟩
    contradiction

theorem inner_agrees_of {opening again : Point} (same : opening.offset = again.offset)
    (twin : e.Twin p q)
    (scans : VerbatimList.closeAfter 0 1 (p.skip 1) = VerbatimList.closeAfter 0 1 (q.skip 1))
    (ends : ∀ {n}, VerbatimList.closeAfter 0 1 (p.skip 1) = .ok (some n) →
      (IsText (p.rest.take n) ↔ IsText (q.rest.take n)) ∧ e.Twin (p.skip n) (q.skip n)) :
    Agrees (fun one other => e.Twin one.2 other.2)
      (VerbatimList.inner opening p) (VerbatimList.inner again q) := by
  unfold VerbatimList.inner
  rw [← scans]
  cases scan : VerbatimList.closeAfter 0 1 (p.skip 1) with
  | error fault => rfl
  | ok found =>
    cases found with
    | none => exact congrArg (fun n => Except.error (Fault.unterminatedList n)) same.symm
    | some n =>
      obtain ⟨texts, onward⟩ := ends scan
      dsimp only
      cases isText : text? (p.rest.take n) with
      | none =>
        have unread : text? (q.rest.take n) = none := by
          rw [Option.eq_none_iff_forall_ne_some]
          intro text again
          obtain ⟨_, read⟩ := isText_iff.mp (texts.mpr (isText_iff.mpr ⟨text, again⟩))
          rw [isText] at read
          contradiction
        rw [unread]
        exact congrArg (fun n => Except.error (Fault.invalidText n)) twin.offset_eq.symm
      | some text =>
        obtain ⟨_, again⟩ := isText_iff.mp (texts.mp (isText_iff.mpr ⟨text, isText⟩))
        rw [again]
        exact ⟨_, rfl, onward⟩

theorem isText_exchange_iff (e : Exchange) (front later : List UInt8) :
    IsText (front ++ (Literal.headerOctets e.digits e.signed ++ ofText e.x ++ later)) ↔
      IsText (front ++ (Literal.headerOctets e.digits e.signed ++ ofText e.y ++ later)) := by
  have ascii := Literal.ascii_headerOctets e.numeral e.signed
  exact ⟨fun whole => whole.exchange e.y ascii, fun whole => whole.exchange e.x ascii⟩

/-- A kept list that ends before the literal is the same in both lines. -/
theorem inner_agrees_before {read inside : List UInt8}
    (whole : read.reverse ++ openParen :: inside = e.front) {k : Nat} (within : k < inside.length)
    (closes : ∀ tail, VerbatimList.closeAfter 0 1 ⟨openParen :: read, inside ++ tail⟩ =
      .ok (some (1 + (k + 1))))
    {opening again : Point} (same : opening.offset = again.offset) :
    Agrees (fun one other => e.Twin one.2 other.2)
      (VerbatimList.inner opening ⟨read, openParen :: inside ++ e.octets e.x⟩)
      (VerbatimList.inner again ⟨read, openParen :: inside ++ e.octets e.y⟩) := by
  have twin : e.Twin ⟨read, openParen :: inside ++ e.octets e.x⟩
      ⟨read, openParen :: inside ++ e.octets e.y⟩ := .ahead whole
  have scan (payload : String) : VerbatimList.closeAfter 0 1
      (Point.skip 1 ⟨read, openParen :: inside ++ e.octets payload⟩) =
        .ok (some (1 + (k + 1))) := closes _
  refine inner_agrees_of same twin ((scan e.x).trans (scan e.y).symm) fun closed => ?_
  rw [scan] at closed
  obtain rfl := Option.some.inj (Except.ok.inj closed)
  have short : 1 + (k + 1) ≤ (openParen :: inside).length := by
    rw [List.length_cons]
    omega
  have start : openParen :: inside ++ e.octets e.x =
      (openParen :: inside).take (1 + (k + 1)) ++
        ((openParen :: inside).drop (1 + (k + 1)) ++ e.octets e.x) := by
    rw [← List.append_assoc, List.take_append_drop]
  have unbraced : openBrace ∉ (openParen :: inside).take (1 + (k + 1)) := fun member =>
    e.unbraced (whole ▸ List.mem_append_right _ (List.mem_of_mem_take member))
  have onward := (twin.skip_run start unbraced).1
  rw [List.length_take_of_le short] at onward
  refine ⟨?_, onward⟩
  rw [List.take_append_of_le_length short, List.take_append_of_le_length short]

/-- A kept list that holds the literal ends in the same place of both lines, since the scan of it
goes through the literal. -/
theorem inner_agrees_around {read inside : List UInt8}
    (whole : read.reverse ++ openParen :: inside = e.front) (hidden : e.Hidden) {deeper : Nat}
    (passes : ∀ tail, VerbatimList.closeAfter 0 1 ⟨openParen :: read, inside ++ tail⟩ =
      VerbatimList.closeAfter deeper (1 + inside.length)
        ⟨inside.reverse ++ openParen :: read, tail⟩)
    {opening again : Point} (same : opening.offset = again.offset) :
    Agrees (fun one other => e.Twin one.2 other.2)
      (VerbatimList.inner opening ⟨read, openParen :: inside ++ e.octets e.x⟩)
      (VerbatimList.inner again ⟨read, openParen :: inside ++ e.octets e.y⟩) := by
  have scan (payload : String) : VerbatimList.closeAfter 0 1
      (Point.skip 1 ⟨read, openParen :: inside ++ e.octets payload⟩) =
        VerbatimList.closeAfter deeper (1 + inside.length)
          ⟨inside.reverse ++ openParen :: read, e.octets payload⟩ := passes _
  have arrived : (inside.reverse ++ openParen :: read).reverse = e.front := by
    simpa using whole
  obtain ⟨scans, ends⟩ := closeAfter_literal hidden arrived deeper (1 + inside.length)
  have both := (scan e.x).trans (scans.trans (scan e.y).symm)
  refine inner_agrees_of same (.ahead whole) both fun closed => ?_
  rw [scan] at closed
  obtain ⟨k, rfl⟩ := ends closed
  have length : 1 + inside.length + (e.extent + k) =
      (openParen :: inside).length + (e.extent + k) := by
    rw [List.length_cons, Nat.add_comm 1]
  have passed (payload : String) (n : Nat) :
      Point.skip ((openParen :: inside).length + n)
          ⟨read, openParen :: inside ++ e.octets payload⟩ =
        Point.skip n ⟨(openParen :: inside).reverse ++ read, e.octets payload⟩ := by
    rw [← Point.skip_skip]
    simp [Point.skip]
  have cut {payload : String} (suits : e.Suits payload) :
      (openParen :: inside ++ e.octets payload).take
          ((openParen :: inside).length + (e.extent + k)) =
        openParen :: inside ++ (Literal.headerOctets e.digits e.signed ++ ofText payload ++
          e.later.take k) := by
    rw [List.take_length_add_append, ← suits.extent, octets, List.take_length_add_append]
  rw [length]
  constructor
  · rw [cut e.suits_x, cut e.suits_y]
    exact e.isText_exchange_iff _ _
  · rw [passed, passed]
    exact e.skip_literal _ k

/-- A list in front of the literal is kept in both lines or in neither. -/
theorem inner_agrees_ahead {read inside : List UInt8}
    (whole : read.reverse ++ openParen :: inside = e.front)
    (hidden : unclosed 0 read.reverse + 1 ≤ unclosed 0 e.front → e.Hidden)
    {opening again : Point} (same : opening.offset = again.offset) :
    Agrees (fun one other => e.Twin one.2 other.2)
      (VerbatimList.inner opening ⟨read, openParen :: inside ++ e.octets e.x⟩)
      (VerbatimList.inner again ⟨read, openParen :: inside ++ e.octets e.y⟩) := by
  have unquoted : quote ∉ inside := fun member =>
    e.unquoted (whole ▸ List.mem_append_right _ (List.mem_cons_of_mem _ member))
  have unbraced : openBrace ∉ inside := fun member =>
    e.unbraced (whole ▸ List.mem_append_right _ (List.mem_cons_of_mem _ member))
  rcases VerbatimList.closeAfter_plain unquoted unbraced 0 with
    ⟨k, within, -, closes⟩ | ⟨deeper, opened, passes⟩
  · exact inner_agrees_before whole within (closes 1 _) same
  · have kind : role openParen = .openParen := role_eq_openParen_iff.mpr rfl
    have held : unclosed 0 read.reverse + 1 ≤ unclosed 0 e.front := by
      rw [← whole, unclosed_append, unclosed]
      simp only [VerbatimList.depthAfter, kind, Option.getD_some]
      exact opened (unclosed 0 read.reverse) ▸ Nat.le_add_right _ _
    exact inner_agrees_around whole (hidden held) (passes 1 _) same

/-- Behind the literal a kept list is the same in both lines, since the scan starts behind its
parenthesis. -/
theorem inner_agrees_past (rest : p.rest = q.rest) (offset : p.offset = q.offset)
    (suffix : p.rest <:+ e.later) {tail : List UInt8} (start : p.rest = openParen :: tail)
    {opening again : Point} (same : opening.offset = again.offset) :
    Agrees (fun one other => e.Twin one.2 other.2)
      (VerbatimList.inner opening p) (VerbatimList.inner again q) := by
  refine inner_agrees_of same (.past rest offset suffix) ?_ fun closed => ?_
  · apply closeAfter_past
    · rw [Point.rest_skip, Point.rest_skip, rest]
    · rw [Point.offset_skip, Point.offset_skip, offset, rest]
    · exact opensHeader_onward rest start 0
  · exact ⟨by rw [rest], .skip_past rest offset suffix _⟩

/-- A list inside another one is kept in both lines or in neither, unless it holds the literal and
the payloads can be told apart from behind. -/
theorem inner_agrees (hidden : 2 ≤ unclosed 0 e.front → e.Hidden) (twin : e.Twin p q)
    (inside : Inside p) (opens : p.rest.head? = some openParen) {opening again : Point}
    (same : opening.offset = again.offset) :
    Agrees (fun one other => e.Twin one.2 other.2)
      (VerbatimList.inner opening p) (VerbatimList.inner again q) := by
  cases twin with
  | past rest offset suffix =>
    obtain ⟨tail, start⟩ := List.head?_eq_some_iff.mp opens
    exact inner_agrees_past rest offset suffix start same
  | @ahead read left whole =>
    cases left with
    | nil => exact absurd (Option.some.inj opens) (by decide)
    | cons b left =>
      obtain rfl : b = openParen := Option.some.inj opens
      refine inner_agrees_ahead whole (fun held => hidden ?_) same
      have outer : 1 ≤ unclosed 0 read.reverse := inside
        (fun member => e.unquoted (whole ▸ List.mem_append_left _ (List.mem_reverse.mpr member)))
        (fun member => e.unbraced (whole ▸ List.mem_append_left _ (List.mem_reverse.mpr member)))
      omega

end Exchange

end ImapReply
