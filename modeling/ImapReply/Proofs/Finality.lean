import ImapReply.Proofs.Continuation
import Mathlib.Control.Monad.Basic

/-! Faults that no more octets can mend. A parenthesis that closes nothing or opens one list too
many is at fault whatever comes behind the line, and so is a header with an octet in it that does
not belong there. A plus sign does not count as such: the closing brace may be yet to come. -/
namespace ImapReply

open Octet Octets

/-- No octets behind the line can mend the fault. -/
def Fault.Final (octets : List UInt8) : Fault → Prop
  | .unexpected _ _ | .nestingTooDeep _ _ => True
  | .invalidHeader position _ => ∃ b, octets[position]? = some b ∧ b ≠ plus
  | .unterminatedQuoted _ | .unterminatedList _ | .truncatedLiteral _ _ _ | .invalidText _
  | .lineTooLong _ _ => False

variable {tail : List UInt8} {p : Point} {fault : Fault}

theorem Point.offset_extend (tail : List UInt8) (p : Point) : (p.extend tail).offset = p.offset :=
  rfl

namespace Literal

/-- Only what belongs to a header can still be followed by more of it. -/
theorem header_fault_extend (opens : p.rest.head? = some openBrace)
    (failed : header p = .error fault) (final : fault.Final p.line) :
    header (p.extend tail) = .error fault := by
  obtain ⟨body, start⟩ := List.head?_eq_some_iff.mp opens
  have rest : (p.extend tail).rest.drop 1 = body ++ tail := by
    rw [Point.rest_extend, start]
    rfl
  simp only [header, start, List.drop_one, List.tail_cons] at failed
  simp only [header, rest]
  have cut : body.takeWhile isDigit ++ body.drop (body.takeWhile isDigit).length = body :=
    List.prefix_iff_eq_append.mp (List.takeWhile_prefix isDigit)
  have run (more : body.drop (body.takeWhile isDigit).length ≠ []) :
      (body ++ tail).takeWhile isDigit = body.takeWhile isDigit := by
    rw [List.takeWhile_append, if_neg]
    intro whole
    exact more (by rw [whole, List.drop_length])
  have short : (body.takeWhile isDigit).length ≤ body.length :=
    (List.takeWhile_prefix isDigit).length_le
  -- The octet behind the digits, which the fault names unless the header is closed.
  have named : p.line[p.offset + 1 + (body.takeWhile isDigit).length]? =
      (body.drop (body.takeWhile isDigit).length).head? := by
    rw [Nat.add_assoc, Point.getElem?_line, start, Nat.add_comm 1, List.getElem?_cons_succ,
      List.head?_drop]
  split at failed
  next left =>
    obtain rfl := Except.error.inj failed
    obtain ⟨b, here, -⟩ := final
    rw [named, left] at here
    contradiction
  next b after left =>
    rw [run (by simp [left]), List.drop_append_of_le_length short, left, List.cons_append]
    dsimp only
    split at failed
    next closing =>
      rw [if_pos closing]
      exact failed
    next unclosed =>
      rw [if_neg unclosed]
      split at failed
      next signing =>
        have signed : b = plus ∧ (after ++ tail).head? = some closeBrace := by
          simp [signing.1, signing.2, List.head?_append]
        rw [if_pos signed]
        exact failed
      next =>
        obtain rfl := Except.error.inj failed
        obtain ⟨c, here, notPlus⟩ := final
        rw [named, left] at here
        obtain rfl : b = c := Option.some.inj here
        rw [if_neg fun signed => notPlus signed.1]
        rfl

theorem announced_fault_extend (opens : p.rest.head? = some openBrace)
    (failed : announced p = .error fault) (final : fault.Final p.line) :
    announced (p.extend tail) = .error fault := by
  unfold announced at failed ⊢
  split at failed
  next other unread =>
    obtain rfl := Except.error.inj failed
    rw [header_fault_extend opens unread final]
  next h found =>
    dsimp only at failed
    split at failed
    · obtain rfl := Except.error.inj failed
      contradiction
    · contradiction

theorem read_fault_extend {chunk : Nat} (opens : p.rest.head? = some openBrace)
    (failed : read chunk p = .error fault) (final : fault.Final p.line) :
    read chunk (p.extend tail) = .error fault := by
  unfold read at failed ⊢
  split at failed
  next other unread =>
    obtain rfl := Except.error.inj failed
    rw [announced_fault_extend opens unread final]
  next h found =>
    dsimp only at failed
    split at failed
    · obtain rfl := Except.error.inj failed
      contradiction
    · contradiction

theorem extent_fault_extend (opens : p.rest.head? = some openBrace)
    (failed : extent p = .error fault) (final : fault.Final p.line) :
    extent (p.extend tail) = .error fault := by
  unfold extent at failed ⊢
  split at failed
  next other unread =>
    obtain rfl := Except.error.inj failed
    rw [announced_fault_extend opens unread final]
  · contradiction

theorem foreign_openBrace : Foreign openBrace := ⟨by decide, by decide⟩

theorem foreign_closeBrace : Foreign closeBrace := ⟨by decide, by decide⟩

theorem mem_of_opensHeader (recognized : opensHeader p = true) : closeBrace ∈ p.rest.drop 1 := by
  have closes (octets : List UInt8) (closed : closesHeader octets = true) :
      closeBrace ∈ octets := by
    rcases octets with _ | ⟨b, after⟩
    · contradiction
    · rcases of_decide_eq_true closed with rfl | ⟨-, first⟩
      · exact List.mem_cons_self
      · exact List.mem_cons_of_mem _ (List.mem_of_head? first)
  simp only [opensHeader, Bool.and_eq_true] at recognized
  exact List.mem_of_mem_drop (closes _ recognized.2)

end Literal

/-- No fault of a quoted string or of a word is final. -/
theorem Quoted.read_fault_mends (octets : List UInt8) (failed : read p = .error fault) :
    ¬ fault.Final octets := by
  unfold read at failed
  split at failed
  · obtain rfl := Except.error.inj failed
    exact id
  · split at failed
    · obtain rfl := Except.error.inj failed
      exact id
    · contradiction

theorem Lexeme.next_fault_extend (tail : List UInt8) {chunk : Nat}
    (failed : next chunk p = .error fault) (final : fault.Final p.line) :
    p.rest ≠ [] ∧ next chunk (p.extend tail) = .error fault := by
  rw [← p.line_skipBlanks] at final
  unfold next at failed ⊢
  cases start : p.skipBlanks.rest with
  | nil => simp [here, start] at failed
  | cons b later =>
    have more : p.skipBlanks.rest ≠ [] := by simp [start]
    have left : p.rest ≠ [] := by
      intro none
      exact more (List.suffix_nil.mp (none ▸ p.reaches_skipBlanks.suffix))
    refine ⟨left, ?_⟩
    rw [Point.skipBlanks_extend more]
    have first : p.skipBlanks.rest.head? = some b := by rw [start]; rfl
    simp only [here, start] at failed
    simp only [here, Point.rest_extend, start, List.cons_append]
    split at failed
    case h_5 =>
      exact absurd final (Quoted.read_fault_mends _ (asToken_eq_error_iff.mp failed))
    case h_6 kind =>
      obtain rfl := role_eq_openBrace_iff.mp kind
      exact asToken_eq_error_iff.mpr
        (Literal.read_fault_extend first (asToken_eq_error_iff.mp failed) final)
    case h_7 | h_8 =>
      have unread := asToken_eq_error_iff.mp failed
      unfold word at unread
      dsimp only at unread
      split at unread
      · obtain rfl := Except.error.inj unread
        contradiction
      · contradiction
    all_goals contradiction

namespace VerbatimList

theorem stride_fault_extend (tail : List UInt8) {b : UInt8} (start : p.rest.head? = some b)
    (failed : stride p b = .error fault) (final : fault.Final p.line) :
    b = openBrace ∧ stride (p.extend tail) b = .error fault := by
  unfold stride at failed
  split at failed
  next =>
    unfold Quoted.extent at failed
    split at failed
    · obtain rfl := Except.error.inj failed
      contradiction
    · contradiction
  next kind =>
    obtain rfl := role_eq_openBrace_iff.mp kind
    split at failed
    next recognized =>
      have still := Literal.opensHeader_extend tail Literal.foreign_closeBrace
        (Literal.mem_of_opensHeader recognized)
      refine ⟨rfl, ?_⟩
      simp only [stride, kind, still, recognized, ite_true]
      exact Literal.extent_fault_extend start failed final
    · contradiction
  · contradiction

/-- A header at fault is foreign to every header in front of it. -/
theorem closeAfter_fault_extend (tail : List UInt8) {depth passed : Nat}
    (failed : closeAfter depth passed p = .error fault) (final : fault.Final p.line) :
    openBrace ∈ p.rest ∧ closeAfter depth passed (p.extend tail) = .error fault := by
  fun_induction closeAfter depth passed p with
  | case1 => contradiction
  | case2 depth passed p b later start other unread =>
    obtain rfl := Except.error.inj failed
    have first : p.rest.head? = some b := by rw [start]; rfl
    obtain ⟨rfl, still⟩ := stride_fault_extend tail first unread final
    refine ⟨List.mem_of_head? first, ?_⟩
    rw [closeAfter_eq]
    simp only [Point.rest_extend, start, List.cons_append, still]
  | case3 => contradiction
  | case4 depth passed p b later start n taken deeper counted ih =>
    have first : p.rest.head? = some b := by rw [start]; rfl
    obtain ⟨ahead, onward⟩ := ih failed (by rwa [p.line_skip])
    have member := (Point.suffix_skip (stride_pos taken)).subset ahead
    refine ⟨List.mem_of_mem_drop member, ?_⟩
    rw [closeAfter_step (by rw [Point.rest_extend, start, List.cons_append])
      (stride_extend tail first Literal.foreign_openBrace member taken) counted,
      Point.skip_extend (stride_le first taken)]
    exact onward

end VerbatimList

/-- What was read is read again with more octets behind the line, and what was finally at fault is
at fault again. -/
def Lasts {α : Type} (tail octets : List UInt8) :
    Except Fault (α × Point) → Except Fault (α × Point) → Prop
  | .ok (found, after), other => other = .ok (found, after.extend tail)
  | .error fault, other => fault.Final octets → other = .error fault

namespace ListReader

/-- Every list is read to its end, so what comes behind the line does not matter to it. -/
def Lasting (tail : List UInt8) (list other : ListReader) : Prop :=
  ∀ p, p.rest.head? = some openParen → Lasts tail p.line (list p) (other (p.extend tail))

theorem lasting_form {α : Type} {value : α → Value} {read other : Point → Except Fault (α × Point)}
    (lasts : ∀ p, p.rest.head? = some openParen →
      Lasts tail p.line (read p) (other (p.extend tail))) :
    Lasting tail (fun p => form value (read p)) (fun p => form value (other p)) := by
  intro p opens
  have same := lasts p opens
  dsimp only
  cases found : read p with
  | error fault =>
    rw [found] at same
    exact fun final => form_eq_error_iff.mpr (same final)
  | ok result =>
    rw [found] at same
    exact form_eq_ok_iff.mpr ⟨_, same, rfl⟩

end ListReader

def Halt.extend (tail : List UInt8) : Halt → Halt
  | .finished => .finished
  | .closing after => .closing (after.extend tail)
  | .broken fault => .broken fault

/-- Only the end of the line is no longer one, and faults may be mended. -/
def Halt.Final (octets : List UInt8) : Halt → Prop
  | .finished => False
  | .closing _ => True
  | .broken fault => fault.Final octets

section Walk

variable {chunk : Nat} {list other : ListReader} {c d : Collector} {q : Point} {halt : Halt}
  (lasting : ListReader.Lasting tail list other)
include lasting

theorem Step.extend_onward (more : q.rest ≠ []) (step : Step chunk list c p d q) :
    Step chunk other c (p.extend tail) d (q.extend tail) := by
  cases step with
  | piece found => exact .piece (Lexeme.next_extend_of (fun none => absurd none more) found)
  | @list start _ value found read =>
    obtain ⟨opens, blanks⟩ := Lexeme.skipBlanks_openParen tail found
    have same := lasting p.skipBlanks opens
    rw [read] at same
    refine .list (Lexeme.next_extend_of (fun _ => trivial) found) ?_
    rw [blanks]
    exact same

/-- What stands in front of further octets is read as before. -/
theorem Walk.extend_onward (advancing : list.Advancing) (more : q.rest ≠ [])
    (walk : Walk chunk list c p d q) : Walk chunk other c (p.extend tail) d (q.extend tail) := by
  induction walk with
  | here => exact .here
  | step step later ih =>
    refine .step (step.extend_onward lasting fun none => more ?_) (ih more)
    exact List.suffix_nil.mp (none ▸ (later.reaches advancing).suffix)

theorem Halts.extend (halts : Halts chunk list p halt) (final : halt.Final p.line) :
    p.rest ≠ [] ∧ Halts chunk other (p.extend tail) (halt.extend tail) := by
  have filled (opens : p.skipBlanks.rest ≠ []) : p.rest ≠ [] := by
    intro none
    exact opens (List.suffix_nil.mp (none ▸ p.reaches_skipBlanks.suffix))
  cases halts with
  | finished => contradiction
  | closing found =>
    have closes := (Lexeme.start_of_here rfl found).1
    refine ⟨filled fun none => ?_, .closing (Lexeme.next_extend_of (fun _ => trivial) found)⟩
    simp [none] at closes
  | lexeme failed =>
    obtain ⟨more, still⟩ := Lexeme.next_fault_extend tail failed final
    exact ⟨more, .lexeme still⟩
  | list found failed =>
    obtain ⟨opens, blanks⟩ := Lexeme.skipBlanks_openParen tail found
    have same := lasting p.skipBlanks opens
    rw [failed, p.line_skipBlanks] at same
    refine ⟨filled fun none => ?_, ?_⟩
    · simp [none] at opens
    · refine .list (Lexeme.next_extend_of (fun _ => trivial) found) ?_
      rw [blanks]
      exact same final

variable {R : Type} {ending : Point → List Value → Halt → R} {run : Collector → Point → R}

/-- Where a walk comes to a final halt, it does so with more octets behind the line. -/
theorem Loop.extend (loop : Loop chunk other ending run) (advancing : list.Advancing)
    (walk : Walk chunk list c p d q) (halts : Halts chunk list q halt)
    (final : halt.Final p.line) :
    run c (p.extend tail) = ending (q.extend tail) d.items (halt.extend tail) := by
  rw [← (walk.reaches advancing).line] at final
  obtain ⟨more, still⟩ := halts.extend lasting final
  exact loop.eq_of_walk (walk.extend_onward lasting advancing more) still

/-- A list is read to its end or is not read at all. -/
theorem Loop.lasts {opening : Point}
    {readItems readOn : Collector → Point → Except Fault (List Value × Point)}
    (loop : Loop chunk list (fun _ => endOfList opening) readItems)
    (loopOn : Loop chunk other (fun _ => endOfList (opening.extend tail)) readOn)
    (advancing : list.Advancing) (c : Collector) (p : Point) :
    Lasts tail p.line (readItems c p) (readOn c (p.extend tail)) := by
  obtain ⟨d, q, halt, walk, halts, same⟩ := loop.exists_walk c p
  rw [same]
  cases halt with
  | finished => exact fun final => absurd final id
  | closing after => exact loopOn.extend lasting advancing walk halts trivial
  | broken fault => exact fun final => loopOn.extend lasting advancing walk halts final

end Walk

theorem VerbatimList.lasting_kept (tail : List UInt8) (opening : Point) :
    ListReader.Lasting tail (.kept opening) (.kept (opening.extend tail)) := by
  refine ListReader.lasting_form fun p opens => ?_
  cases found : inner opening p with
  | ok result => exact inner_extend tail _ found
  | error fault =>
    intro final
    unfold inner at found
    split at found
    next other unread =>
      obtain rfl := Except.error.inj found
      rw [← p.line_skip 1] at final
      have still := (closeAfter_fault_extend tail unread final).2
      unfold inner
      rw [Point.skip_extend (Point.one_le_of_opens opens), still]
    · obtain rfl := Except.error.inj found
      contradiction
    · split at found
      · obtain rfl := Except.error.inj found
        contradiction
      · contradiction

theorem VerbatimList.read_lasts {chunk : Nat} (opens : p.rest.head? = some openParen) :
    Lasts tail p.line (read chunk p) (read chunk (p.extend tail)) := by
  rw [read, read, Point.skip_extend (Point.one_le_of_opens opens), ← p.line_skip 1]
  exact (loop_readItems chunk p).lasts (lasting_kept tail p) (loop_readItems chunk _)
    (advancing_kept p) _ _

theorem RecursiveList.read_lasts (s : Settings) (room : Nat)
    (opens : p.rest.head? = some openParen) :
    Lasts tail p.line (read s room p) (read s room (p.extend tail)) := by
  induction room generalizing p with
  | zero => exact fun _ => rfl
  | succ room ih =>
    have nested : ListReader.Lasting tail (.nested s room) (.nested s room) :=
      ListReader.lasting_form fun _ => ih
    rw [read, read, Point.skip_extend (Point.one_le_of_opens opens), ← p.line_skip 1]
    exact (loop_readItems s room p).lasts nested (loop_readItems s room _)
      (advancing_nested s room) _ _

theorem Line.lasting_outermost (s : Settings) (tail : List UInt8) :
    ListReader.Lasting tail (.outermost s) (.outermost s) := by
  refine ListReader.lasting_form fun p opens => ?_
  unfold readList
  split
  · exact VerbatimList.read_lasts opens
  · exact RecursiveList.read_lasts s s.maxDepth opens

/-- Whatever is put behind the line, a final fault stays the fault of the line. -/
theorem decode_fault_final {s : Settings} (unlimited : s.maxLineLength = none)
    {line : List UInt8} {fault : Fault} (failed : decode s line = .error fault)
    (final : fault.Final line) (suffix : List UInt8) :
    decode s (line ++ suffix) = .error fault := by
  rw [decode_eq_readValues unlimited] at failed ⊢
  have loop := Line.loop_readValues s
  have lasting := Line.lasting_outermost s suffix
  obtain ⟨d, q, halt, walk, halts, same⟩ := loop.exists_walk { mapsNil := true } (.start line)
  rw [same] at failed
  cases halt with
  | finished => contradiction
  | broken other =>
    obtain rfl := Except.error.inj failed
    exact loop.extend lasting (Line.advancing_outermost s) walk halts final
  | closing after =>
    obtain rfl := Except.error.inj failed
    refine (loop.extend lasting (Line.advancing_outermost s) walk halts trivial).trans ?_
    have found : q.skipBlanks.rest ≠ [] := by
      cases halts with
      | closing found =>
        have closes := (Lexeme.start_of_here rfl found).1
        intro none
        simp [none] at closes
    simp only [endOfLine, Halt.extend, Point.skipBlanks_extend found, Point.offset_extend]

/-- A second parenthesis closes nothing, a third is one too many, and a letter stands in a header. A
plus sign at the end of the line is no such fault: a brace and a payload can mend it. -/
theorem decode_fault_final_sample :
    decode ⟨8, .verbatim, none, 1⟩ (ofText "((\x7b1\x7d)))) (" ++ ofText "a \x7b9\x7d") =
      .error (.unexpected 8 ')') ∧
    decode ⟨8, .recursive, none, 2⟩ (ofText "(a (b (\x7b" ++ ofText ")))") =
      .error (.nestingTooDeep 6 2) ∧
    decode ⟨8, .verbatim, none, 1⟩ (ofText "a \x7b1x" ++ ofText "\x7d") =
      .error (.invalidHeader 4 "non-numeric literal length") ∧
    ¬ (Fault.invalidHeader 4 "non-numeric literal length").Final (ofText "a \x7b1+") ∧
    decode ⟨8, .verbatim, none, 1⟩ (ofText "a \x7b1+" ++ ofText "\x7db") =
      .ok [.ofText "a", .ofText "b"] := by
  have stray : decode ⟨8, .verbatim, none, 1⟩ (ofText "((\x7b1\x7d)))) (") =
      .error (.unexpected 8 ')') := by
    decide +kernel
  have deep : decode ⟨8, .recursive, none, 2⟩ (ofText "(a (b (\x7b") =
      .error (.nestingTooDeep 6 2) := by
    decide +kernel
  refine ⟨?_, ?_, ?_, ?_, by decide +kernel⟩
  · exact decode_fault_final rfl stray trivial _
  · exact decode_fault_final rfl deep trivial _
  · refine decode_fault_final rfl (by decide +kernel) ?_ _
    exact ⟨0x78, by decide +kernel, by decide⟩
  · rintro ⟨b, here, notPlus⟩
    have sign : (ofText "a \x7b1+")[4]? = some plus := by decide +kernel
    rw [sign] at here
    exact notPlus (Option.some.inj here).symm

end ImapReply
