import ImapReply.Proofs.Continuation
import ImapReply.Proofs.Displacement

/-! A line put in parentheses is read as one list, and the list has the values of the line. The
loop over a line and the loop over a list take the same steps; they differ only in what they make
of a parenthesis that closes nothing. -/
namespace ImapReply

open Octet

namespace Collector

theorem length_newest_add_le (c : Collector) (piece : Piece) :
    c.newest.length ≤ (c.add piece).newest.length := by
  have joined (text : String) (fresh : Value) :
      c.newest.length ≤ (c.join text fresh).newest.length := by
    unfold join
    split
    next same => simp [same]
    · simp
  cases piece with
  | openBracket | closeBracket => exact joined _ _
  | token token =>
    rw [add]
    split
    · exact joined _ _
    · simp [push]

/-- Nothing is joined to a list. -/
theorem length_newest_add_list {c : Collector} {items : List Value} {older : List Value}
    (last : c.newest = .list items :: older) (piece : Piece) :
    (c.add piece).newest.length = c.newest.length + 1 := by
  cases piece with
  | openBracket | closeBracket => simp [add, join, last]
  | token token =>
    rw [add]
    split <;> simp [join, push, last]

end Collector

section Walk

variable {chunk : Nat} {list other : ListReader} {c d : Collector} {p q : Point}

theorem Step.length_le (step : Step chunk list c p d q) : c.newest.length ≤ d.newest.length := by
  cases step with
  | piece => exact c.length_newest_add_le _
  | list => simp [Collector.push]

theorem Walk.length_le (walk : Walk chunk list c p d q) : c.newest.length ≤ d.newest.length :=
  walk.invariant (P := fun d _ => c.newest.length ≤ d.newest.length)
    (fun step le => Nat.le_trans le step.length_le) (Nat.le_refl _)

/-- A walk that adds no item to a list stays where it is. -/
theorem Walk.eq_of_list {items older : List Value} (last : c.newest = .list items :: older)
    (walk : Walk chunk list c p d q) (same : d.newest.length = c.newest.length) :
    d = c ∧ q = p := by
  cases walk with
  | here => exact ⟨rfl, rfl⟩
  | step first later =>
    have onward := later.length_le
    cases first with
    | piece =>
      rw [Collector.length_newest_add_list last] at onward
      omega
    | list =>
      simp only [Collector.push, List.length_cons] at onward
      omega

theorem Step.mono (more : ∀ {p after : Point} {v : Value},
    list p = .ok (v, after) → other p = .ok (v, after)) (step : Step chunk list c p d q) :
    Step chunk other c p d q := by
  cases step with
  | piece found => exact .piece found
  | list found read => exact .list found (more read)

end Walk

section Room

variable {s t : Settings}

/-- What can be read depends on the room that is left, not on how deep the limit lies. -/
theorem RecursiveList.read_of_read (chunk : s.literalChunk = t.literalChunk) {room : Nat}
    {p after : Point} {items : List Value} (found : read s room p = .ok (items, after)) :
    read t room p = .ok (items, after) := by
  induction room generalizing p after items with
  | zero => contradiction
  | succ room ih =>
    obtain ⟨d, q, walk, closing, rfl⟩ := (loop_readItems s room p).eq_ok_iff.mp found
    have same : Walk s.literalChunk (.nested t room) { mapsNil := true } (p.skip 1) d q := by
      refine walk.map id fun step => step.mono fun {p after v} read => ?_
      obtain ⟨items, list, rfl⟩ := ListReader.form_eq_ok_iff.mp read
      exact ListReader.form_eq_ok_iff.mpr ⟨items, ih list, rfl⟩
    rw [chunk] at same closing
    exact (loop_readItems t room p).eq_ok_iff.mpr ⟨d, q, same, closing, rfl⟩

variable {tail : List UInt8}

theorem Line.readList_recursive (nesting : s.nesting = .recursive) (p : Point) :
    readList s p = RecursiveList.read s s.maxDepth p := by
  simp only [readList, nesting]

theorem Line.extended_outermost (nesting : s.nesting = .recursive)
    (chunk : s.literalChunk = t.literalChunk) (bounded : Bounded tail) :
    ListReader.Extended tail (.outermost s) (.nested t s.maxDepth) := by
  refine ListReader.extended_form fun opens found => ?_
  rw [readList_recursive nesting] at found
  exact RecursiveList.read_extend bounded opens (RecursiveList.read_of_read chunk found)

theorem Line.retracted_outermost (nesting : s.nesting = .recursive)
    (chunk : t.literalChunk = s.literalChunk) :
    ListReader.Retracted tail (.nested t s.maxDepth) (.outermost s) := by
  refine ListReader.retracted_form fun opens found enough => ?_
  obtain ⟨before, rfl, list⟩ := RecursiveList.read_of_extend opens found enough
  refine ⟨before, rfl, ?_⟩
  rw [readList_recursive nesting]
  exact RecursiveList.read_of_read chunk list

end Room

/-- A line in parentheses. -/
def enclosed (line : List UInt8) : List UInt8 := openParen :: line ++ [closeParen]

/-- Inside its parentheses a line is read as if it stood alone. -/
theorem Point.skip_start_enclosed (line : List UInt8) :
    (start (enclosed line)).skip 1 = ((start line).extend [closeParen]).prepend [openParen] := rfl

namespace Lexeme

variable {chunk : Nat} {p : Point}

theorem next_closing (finished : next chunk p = .ok none) :
    ∃ after, next chunk (p.extend [Octet.closeParen]) = .ok (some (.closeParen, after)) ∧
      after.rest = [] := by
  have rest : (p.extend [Octet.closeParen]).rest = p.rest ++ [Octet.closeParen] := rfl
  rw [next_of_blank (next_eq_none_iff.mp finished) rest]
  have last := Point.rest_skip_append rest
  exact ⟨_, next_closeParen last, Point.rest_skip_one last⟩

theorem next_of_closing {after : Point}
    (found : next chunk (p.extend [Octet.closeParen]) = .ok (some (.closeParen, after)))
    (last : after.rest = []) : next chunk p = .ok none := by
  obtain ⟨first, rfl⟩ := start_of_here rfl found
  obtain ⟨later, start⟩ := List.head?_eq_some_iff.mp first
  rw [Point.rest_skip_one start] at last
  by_cases more : p.skipBlanks.rest = []
  · simp only [next, here, more]
  · have length := congrArg List.length start
    have left := List.length_pos_iff.mpr more
    rw [Point.skipBlanks_extend more, Point.rest_extend, last] at length
    simp only [List.length_append, List.length_singleton] at length
    omega

end Lexeme

variable {s t : Settings} {line : List UInt8} {values : List Value}

theorem RecursiveList.read_enclosed_iff (nesting : s.nesting = .recursive)
    (chunk : s.literalChunk = t.literalChunk) :
    (∃ after, read t (s.maxDepth + 1) (.start (enclosed line)) = .ok (values, after) ∧
      after.rest = []) ↔ Line.readValues s { mapsNil := true } (.start line) = .ok values := by
  have shifted : ListReader.Displaced [openParen] (.nested t s.maxDepth) (.nested t s.maxDepth) :=
    ListReader.displaced_form (read_prepend s.maxDepth)
  have loop := loop_readItems t s.maxDepth
  simp only [read, Point.skip_start_enclosed]
  constructor
  · rintro ⟨after, found, last⟩
    obtain ⟨d, q, halt, walk, halts, -⟩ := (loop (.start line)).exists_walk
      { mapsNil := true } ((Point.start line).extend [closeParen])
    rw [(loop _).eq_of_walk (walk.prepend shifted) (halts.prepend shifted)] at found
    cases halts with
    | finished | lexeme | list => contradiction
    | @closing close closing =>
      obtain ⟨rfl, rfl⟩ := Prod.mk.inj (Except.ok.inj found)
      have left := Lexeme.next_shorter closing
      obtain ⟨stop, rfl, within⟩ := walk.of_extend (loop (.start line)).consuming
        (advancing_nested t s.maxDepth) (Line.retracted_outermost nesting chunk.symm) rfl
        (Nat.lt_of_le_of_lt (Nat.zero_le _) left)
      have finished := Lexeme.next_of_closing closing last
      rw [← chunk] at within finished
      exact Line.readValues_eq_ok_iff.mpr ⟨d, stop, within, finished, rfl⟩
  · intro found
    obtain ⟨d, q, walk, finished, rfl⟩ := Line.readValues_eq_ok_iff.mp found
    obtain ⟨close, closing, last⟩ := Lexeme.next_closing finished
    have inside := (walk.extend (bounded_closeParen [])
      (Line.extended_outermost nesting chunk (bounded_closeParen []))).prepend shifted
    have closes : Halts s.literalChunk (.nested t s.maxDepth) _ (.closing close) :=
      .closing closing
    rw [chunk] at inside closes
    exact ⟨close.prepend [openParen], (loop _).eq_of_walk inside (closes.prepend shifted), last⟩

/-- The last octet of a line in parentheses is not blank. -/
theorem eq_nil_of_suffix_enclosed {octets : List UInt8} (suffix : octets <:+ enclosed line)
    (blank : ∀ b ∈ octets, isBlank b = true) : octets = [] := by
  cases last : octets.getLast? with
  | none => exact List.getLast?_eq_none_iff.mp last
  | some b =>
    obtain ⟨before, same⟩ := suffix
    have closes : (before ++ octets).getLast? = some closeParen := same ▸ List.getLast?_concat
    rw [List.getLast?_append, last, Option.some_or] at closes
    obtain rfl := Option.some.inj closes
    exact absurd (blank closeParen (List.mem_of_getLast? last)) (by decide)

/-- A line is read exactly when, in parentheses and one level deeper, it is read as one list. -/
theorem decode_enclosed (chunk depth : Nat) (line : List UInt8) (values : List Value) :
    decode ⟨chunk, .recursive, none, depth⟩ line = .ok values ↔
      decode ⟨chunk, .recursive, none, depth + 1⟩ (enclosed line) = .ok [.list values] := by
  have rest : (Point.start (enclosed line)).rest = openParen :: (line ++ [closeParen]) := rfl
  have opens : Lexeme.next chunk (.start (enclosed line)) = _ := Lexeme.next_openParen rest
  have inside : (∃ after, RecursiveList.read ⟨chunk, .recursive, none, depth + 1⟩ (depth + 1)
      (.start (enclosed line)) = .ok (values, after) ∧ after.rest = []) ↔
      Line.readValues ⟨chunk, .recursive, none, depth⟩ { mapsNil := true } (.start line) =
        .ok values :=
    RecursiveList.read_enclosed_iff (s := ⟨chunk, .recursive, none, depth⟩) rfl rfl
  rw [decode_eq_readValues rfl, decode_eq_readValues rfl, ← inside, Line.readValues_eq_ok_iff]
  constructor
  · rintro ⟨after, read, last⟩
    refine ⟨_, after, .step (.list opens ?_) .here, Lexeme.next_end last, rfl⟩
    rw [Point.skipBlanks_openParen rest]
    refine ListReader.form_eq_ok_iff.mpr ⟨values, ?_, rfl⟩
    rwa [Line.readList_recursive rfl]
  · rintro ⟨d, q, walk, finished, same⟩
    cases walk with
    | here => contradiction
    | step first later =>
      cases first with
      | piece found => simp [opens] at found
      | @list _ after _ _ list =>
        rw [Point.skipBlanks_openParen rest] at list
        obtain ⟨items, read, rfl⟩ := ListReader.form_eq_ok_iff.mp list
        rw [Line.readList_recursive rfl] at read
        -- The line has one value, so the list is the first element of the line and the last.
        have single := congrArg List.length same
        obtain ⟨rfl, rfl⟩ := later.eq_of_list rfl
          (by simpa [Collector.items, Collector.push] using single.symm)
        obtain rfl : values = items := by simpa [Collector.items, Collector.push] using same
        have reached := RecursiveList.advancing_nested _ _
          (ListReader.form_eq_ok_iff.mpr ⟨values, read, rfl⟩)
        exact ⟨_, read, eq_nil_of_suffix_enclosed reached.suffix
          (Lexeme.next_eq_none_iff.mp finished)⟩

end ImapReply
