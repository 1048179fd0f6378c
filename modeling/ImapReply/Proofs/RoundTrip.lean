import ImapReply.Proofs.StackMachine
import ImapReply.Proofs.Written

/-! Recursive reading gives back what was written, in whatever forms, if it is not nested too deep;
otherwise the fault names the first parenthesis past the limit. -/
namespace ImapReply.Written

open Octet Octets

theorem line_front (item : Written) (later : List Written) :
    ∃ more, ofText (line (item :: later)) = ofText item.text ++ more := by
  cases later with
  | nil => exact ⟨[], (List.append_nil _).symm⟩
  | cons next later => exact ⟨_, ofText_line_cons item next later⟩

theorem text_spelled {item : Written} (atom : item.depth = 0) :
    ∃ token : Token, token.Spelled (ofText item.text) ∧ token.value true = item.value := by
  cases item with
  | nil => exact ⟨.bare "NIL", .bare isWord_nil, rfl⟩
  | string text form => exact ⟨form.token, form.spelled, form.value_token true⟩
  | list items => simp [depth] at atom

section Between

variable {item next : Written} {later : List Written} {p : Point} {tail : List UInt8}

theorem start_between (start : p.rest = ofText (line (item :: next :: later)) ++ tail) :
    p.rest = ofText item.text ++ space :: (ofText (line (next :: later)) ++ tail) := by
  rw [start, ofText_line_cons, List.append_assoc]
  rfl

theorem rest_between (start : p.rest = ofText (line (item :: next :: later)) ++ tail) :
    ((p.skip (ofText item.text).length).skip 1).rest = ofText (line (next :: later)) ++ tail :=
  Point.rest_skip_one (Point.rest_skip_append (start_between start))

theorem offset_between (start : p.rest = ofText (line (item :: next :: later)) ++ tail) :
    ((p.skip (ofText item.text).length).skip 1).offset =
      p.offset + (ofText item.text).length + 1 := by
  have between := Point.rest_skip_append (start_between start)
  rw [Point.offset_skip, between, Point.offset_skip, start_between start]
  simp

end Between

variable {max chunk : Nat}

theorem run_atom {item : Written} (atom : item.depth = 0) {m : Machine} {p : Point}
    {tail : List UInt8} (plain : m.Plain) (start : p.rest = ofText item.text ++ tail)
    (bounded : Bounded tail) :
    m.run max (.read chunk p) =
      (m.push item.value).run max (.read chunk (p.skip (ofText item.text).length)) := by
  obtain ⟨token, spelled, same⟩ := text_spelled atom
  rw [Tape.read_spelled start spelled (bounded.ends token), ← same,
    ← Machine.collect_token plain]
  rfl

mutual
/-- The machine takes one whole element, whatever its form, for one value. -/
theorem run_text (item : Written) {m : Machine} {p : Point} {tail : List UInt8} (plain : m.Plain)
    (start : p.rest = ofText item.text ++ tail) (bounded : Bounded tail)
    (shallow : item.depth + m.frames.length ≤ max) :
    m.run max (.read chunk p) =
      (m.push item.value).run max (.read chunk (p.skip (ofText item.text).length)) := by
  cases item with
  | list items =>
    rw [ofText_list] at start
    have inside : (p.skip 1).rest = ofText (line items) ++ closeParen :: tail := by simp [start]
    have closing := Point.rest_skip_append inside
    have free : ¬ max ≤ m.frames.length := by simp only [depth] at shallow; omega
    have within : depths items + (m.enter p.offset).frames.length ≤ max := by
      simp only [depth] at shallow
      simp only [Machine.enter, List.length_cons]
      omega
    have past : ((p.skip 1).skip (ofText (line items)).length).skip 1 =
        p.skip (ofText (list items).text).length := by
      simp only [Point.skip_skip, ofText_list, List.length_append, List.length_cons,
        List.length_nil]
      congr 1
      omega
    rw [Tape.read_openParen (by simpa using start)]
    simp only [Machine.run, Machine.step, free, ite_false]
    rw [run_line items (m.plain_enter _) inside (bounded_closeParen tail) within,
      Tape.read_closeParen closing, Machine.run, Machine.step_closeParen, past, value]
  | nil => exact run_atom rfl plain start bounded
  | string => exact run_atom rfl plain start bounded
theorem run_line (items : List Written) {m : Machine} {p : Point} {tail : List UInt8}
    (plain : m.Plain) (start : p.rest = ofText (line items) ++ tail) (bounded : Bounded tail)
    (shallow : depths items + m.frames.length ≤ max) :
    m.run max (.read chunk p) =
      (m.pushAll (values items)).run max (.read chunk (p.skip (ofText (line items)).length)) := by
  match items with
  | [] => rfl
  | [item] =>
    have alone : item.depth + m.frames.length ≤ max := by
      simp only [depths] at shallow
      omega
    exact run_text item plain start bounded alone
  | item :: next :: later =>
    have first : item.depth + m.frames.length ≤ max := by
      simp only [depths] at shallow
      omega
    have rest : depths (next :: later) + (m.push item.value).frames.length ≤ max := by
      simp only [depths, Machine.length_frames_push] at shallow ⊢
      omega
    have past : ((p.skip (ofText item.text).length).skip 1).skip
        (ofText (line (next :: later))).length =
        p.skip (ofText (line (item :: next :: later))).length := by
      simp only [Point.skip_skip, ofText_line_cons, List.length_append, List.length_cons]
      congr 1
      omega
    rw [run_text item plain (start_between start) (bounded_space _) first,
      Tape.read_blank (Point.rest_skip_append (start_between start)) isBlank_space,
      run_line (next :: later) (plain.push _) (rest_between start) bounded rest, past]
    rfl
end

theorem Opens.depth_le {items : List Written} {offset depth : Nat}
    (opens : Opens items offset depth) : depth ≤ depths items := by
  induction opens with
  | here => simp only [depths, Written.depth]; omega
  | inside _ ih => simp only [depths, Written.depth]; omega
  | later _ ih => simp only [depths]; omega

/-- At such an offset there is a parenthesis indeed. -/
theorem Opens.octet {items : List Written} {offset depth : Nat}
    (opens : Opens items offset depth) :
    (ofText (line items))[offset]? = some openParen := by
  have front (item : Written) (later : List Written) (i : Nat)
      (inside : i < (ofText item.text).length) :
      (ofText (line (item :: later)))[i]? = (ofText item.text)[i]? := by
    obtain ⟨more, text⟩ := line_front item later
    rw [text, List.getElem?_append_left inside]
  induction opens with
  | @here items later =>
    rw [front _ _ _ (by simp [ofText_list]), ofText_list]
    rfl
  | @inside items later offset depth _ ih =>
    have bound := (List.getElem?_eq_some_iff.mp ih).1
    rw [front _ _ _ (by simp [ofText_list]; omega), ofText_list, List.cons_append,
      List.getElem?_cons_succ, List.getElem?_append_left bound]
    exact ih
  | @later item later offset depth opens ih =>
    cases later with
    | nil => cases opens
    | cons next later =>
      rw [ofText_line_cons, List.getElem?_append_right (by omega), Nat.add_assoc,
        Nat.add_sub_cancel_left, Nat.add_comm, List.getElem?_cons_succ]
      exact ih

structure FirstOpens (items : List Written) (offset depth : Nat) : Prop where
  opens : Opens items offset depth
  first : ∀ other, Opens items other depth → offset ≤ other

theorem FirstOpens.inside {items later : List Written} {offset depth : Nat} (positive : 0 < depth)
    (found : FirstOpens items offset depth) :
    FirstOpens (list items :: later) (offset + 1) (depth + 1) := by
  refine ⟨.inside found.opens, ?_⟩
  intro other opens
  cases opens with
  | here => omega
  | inside opens =>
    have := found.first _ opens
    omega
  | later opens =>
    have bound := (List.getElem?_eq_some_iff.mp found.opens.octet).1
    simp only [ofText_list, List.length_append, List.length_cons]
    omega

theorem FirstOpens.later {item : Written} {later : List Written} {offset depth : Nat}
    (shallow : item.depth < depth) (found : FirstOpens later offset depth) :
    FirstOpens (item :: later) ((ofText item.text).length + 1 + offset) depth := by
  refine ⟨.later found.opens, ?_⟩
  intro other opens
  cases opens with
  | here => simp only [Written.depth] at shallow; omega
  | inside opens =>
    have := opens.depth_le
    simp only [Written.depth] at shallow
    omega
  | later opens =>
    have := found.first _ opens
    omega

/-- Past the limit the machine stops at the first parenthesis that opens one list too many. -/
theorem run_line_deep (items : List Written) {m : Machine} {p : Point} {tail : List UInt8}
    (plain : m.Plain) (start : p.rest = ofText (line items) ++ tail) (bounded : Bounded tail)
    (room : m.frames.length ≤ max) (deep : max < depths items + m.frames.length) :
    ∃ offset, FirstOpens items offset (max - m.frames.length + 1) ∧
      m.run max (.read chunk p) = .error (.nestingTooDeep (p.offset + offset) max) := by
  match items with
  | [] => simp only [depths] at deep; omega
  | item :: later =>
    by_cases shallow : item.depth + m.frames.length ≤ max
    · match later with
      | [] => simp only [depths] at deep; omega
      | next :: later =>
        obtain ⟨offset, found, stops⟩ := run_line_deep (next :: later) (plain.push item.value)
          (rest_between start) bounded (by simpa using room)
          (by simp only [depths, Machine.length_frames_push] at deep ⊢; omega)
        rw [Machine.length_frames_push] at found
        refine ⟨_, found.later (by omega), ?_⟩
        rw [run_text item plain (start_between start) (bounded_space _) shallow,
          Tape.read_blank (Point.rest_skip_append (start_between start)) isBlank_space, stops,
          offset_between start]
        simp only [Nat.add_assoc]
    · cases item with
      | nil | string => simp only [Written.depth] at shallow; omega
      | list items =>
        obtain ⟨more, text⟩ := line_front (list items) later
        have opening : p.rest =
            openParen :: (ofText (line items) ++ closeParen :: (more ++ tail)) := by
          simp [start, text, ofText_list]
        rw [Tape.read_openParen opening]
        simp only [Written.depth] at shallow
        by_cases full : max ≤ m.frames.length
        · refine ⟨0, ?_, by simp only [Machine.run, Machine.step, full, ite_true, Nat.add_zero]⟩
          rw [Nat.sub_eq_zero_of_le full]
          exact ⟨.here, fun _ _ => Nat.zero_le _⟩
        · have inside := Point.rest_skip_one opening
          have entered : (m.enter p.offset).frames.length = m.frames.length + 1 := rfl
          obtain ⟨offset, found, stops⟩ := run_line_deep items (m.plain_enter p.offset) inside
            (bounded_closeParen _) (by omega) (by omega)
          rw [entered] at found
          have levels : max - (m.frames.length + 1) + 1 = max - m.frames.length := by omega
          rw [levels] at found
          refine ⟨offset + 1, found.inside (by omega), ?_⟩
          simp only [Machine.run, Machine.step, full, ite_false, stops, Point.offset_skip, opening,
            List.length_cons]
          congr 2
          omega

theorem decode_eq_run (chunk depth : Nat) (line : List UInt8) :
    decode ⟨chunk, .recursive, none, depth⟩ line =
      Machine.initial.run depth (.ofLine chunk line) :=
  Machine.readValues_recursive ⟨chunk, .recursive, none, depth⟩ line

theorem decode_shallow (chunk : Nat) {depth : Nat} {items : List Written}
    (shallow : depths items ≤ depth) :
    decode ⟨chunk, .recursive, none, depth⟩ (ofText (line items)) = .ok (values items) := by
  have start : (Point.start (ofText (line items))).rest = ofText (line items) ++ [] :=
    (List.append_nil _).symm
  rw [decode_eq_run, Tape.ofLine, run_line items Machine.plain_initial start bounded_nil shallow,
    Tape.read_end (Point.rest_skip_append start), Machine.run, Machine.finish_pushAll_initial]

theorem decode_deep (chunk : Nat) {depth : Nat} {items : List Written}
    (deep : depth < depths items) :
    ∃ offset, FirstOpens items offset (depth + 1) ∧
      decode ⟨chunk, .recursive, none, depth⟩ (ofText (line items)) =
        .error (.nestingTooDeep offset depth) := by
  have start : (Point.start (ofText (line items))).rest = ofText (line items) ++ [] :=
    (List.append_nil _).symm
  obtain ⟨offset, found, stops⟩ := run_line_deep items Machine.plain_initial start bounded_nil
    (Nat.zero_le depth) deep
  refine ⟨offset, found, ?_⟩
  rw [decode_eq_run, Tape.ofLine, stops, Point.offset_start, Nat.zero_add]

/-- Reading undoes writing, and the limit on depth is exact. -/
theorem decode_written (chunk depth : Nat) (items : List Written) :
    ((∀ item ∈ items, item.depth ≤ depth) →
      decode ⟨chunk, .recursive, none, depth⟩ (ofText (line items)) =
        .ok (items.map value)) ∧
    ((∃ item ∈ items, depth < item.depth) →
      ∃ offset, FirstOpens items offset (depth + 1) ∧
        decode ⟨chunk, .recursive, none, depth⟩ (ofText (line items)) =
          .error (.nestingTooDeep offset depth)) := by
  constructor
  · intro shallow
    rw [← values_eq_map]
    exact decode_shallow chunk (depths_le_iff.mpr shallow)
  · rintro ⟨item, member, deep⟩
    have exceeds : ¬ depths items ≤ depth := fun fits =>
      absurd (depths_le_iff.mp fits item member) (by omega)
    exact decode_deep chunk (Nat.lt_of_not_le exceeds)

/-- A quoted `NIL` inside a list is fine at depth one, and a list inside that list is not. -/
theorem decode_written_sample :
    decode ⟨8, .recursive, none, 1⟩ (ofText "NIL (\"NIL\" NIL)") =
      .ok [.nil, .list [.ofText "NIL", .nil]] ∧
    ∃ offset, FirstOpens [.nil, .list [.list [.nil]]] offset 2 ∧
      decode ⟨8, .recursive, none, 1⟩ (ofText "NIL ((NIL))") =
        .error (.nestingTooDeep offset 1) := by
  have shallow : line [.nil, .list [.string "NIL" .quoted, .nil]] = "NIL (\"NIL\" NIL)" := by
    decide
  have deep : line [.nil, .list [.list [.nil]]] = "NIL ((NIL))" := by decide
  rw [← shallow, ← deep]
  constructor
  · exact (decode_written 8 1 _).1 (by decide)
  · exact (decode_written 8 1 _).2 ⟨.list [.list [.nil]], by simp, by decide⟩

end ImapReply.Written
