import ImapReply.Collector
import ImapReply.Settings

/-! Lists whose inner lists are read as lists, down to a limit on their depth. -/
namespace ImapReply.RecursiveList

/-- Items with a point that leaves less of the line than `bound` does. -/
abbrev Closer (bound : Point) :=
  { found : List Value × Point // found.2.rest.length < bound.rest.length }

/-- Items up to the parenthesis that closes the list from `opening`. Inside this list, lists may
be opened `room` levels deep. -/
def readWithin (s : Settings) (room : Nat) (bound opening : Point) (c : Collector) (p : Point)
    (within : p.rest.length ≤ bound.rest.length) : Except Fault (Closer bound) :=
  match _next : Lexeme.next s.literalChunk p with
  | .error fault => .error fault
  | .ok none => .error (.unterminatedList opening.offset)
  | .ok (some (.closeParen, after)) =>
    .ok ⟨(c.items, after), Nat.lt_of_lt_of_le (Lexeme.next_shorter _next) within⟩
  | .ok (some (.piece piece, after)) =>
    readWithin s room bound opening (c.add piece) after
      (Nat.le_trans (Nat.le_of_lt (Lexeme.next_shorter _next)) within)
  | .ok (some (.openParen, after)) =>
    match room with
    | 0 => .error (.nestingTooDeep p.skipBlanks.offset s.maxDepth)
    | room + 1 =>
      match readWithin s room after p.skipBlanks { mapsNil := true } after (Nat.le_refl _) with
      | .error fault => .error fault
      | .ok ⟨(items, later), closer⟩ =>
        readWithin s (room + 1) bound opening (c.push (.list items)) later
          (by have := Lexeme.next_shorter _next; dsimp only at closer; omega)
termination_by p.rest.length
decreasing_by
  · exact Lexeme.next_shorter _next
  · exact Lexeme.next_shorter _next
  · exact Nat.lt_trans closer (Lexeme.next_shorter _next)

/-- Drops what the bound says. -/
def Closer.forget {bound : Point} :
    Except Fault (Closer bound) → Except Fault (List Value × Point)
  | .error fault => .error fault
  | .ok found => .ok found.val

/-- The bound only limits where reading may end; it has no part in what is read. -/
theorem forget_readWithin (s : Settings) (room : Nat) (bound other opening : Point)
    (c : Collector) (p : Point) (within : p.rest.length ≤ bound.rest.length)
    (withinOther : p.rest.length ≤ other.rest.length) :
    Closer.forget (readWithin s room bound opening c p within) =
      Closer.forget (readWithin s room other opening c p withinOther) := by
  fun_induction readWithin s room bound opening c p within generalizing other with
  | case1 => rw [readWithin]; split <;> grind [Closer.forget]
  | case2 => rw [readWithin]; split <;> grind [Closer.forget]
  | case3 => rw [readWithin]; split <;> grind [Closer.forget]
  | case4 =>
    conv => rhs; rw [readWithin]
    split <;> grind
  | case5 => rw [readWithin]; split <;> grind [Closer.forget]
  | case6 _ _ _ _ _ after next _ _ inner =>
    rw [readWithin]
    split
    case h_5 later found =>
      obtain rfl : later = after := by grind
      simp only [inner, Closer.forget]
    all_goals grind
  | case7 _ _ _ _ _ after next _ items later closer inner _ ih =>
    conv => rhs; rw [readWithin]
    split
    case h_5 point found =>
      obtain rfl : point = after := by grind
      simp only [inner]
      exact ih ..
    all_goals grind

/-- Items up to the parenthesis that closes the list from `opening`, and the point after it. -/
def readItems (s : Settings) (room : Nat) (opening : Point) (c : Collector) (p : Point) :
    Except Fault (List Value × Point) :=
  Closer.forget (readWithin s room p opening c p (Nat.le_refl _))

/-- Items of the list whose parenthesis is at the point. No list may be opened where no room is
left, however it goes on. -/
def read (s : Settings) (room : Nat) (p : Point) : Except Fault (List Value × Point) :=
  match room with
  | 0 => .error (.nestingTooDeep p.offset s.maxDepth)
  | room + 1 => readItems s room p { mapsNil := true } (p.skip 1)

theorem readItems_eq (s : Settings) (room : Nat) (opening : Point) (c : Collector) (p : Point) :
    readItems s room opening c p =
      match Lexeme.next s.literalChunk p with
      | .error fault => .error fault
      | .ok none => .error (.unterminatedList opening.offset)
      | .ok (some (.closeParen, after)) => .ok (c.items, after)
      | .ok (some (.piece piece, after)) => readItems s room opening (c.add piece) after
      | .ok (some (.openParen, _)) =>
        match read s room p.skipBlanks with
        | .error fault => .error fault
        | .ok (items, after) => readItems s room opening (c.push (.list items)) after := by
  conv => lhs; rw [readItems, readWithin]
  split
  case h_4 piece after next => simpa only [next, readItems] using forget_readWithin ..
  case h_5 after next =>
    split
    case h_1 => simp [next, read, Closer.forget]
    case h_2 room =>
      have same : read s (room + 1) p.skipBlanks =
          Closer.forget (readWithin s room after p.skipBlanks { mapsNil := true } after
            (Nat.le_refl _)) := by
        rw [read, readItems, ← Lexeme.after_openParen next]
      simp only [next, same]
      split
      case h_1 fault inner => simp [inner, Closer.forget]
      case h_2 items later closer inner =>
        simp only [inner, Closer.forget]
        exact forget_readWithin ..
  all_goals simp_all [Closer.forget]

theorem readItems_shorter {s : Settings} {room : Nat} {opening p after : Point} {c : Collector}
    {items : List Value} (found : readItems s room opening c p = .ok (items, after)) :
    after.rest.length < p.rest.length := by
  unfold readItems Closer.forget at found
  split at found
  · contradiction
  next closer _ =>
    have nearer := closer.property
    rwa [Except.ok.inj found] at nearer

theorem read_shorter {s : Settings} {room : Nat} {p after : Point} {items : List Value}
    (found : read s room p = .ok (items, after)) : after.rest.length < p.rest.length := by
  unfold read at found
  split at found
  · contradiction
  · have past : (p.skip 1).rest.length ≤ p.rest.length := by simp
    exact Nat.lt_of_lt_of_le (readItems_shorter found) past

end ImapReply.RecursiveList
