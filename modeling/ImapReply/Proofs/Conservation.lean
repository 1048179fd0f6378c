import ImapReply.Collector

/-! What a collector makes of what it takes in. It loses nothing, makes nothing twice and keeps the
order: the items it has in the end spell what the tokens, brackets and values spelled one by one.
Each of them lengthens the last item or adds one, and no other item is touched. -/
namespace ImapReply

/-- What a collector takes in at a time: a piece, or a value that stands by itself. -/
inductive Intake where
  | piece (piece : Piece)
  | value (value : Value)
deriving DecidableEq

/-- What texts are made of, with one sign for `NIL` and one for a list as a whole. -/
inductive Sign where
  | char (c : Char)
  | null
  | list (items : List Value)
deriving DecidableEq

def Sign.ofText (text : String) : List Sign := text.toList.map .char

theorem Sign.ofText_append (s t : String) : ofText (s ++ t) = ofText s ++ ofText t := by
  simp [ofText]

namespace Value

def signs : Value → List Sign
  | .atom text false => Sign.ofText text
  | .atom _ true => [.null]
  | .list items => [.list items]

/-- Whether the value is an atom that is not null. -/
def isText : Value → Bool
  | .atom _ isNull => !isNull
  | .list _ => false

theorem isText_iff (v : Value) : v.isText = true ↔ ∃ text, v = .ofText text := by
  cases v <;> simp [isText, ofText]

end Value

namespace Intake

/-- What the intake spells. A bare `NIL` is a sign of its own where it can become null, but not if
it is joined to a text. -/
def signs (mapsNil joined : Bool) : Intake → List Sign
  | .piece .openBracket => [.char '[']
  | .piece .closeBracket => [.char ']']
  | .piece (.token t) =>
    if mapsNil ∧ t = .bare "NIL" ∧ ¬joined then [.null] else Sign.ofText t.text
  | .value v => v.signs

/-- Whether the intake is joined to a text before it, if there is one. -/
def joins (joining : Bool) : Intake → Bool
  | .piece .openBracket | .piece .closeBracket => true
  | .piece (.token _) => joining
  | .value _ => false

end Intake

namespace Token

theorem signs_value (mapsNil : Bool) (t : Token) :
    (t.value mapsNil).signs = Intake.signs mapsNil false (.piece (.token t)) := by
  cases t with
  | quoted text | literal text => simp [value, Intake.signs, Value.ofText, Value.signs, Token.text]
  | bare text =>
    by_cases null : mapsNil = true ∧ text = "NIL"
    · simp [value, Intake.signs, null, Value.nil, Value.signs]
    · simp [value, Intake.signs, null, Value.ofText, Value.signs, Token.text]

theorem isText_value (mapsNil : Bool) (t : Token) :
    (t.value mapsNil).isText = !(mapsNil ∧ t = .bare "NIL") := by
  cases t with
  | quoted text | literal text => simp [value, Value.ofText, Value.isText]
  | bare text =>
    by_cases null : mapsNil = true ∧ text = "NIL"
    · rw [value, if_pos null, decide_eq_true (by simpa using null)]
      rfl
    · rw [value, if_neg null, decide_eq_false (by simpa using null)]
      rfl

end Token

/-- What an intake may do to the items. It is joined to the last one, which must be a text, or adds
one more, and leaves all others as they are. -/
structure Intake.Alters (joining : Bool) (intake : Intake) (before after : List Value) : Prop where
  added : after.length = before.length ∨ after.length = before.length + 1
  joined : after.length = before.length ↔
    (∃ text, before.getLast? = some (.ofText text)) ∧ intake.joins joining = true
  others : ∀ i, i + 1 < after.length → after[i]? = before[i]?

/-- What a collector has taken in, the newest first. -/
abbrev History := List Intake

namespace History

/-- Whether the newest bracket is an opening one. -/
def joining : History → Bool
  | [] => false
  | .piece .openBracket :: _ => true
  | .piece .closeBracket :: _ => false
  | .piece (.token _) :: earlier | .value _ :: earlier => joining earlier

/-- Whether the history ends in a text, which can be lengthened. -/
def endsInText (mapsNil : Bool) : History → Bool
  | [] => false
  | .piece .openBracket :: _ | .piece .closeBracket :: _ => true
  | .piece (.token t) :: earlier =>
    joining earlier && endsInText mapsNil earlier || !(mapsNil ∧ t = .bare "NIL")
  | .value v :: _ => v.isText

/-- Whether the intake is joined to a text that the history ends in. -/
def joined (mapsNil : Bool) (history : History) (intake : Intake) : Bool :=
  endsInText mapsNil history && intake.joins (joining history)

/-- What the intakes spell one after another, the oldest first. -/
def signs (mapsNil : Bool) : History → List Sign
  | [] => []
  | intake :: earlier =>
    signs mapsNil earlier ++ intake.signs mapsNil (joined mapsNil earlier intake)

end History

namespace Collector

def take (c : Collector) : Intake → Collector
  | .piece piece => c.add piece
  | .value value => c.push value

/-- The collector that has taken in all of the history. -/
def ofHistory (mapsNil : Bool) : History → Collector
  | [] => { mapsNil }
  | intake :: earlier => (ofHistory mapsNil earlier).take intake

/-- Whether the last item is a text. -/
def endsInText (c : Collector) : Bool := c.items.getLast?.any Value.isText

/-- What an intake makes of the items: a longer last item, or one item more. -/
inductive Grows (spelled : List Sign) : Bool → List Value → List Value → Prop
  | lengthened {before : List Value} {head text : String} : spelled = Sign.ofText text →
      Grows spelled true (before ++ [.ofText head]) (before ++ [.ofText (head ++ text)])
  | added {before : List Value} {value : Value} : spelled = value.signs →
      Grows spelled false before (before ++ [value])

section Grows

variable {spelled : List Sign} {joined : Bool} {before after : List Value}

theorem Grows.signs (grows : Grows spelled joined before after) :
    after.flatMap Value.signs = before.flatMap Value.signs ++ spelled := by
  cases grows with
  | lengthened spells => simp [spells, Value.ofText, Value.signs, Sign.ofText_append]
  | added spells => simp [spells]

theorem Grows.length (grows : Grows spelled joined before after) :
    after.length = before.length + if joined then 0 else 1 := by
  cases grows <;> simp

theorem Grows.others (grows : Grows spelled joined before after) {i : Nat}
    (notLast : i + 1 < after.length) : after[i]? = before[i]? := by
  cases grows with
  | lengthened =>
    rw [List.length_append] at notLast
    have inside := Nat.lt_of_succ_lt_succ notLast
    rw [List.getElem?_append_left inside, List.getElem?_append_left inside]
  | added =>
    rw [List.length_append] at notLast
    rw [List.getElem?_append_left (Nat.lt_of_succ_lt_succ notLast)]

end Grows

variable {c : Collector}

theorem endsInText_iff :
    c.endsInText = true ↔ ∃ text, c.items.getLast? = some (.ofText text) := by
  unfold endsInText
  cases c.items.getLast? with
  | none => simp
  | some last => simp [Value.isText_iff]

theorem items_of_endsInText (ends : c.endsInText = true) :
    ∃ before head, c.items = before ++ [.ofText head] := by
  obtain ⟨head, last⟩ := endsInText_iff.mp ends
  obtain ⟨before, items⟩ := List.getLast?_eq_some_iff.mp last
  exact ⟨before, head, items⟩

theorem items_join_of_not_endsInText (text : String) (fresh : Value)
    (ends : c.endsInText = false) : (c.join text fresh).items = c.items ++ [fresh] := by
  refine items_join_fresh text fresh fun head last => ?_
  rw [endsInText_iff.mpr ⟨head, last⟩] at ends
  contradiction

theorem join_grows {text : String} {fresh : Value} (spelled : Bool → List Sign)
    (lengthens : spelled true = Sign.ofText text) (adds : spelled false = fresh.signs) :
    Grows (spelled c.endsInText) c.endsInText c.items (c.join text fresh).items := by
  cases ends : c.endsInText with
  | true =>
    obtain ⟨before, head, items⟩ := items_of_endsInText ends
    rw [items_join_atom text fresh items, items]
    exact .lengthened lengthens
  | false =>
    rw [items_join_of_not_endsInText text fresh ends]
    exact .added adds

theorem endsInText_push (value : Value) : (c.push value).endsInText = value.isText := by
  simp [endsInText]

theorem endsInText_join (text : String) (fresh : Value) :
    (c.join text fresh).endsInText = (c.endsInText || fresh.isText) := by
  cases ends : c.endsInText with
  | true =>
    obtain ⟨before, head, items⟩ := items_of_endsInText ends
    rw [endsInText, items_join_atom text fresh items]
    simp [Value.isText]
  | false =>
    rw [endsInText, items_join_of_not_endsInText text fresh ends]
    simp

theorem joining_add_token (t : Token) : (c.add (.token t)).joining = c.joining := by
  rw [add]
  split
  · exact joining_join ..
  · exact joining_push ..

theorem take_grows (c : Collector) (intake : Intake) :
    Grows (intake.signs c.mapsNil (c.endsInText && intake.joins c.joining))
      (c.endsInText && intake.joins c.joining) c.items (c.take intake).items := by
  cases intake with
  | value v =>
    rw [take, items_push, Intake.joins, Bool.and_false]
    exact .added rfl
  | piece piece =>
    cases piece with
    | openBracket | closeBracket =>
      rw [Intake.joins, Bool.and_true]
      exact join_grows (fun _ => _) rfl rfl
    | token t =>
      rw [take, add, Intake.joins]
      cases joining : c.joining with
      | true =>
        rw [if_pos rfl, Bool.and_true]
        exact join_grows (fun joined => Intake.signs c.mapsNil joined (.piece (.token t)))
          (by simp [Intake.signs]) (t.signs_value c.mapsNil).symm
      | false =>
        rw [if_neg Bool.false_ne_true, Bool.and_false, items_push]
        exact .added (t.signs_value c.mapsNil).symm

theorem mapsNil_ofHistory (mapsNil : Bool) (history : History) :
    (ofHistory mapsNil history).mapsNil = mapsNil := by
  induction history with
  | nil => rfl
  | cons intake earlier ih => cases intake <;> simp [ofHistory, take, ih]

theorem joining_ofHistory (mapsNil : Bool) (history : History) :
    (ofHistory mapsNil history).joining = history.joining := by
  induction history with
  | nil => rfl
  | cons intake earlier ih =>
    cases intake with
    | value v => exact ih
    | piece piece =>
      cases piece with
      | openBracket | closeBracket => rfl
      | token t => exact (joining_add_token t).trans ih

theorem endsInText_ofHistory (mapsNil : Bool) (history : History) :
    (ofHistory mapsNil history).endsInText = history.endsInText mapsNil := by
  induction history with
  | nil => rfl
  | cons intake earlier ih =>
    cases intake with
    | value v => exact endsInText_push v
    | piece piece =>
      cases piece with
      | openBracket | closeBracket =>
        exact (endsInText_join _ _).trans (Bool.or_true _)
      | token t =>
        rw [ofHistory, take, add, History.endsInText, joining_ofHistory, mapsNil_ofHistory]
        cases History.joining earlier with
        | true => rw [if_pos rfl, endsInText_join, ih, t.isText_value, Bool.true_and]
        | false =>
          rw [if_neg Bool.false_ne_true, endsInText_push, t.isText_value, Bool.false_and,
            Bool.false_or]

/-- What the next intake after a history makes of the items. -/
theorem ofHistory_grows (mapsNil : Bool) (history : History) (intake : Intake) :
    Grows (intake.signs mapsNil (history.joined mapsNil intake)) (history.joined mapsNil intake)
      (ofHistory mapsNil history).items (ofHistory mapsNil (intake :: history)).items := by
  have grows := (ofHistory mapsNil history).take_grows intake
  rwa [mapsNil_ofHistory, joining_ofHistory, endsInText_ofHistory] at grows

theorem signs_ofHistory (mapsNil : Bool) (history : History) :
    (ofHistory mapsNil history).items.flatMap Value.signs = history.signs mapsNil := by
  induction history with
  | nil => rfl
  | cons intake earlier ih => rw [(ofHistory_grows mapsNil earlier intake).signs, ih, History.signs]

theorem ofHistory_alters (mapsNil : Bool) (history : History) (intake : Intake) :
    intake.Alters history.joining (ofHistory mapsNil history).items
      (ofHistory mapsNil (intake :: history)).items := by
  have grows := ofHistory_grows mapsNil history intake
  have joined : history.joined mapsNil intake = true ↔
      (∃ text, (ofHistory mapsNil history).items.getLast? = some (.ofText text)) ∧
        intake.joins history.joining = true := by
    rw [History.joined, Bool.and_eq_true, ← endsInText_ofHistory, endsInText_iff]
  have length := grows.length
  refine ⟨?_, ?_, fun i => grows.others⟩
  · split at length
    · exact .inl length
    · exact .inr length
  · rw [← joined, length]
    cases history.joined mapsNil intake <;> simp

/-- The items spell what the intakes spelled, in their order. To tell a bare `NIL` that is joined to
a text from one that is not takes no look at the items: the history says itself whether it ends in a
text, which is so exactly if the last item is one. Each further intake adds one item at most, and
none exactly if it is joined to the last item, and leaves the items in front of that as they are. -/
theorem collecting_conserves (mapsNil : Bool) (history : History) :
    (ofHistory mapsNil history).items.flatMap Value.signs = history.signs mapsNil ∧
    (history.endsInText mapsNil = true ↔
      ∃ text, (ofHistory mapsNil history).items.getLast? = some (.ofText text)) ∧
    ∀ intake : Intake, intake.Alters history.joining (ofHistory mapsNil history).items
      (ofHistory mapsNil (intake :: history)).items := by
  refine ⟨signs_ofHistory mapsNil history, ?_, ofHistory_alters mapsNil history⟩
  rw [← endsInText_ofHistory, endsInText_iff]

/-- Between brackets `NIL` is joined as a word. Behind them it stands by itself, and the bracket
after it is not joined to it, nor is a token to a list. -/
example :
    (ofHistory true ([.piece (.token (.bare "OK")), .piece .openBracket,
      .piece (.token (.bare "NIL")), .piece .closeBracket, .piece (.token (.bare "NIL")),
      .piece .openBracket, .value (.list []), .piece (.token (.bare "NIL"))].reverse)).items =
      [.ofText "OK[NIL]", .nil, .ofText "[", .list [], .nil] := by
  decide +kernel

end Collector

end ImapReply
