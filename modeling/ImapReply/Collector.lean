import ImapReply.Lexeme

/-! Collects the items of a list. Brackets, and tokens that stand between them, are joined to the
item before them, so that `OK [READ-ONLY]` gives the one item `OK[READ-ONLY]`. -/
namespace ImapReply

structure Collector where
  /-- Whether a bare `NIL` becomes the null atom. -/
  mapsNil : Bool
  /-- Whether the last bracket was an opening one. -/
  joining : Bool := false
  /-- Items so far, the newest first. -/
  newest : List Value := []

namespace Collector

/-- Lengthens the newest item if it is an atom and not null; otherwise adds `fresh`. -/
def join (c : Collector) (text : String) (fresh : Value) : Collector :=
  match c.newest with
  | .atom head false :: older => { c with newest := .atom (head ++ text) false :: older }
  | newest => { c with newest := fresh :: newest }

/-- Adds an item that nothing before it is joined to. -/
def push (c : Collector) (value : Value) : Collector := { c with newest := value :: c.newest }

def add (c : Collector) : Piece → Collector
  | .openBracket => { c.join "[" (.ofText "[") with joining := true }
  | .closeBracket => { c.join "]" (.ofText "]") with joining := false }
  | .token t => if c.joining then c.join t.text (t.value c.mapsNil) else c.push (t.value c.mapsNil)

def items (c : Collector) : List Value := c.newest.reverse

@[simp] theorem items_push (c : Collector) (value : Value) :
    (c.push value).items = c.items ++ [value] := by
  simp [push, items]

@[simp] theorem mapsNil_push (c : Collector) (value : Value) :
    (c.push value).mapsNil = c.mapsNil := rfl

@[simp] theorem joining_push (c : Collector) (value : Value) :
    (c.push value).joining = c.joining := rfl

@[simp] theorem mapsNil_join (c : Collector) (text : String) (fresh : Value) :
    (c.join text fresh).mapsNil = c.mapsNil := by
  unfold join; split <;> rfl

@[simp] theorem joining_join (c : Collector) (text : String) (fresh : Value) :
    (c.join text fresh).joining = c.joining := by
  unfold join; split <;> rfl

theorem add_token {c : Collector} (separate : c.joining = false) (t : Token) :
    c.add (.token t) = c.push (t.value c.mapsNil) := by
  simp [add, separate]

/-- An item that is lengthened keeps its place. -/
theorem items_join_atom {c : Collector} {before : List Value} {head : String} (text : String)
    (fresh : Value) (last : c.items = before ++ [.atom head false]) :
    (c.join text fresh).items = before ++ [.atom (head ++ text) false] := by
  have newest : c.newest = .atom head false :: before.reverse := by
    have := congrArg List.reverse last
    simpa [items] using this
  simp [join, newest, items]

theorem items_join_fresh {c : Collector} (text : String) (fresh : Value)
    (last : ∀ head, c.items.getLast? ≠ some (.atom head false)) :
    (c.join text fresh).items = c.items ++ [fresh] := by
  have newest : ∀ head, c.newest.head? ≠ some (.atom head false) := by
    simpa [items] using last
  unfold join
  split
  next head older same => exact absurd (by simp [same]) (newest head)
  next => simp [items]

/-- Only an atom that is not null can be lengthened; any other item stays as it is. -/
theorem mem_join (c : Collector) {text : String} {fresh v : Value}
    (whole : ∀ head, v ≠ .atom head false) (member : v ∈ c.newest) :
    v ∈ (c.join text fresh).newest := by
  unfold join
  split
  next head older same =>
    rw [same] at member
    have earlier := List.mem_of_ne_of_mem (whole head) member
    exact List.mem_cons_of_mem _ earlier
  next => exact List.mem_cons_of_mem _ member

theorem mem_add (c : Collector) (piece : Piece) {v : Value}
    (whole : ∀ head, v ≠ .atom head false) (member : v ∈ c.newest) : v ∈ (c.add piece).newest := by
  cases piece with
  | openBracket | closeBracket => exact c.mem_join whole member
  | token token =>
    rw [add]
    split
    · exact c.mem_join whole member
    · exact List.mem_cons_of_mem _ member

@[simp] theorem mapsNil_add (c : Collector) (piece : Piece) :
    (c.add piece).mapsNil = c.mapsNil := by
  cases piece with
  | openBracket | closeBracket => simp [add]
  | token t =>
    rw [add]
    split
    · exact mapsNil_join ..
    · exact mapsNil_push ..

end Collector

end ImapReply
