/-! Values carried by a reply: atoms, `NIL` and parenthesized lists. -/
namespace ImapReply

/-- `NIL` is the null atom without text. It differs from the empty string, which is not null. -/
inductive Value where
  | atom (text : String) (isNull : Bool)
  | list (items : List Value)

namespace Value

def ofText (text : String) : Value := .atom text false

/-- The value of an unquoted `NIL`. -/
def nil : Value := .atom "" true

instance : Inhabited Value := ⟨nil⟩

/-- Text of an atom, null or not. -/
def text? : Value → Option String
  | .atom text _ => some text
  | .list _ => none

def items? : Value → Option (List Value)
  | .atom _ _ => none
  | .list items => some items

def isNil : Value → Bool
  | .atom _ isNull => isNull
  | .list _ => false

def isList : Value → Bool
  | .atom _ _ => false
  | .list _ => true

theorem text?_eq_none_iff (v : Value) : v.text? = none ↔ v.isList := by
  cases v <;> simp [text?, isList]

theorem items?_eq_some_iff (v : Value) (items : List Value) :
    v.items? = some items ↔ v = .list items := by
  cases v <;> simp [items?]

mutual
/-- Equality compares texts, null marks, and items in order. -/
def decEq : (a b : Value) → Decidable (a = b)
  | .atom s n, .atom t m =>
    if h : s = t ∧ n = m then isTrue (by rw [h.1, h.2])
    else isFalse fun same => h (by simpa using same)
  | .list xs, .list ys =>
    match decEqItems xs ys with
    | isTrue h => isTrue (congrArg Value.list h)
    | isFalse h => isFalse fun same => h (by simpa using same)
  | .atom _ _, .list _ => isFalse nofun
  | .list _, .atom _ _ => isFalse nofun
/-- Items are compared pairwise, and lists of different lengths differ. -/
def decEqItems : (xs ys : List Value) → Decidable (xs = ys)
  | [], [] => isTrue rfl
  | [], _ :: _ => isFalse nofun
  | _ :: _, [] => isFalse nofun
  | x :: xs, y :: ys =>
    match decEq x y, decEqItems xs ys with
    | isTrue hx, isTrue hxs => isTrue (by rw [hx, hxs])
    | isFalse hx, _ => isFalse fun same => hx (List.cons.inj same).1
    | _, isFalse hxs => isFalse fun same => hxs (List.cons.inj same).2
end

instance : DecidableEq Value := decEq

end Value

end ImapReply
