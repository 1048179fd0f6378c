import ImapReply.Value

/-! Values as tagged documents, the form in which they are stored and exchanged. An atom is written
with both its fields, so that `NIL` and the empty string stay apart. -/
namespace ImapReply

/-- A document has no opinion on what its parts mean. Fields stand in order. -/
inductive Document where
  | null
  | flag (value : Bool)
  /-- The mantissa divided by ten, as often as there are places. -/
  | number (mantissa : Int) (places : Nat)
  | string (value : String)
  | array (items : List Document)
  | object (fields : List (String × Document))

namespace Document

instance : Inhabited Document := ⟨null⟩

mutual
/-- One field names the kind of value and holds its contents. -/
def ofValue : Value → Document
  | .atom text isNull =>
    .object [("Atom", .object [("text", .string text), ("is_null", .flag isNull)])]
  | .list items => .object [("List", .array (ofValues items))]
def ofValues : List Value → List Document
  | [] => []
  | item :: items => ofValue item :: ofValues items
end

/-- Fields of an atom. Both must be there; others may be and are not looked at. -/
def atom? (fields : List (String × Document)) : Option Value :=
  match fields.lookup "text", fields.lookup "is_null" with
  | some (.string text), some (.flag isNull) => some (.atom text isNull)
  | _, _ => none

mutual
/-- The value that a document stands for, if it has the shape of one. -/
def toValue? : Document → Option Value
  | .object [(kind, contents)] =>
    match contents with
    | .object fields => if kind = "Atom" then atom? fields else none
    | .array items => if kind = "List" then (toValues? items).map .list else none
    | _ => none
  | _ => none
/-- One item without the right shape spoils the list. -/
def toValues? : List Document → Option (List Value)
  | [] => some []
  | item :: items =>
    match toValue? item, toValues? items with
    | some item, some items => some (item :: items)
    | _, _ => none
end

theorem toValue?_ofValue (v : Value) : (ofValue v).toValue? = some v := by
  induction v using Value.rec (motive_2 := fun vs => toValues? (ofValues vs) = some vs) with
  | atom text isNull => simp [ofValue, toValue?, atom?, List.lookup_cons]
  | list items ih => simp [ofValue, toValue?, ih]
  | nil => simp [ofValues, toValues?]
  | cons item items ihItem ihItems => simp [ofValues, toValues?, ihItem, ihItems]

end Document

end ImapReply
