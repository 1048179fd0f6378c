import ImapReply.Proofs.Layout
import ImapReply.Proofs.Written

/-! What verbatim reading makes of written trees: lists are opened one level deep, and the lists in
them are kept letter by letter, to be opened one level further when asked for. -/
namespace ImapReply.Written

open Octet Octets

mutual
def element : Written → Element
  | .nil => .token (.bare "NIL")
  | .string _ form => .token form.token
  | .list items => .list (list items).text (elements items)
def elements : List Written → List Element
  | [] => []
  | item :: later => item.element :: elements later
end

/-- What stands for a tree inside a list: `NIL` is a word there, and a list is its own text. -/
def inner : Written → Value
  | .nil => .ofText "NIL"
  | .string text _ => .ofText text
  | .list items => .ofText (list items).text

/-- What stands for a tree outside all lists. -/
def outer : Written → Value
  | .nil => .nil
  | .string text _ => .ofText text
  | .list items => .list (items.map inner)

theorem inner_element (item : Written) : item.element.inner = item.inner := by
  cases item with
  | nil => rfl
  | string text form => exact form.value_token false
  | list items => simp only [element, Element.inner, inner]

theorem map_inner_elements (items : List Written) :
    (elements items).map Element.inner = items.map inner := by
  induction items with
  | nil => rfl
  | cons item later ih => rw [elements, List.map_cons, List.map_cons, inner_element, ih]

theorem outer_element (item : Written) : item.element.outer = item.outer := by
  cases item with
  | nil => rfl
  | string text form => exact form.value_token true
  | list items => rw [element, Element.outer, map_inner_elements, outer]

theorem map_outer_elements (items : List Written) :
    (elements items).map Element.outer = items.map outer := by
  induction items with
  | nil => rfl
  | cons item later ih => rw [elements, List.map_cons, List.map_cons, outer_element, ih]

mutual
theorem layout_text (item : Written) {behind : Option UInt8} {rest : List UInt8}
    {after : List Element} (announcing : Announcing behind) (bounded : Bounded rest)
    (onward : Layout (ofText item.text).getLast? rest after) :
    Layout behind (ofText item.text ++ rest) (item.element :: after) := by
  cases item with
  | nil => exact .token (.bare isWord_nil) (bounded.ends _) (announcing.placed _) onward
  | string text form => exact .token form.spelled (bounded.ends _) (announcing.placed _) onward
  | list items =>
    rw [ofText_list, List.getLast?_append] at onward
    exact .list (ofText_list items) (layout_line items (.inr (.inr rfl))) onward
theorem layout_line (items : List Written) {behind : Option UInt8}
    (announcing : Announcing behind) : Layout behind (ofText (line items)) (elements items) := by
  match items with
  | [] => exact .done
  | [item] =>
    have whole := layout_text item announcing bounded_nil .done
    rwa [List.append_nil] at whole
  | item :: next :: later =>
    rw [ofText_line_cons]
    have onward : Layout (some space) (ofText (line (next :: later))) (elements (next :: later)) :=
      layout_line (next :: later) (.inr (.inl rfl))
    exact layout_text item announcing (bounded_space _) (.blank isBlank_space onward)
end

/-- Verbatim reading opens lists one level deep, and expanding opens a kept list in the same way,
whatever strings it holds. -/
theorem decode_verbatim_written (chunk depth : Nat) (items : List Written) :
    decode ⟨chunk, .verbatim, none, depth⟩ (ofText (line items)) = .ok (items.map outer) ∧
    ∀ (inside : List Written) (isNull : Bool),
      expand ⟨chunk, .verbatim, none, depth⟩ (.atom (list inside).text isNull) =
        .ok (.list (inside.map inner)) := by
  constructor
  · rw [← map_outer_elements]
    exact decode_layout rfl rfl (layout_line items (.inl rfl))
  · intro inside isNull
    rw [← map_inner_elements]
    exact expand_layout rfl rfl (ofText_list inside) (layout_line inside (.inr (.inr rfl)))

end ImapReply.Written
