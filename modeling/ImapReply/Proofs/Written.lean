import ImapReply.Proofs.Spelling

/-! Trees of strings as a server may write them. Each string chooses its own form; elements are one
space apart. -/
namespace ImapReply

open Octet Octets

namespace Quoted

def escapeChar (c : Char) : List Char := if c = '"' ∨ c = '\\' then ['\\', c] else [c]

def escape (text : String) : String := String.ofList (text.toList.flatMap escapeChar)

theorem escapeChar_plain {c : Char} (notQuote : c ≠ '"') (notBackslash : c ≠ '\\') :
    escapeChar c = [c] := by
  simp [escapeChar, notQuote, notBackslash]

theorem head?_escaped (cs : List Char) : (cs.flatMap escapeChar).head? ≠ some '"' := by
  cases cs with
  | nil => simp
  | cons c cs =>
    rw [List.flatMap_cons, escapeChar]
    split
    · simp
    next single => simpa using fun same => absurd (Or.inl same) single

def doubleBackslash (c : Char) : List Char := if c = '\\' then ['\\', '\\'] else [c]

theorem pass_quote_escaped (cs : List Char) :
    pass '"' (cs.flatMap escapeChar) = cs.flatMap doubleBackslash := by
  induction cs with
  | nil => rfl
  | cons c cs ih =>
    rw [List.flatMap_cons, List.flatMap_cons]
    by_cases isQuote : c = '"'
    · subst c
      exact (pass_pair '"' _).trans (congrArg ('"' :: ·) ih)
    by_cases isBackslash : c = '\\'
    · subst c
      have second := head?_escaped cs
      -- Neither backslash of the pair stands in front of a quote.
      change pass '"' ('\\' :: '\\' :: cs.flatMap escapeChar) =
        '\\' :: '\\' :: cs.flatMap doubleBackslash
      rw [pass_cons (by simp), pass_cons (by simpa using second), ih]
    · rw [escapeChar_plain isQuote isBackslash, List.singleton_append,
        pass_cons (by simp [isBackslash]), ih]
      simp [doubleBackslash, isBackslash]

theorem pass_backslash_doubled (cs : List Char) :
    pass '\\' (cs.flatMap doubleBackslash) = cs := by
  induction cs with
  | nil => rfl
  | cons c cs ih =>
    rw [List.flatMap_cons]
    by_cases isBackslash : c = '\\'
    · subst c
      exact (pass_pair '\\' _).trans (congrArg ('\\' :: ·) ih)
    · have single : doubleBackslash c = [c] := by simp [doubleBackslash, isBackslash]
      rw [single, List.singleton_append, pass_cons (by simp [isBackslash]), ih]

theorem unescape_escape (text : String) : unescape (escape text) = text := by
  rw [unescape, escape, String.toList_ofList, pass_quote_escaped, pass_backslash_doubled,
    String.ofList_toList]

theorem Content.append_plain {front back : List UInt8}
    (plain : ∀ b ∈ front, b ≠ quote ∧ b ≠ backslash) (rest : Content back) :
    Content (front ++ back) := by
  induction front with
  | nil => exact rest
  | cons b front ih =>
    obtain ⟨notQuote, notBackslash⟩ := plain b (by simp)
    exact .plain notQuote notBackslash (ih fun c member => plain c (by simp [member]))

theorem content_escape (text : String) : Content (ofText (escape text)) := by
  rw [escape, ofText_ofList]
  induction text.toList with
  | nil => exact .nil
  | cons c cs ih =>
    rw [List.flatMap_cons, List.flatMap_append]
    by_cases special : c = '"' ∨ c = '\\'
    · have ascii : c.toNat < 128 := by rcases special with rfl | rfl <;> decide
      have pair : (escapeChar c).flatMap String.utf8EncodeChar = [backslash, c.toUInt8] := by
        rw [escapeChar, if_pos special, List.flatMap_cons, List.flatMap_singleton,
          utf8EncodeChar_ascii ascii]
        rfl
      rw [pair]
      exact .pair _ ih
    · rw [not_or] at special
      rw [escapeChar_plain special.1 special.2, List.flatMap_singleton]
      refine Content.append_plain ?_ ih
      intro b member
      constructor
      · rintro rfl
        exact special.1 (Char.toNat_inj.mp (toNat_eq_of_mem_utf8EncodeChar (by decide) member))
      · rintro rfl
        exact special.2 (Char.toNat_inj.mp (toNat_eq_of_mem_utf8EncodeChar (by decide) member))

end Quoted

namespace Literal

theorem isDigit_toUInt8 {c : Char} (digit : c.isDigit = true) :
    isDigit c.toUInt8 = true ∧ digitValue c.toUInt8 = c.toNat - '0'.toNat ∧ c.toNat < 128 := by
  have bounds : 48 ≤ c.toNat ∧ c.toNat ≤ 57 := by
    simpa [Char.isDigit, UInt32.le_iff_toNat_le] using digit
  have same : c.toUInt8.toNat = c.toNat := toNat_toUInt8 (by omega)
  refine ⟨?_, ?_, by omega⟩
  · simp only [isDigit, UInt8.le_iff_toNat_le, same, decide_eq_true_eq]
    exact bounds
  · rw [digitValue, same]
    rfl

theorem lengthOf_toUInt8 {cs : List Char} (digits : ∀ c ∈ cs, c.isDigit = true) :
    lengthOf (cs.map Char.toUInt8) = Nat.ofDigitChars 10 cs 0 := by
  suffices general : ∀ value, (cs.map Char.toUInt8).foldl
      (fun value digit => 10 * value + digitValue digit) value =
      Nat.ofDigitChars 10 cs value from general 0
  induction cs with
  | nil => intro value; rfl
  | cons c cs ih =>
    intro value
    rw [List.map_cons, List.foldl_cons, Nat.ofDigitChars_cons,
      (isDigit_toUInt8 (digits c (by simp))).2.1]
    exact ih (fun d member => digits d (by simp [member])) _

theorem ofText_toString (n : Nat) :
    ofText (toString n) = (Nat.toDigits 10 n).map Char.toUInt8 := by
  rw [Nat.toString_eq_ofList_toDigits, ofText_ascii]
  intro c member
  exact (isDigit_toUInt8 (Nat.isDigit_of_mem_toDigits (by decide) (by decide) member)).2.2

theorem isNumeral_toString (n : Nat) : IsNumeral (ofText (toString n)) := by
  rw [ofText_toString]
  refine ⟨by simp [Nat.toDigits_ne_nil], ?_⟩
  intro d member
  obtain ⟨c, inside, rfl⟩ := List.mem_map.mp member
  exact (isDigit_toUInt8 (Nat.isDigit_of_mem_toDigits (by decide) (by decide) inside)).1

theorem lengthOf_toString (n : Nat) : lengthOf (ofText (toString n)) = n := by
  have digits : ∀ c ∈ Nat.toDigits 10 n, c.isDigit = true := fun c member =>
    Nat.isDigit_of_mem_toDigits (by decide) (by decide) member
  rw [ofText_toString, lengthOf_toUInt8 digits, Nat.ofDigitChars_ten_toDigits]

end Literal

/-- A form in which a string may be written. Only a text that is a word, and not `NIL`, can stand
bare; a literal must be of a length that a header can announce. -/
inductive Form (text : String) where
  | quoted
  | literal (signed : Bool) (fits : (ofText text).length ≤ Literal.maxLength)
  | bare (word : IsWord text) (notNil : text ≠ "NIL")

namespace Form

variable {text : String}

def written : Form text → String
  | .quoted => "\"" ++ Quoted.escape text ++ "\""
  | .literal signed _ =>
    "\x7b" ++ toString (ofText text).length ++ (if signed then "+\x7d" else "\x7d") ++ text
  | .bare _ _ => text

def token : Form text → Token
  | .quoted => .quoted text
  | .literal _ _ => .literal text
  | .bare _ _ => .bare text

theorem value_token (form : Form text) (mapsNil : Bool) :
    form.token.value mapsNil = .ofText text := by
  cases form with
  | quoted | literal => rfl
  | bare word notNil => simp [token, Token.value, notNil]

theorem spelled (form : Form text) : form.token.Spelled (ofText form.written) := by
  cases form with
  | quoted =>
    have octets : ofText (quoted : Form text).written =
        quote :: ofText (Quoted.escape text) ++ [quote] := by
      simp only [written, ofText_append]
      rfl
    have spelled := Token.Spelled.quoted (Quoted.content_escape text)
    rw [Quoted.unescape_escape] at spelled
    rw [octets]
    exact spelled
  | literal signed fits =>
    have octets : ofText (literal signed fits).written =
        Literal.headerOctets (ofText (toString (ofText text).length)) signed ++ ofText text := by
      cases signed <;> simp only [written, ofText_append, Literal.headerOctets] <;> rfl
    rw [octets]
    exact .literal signed (Literal.isNumeral_toString _) (Literal.lengthOf_toString _) fits
  | bare word notNil => exact .bare word

end Form

/-- A tree of strings, each with the form in which it is written. -/
inductive Written where
  | nil
  | string (text : String) (form : Form text)
  | list (items : List Written)

namespace Written

mutual
def text : Written → String
  | .nil => "NIL"
  | .string _ form => form.written
  | .list items => "(" ++ line items ++ ")"
/-- Elements one space apart. -/
def line : List Written → String
  | [] => ""
  | [item] => item.text
  | item :: next :: later => item.text ++ " " ++ line (next :: later)
end

mutual
def value : Written → Value
  | .nil => .nil
  | .string text _ => .ofText text
  | .list items => .list (values items)
def values : List Written → List Value
  | [] => []
  | item :: later => item.value :: values later
end

mutual
/-- Depth of the deepest list; an outermost list has depth one. -/
def depth : Written → Nat
  | .nil | .string _ _ => 0
  | .list items => depths items + 1
def depths : List Written → Nat
  | [] => 0
  | item :: later => max item.depth (depths later)
end

theorem values_eq_map (items : List Written) : values items = items.map value := by
  induction items with
  | nil => rfl
  | cons item later ih => rw [values, ih, List.map_cons]

theorem depths_le_iff {items : List Written} {bound : Nat} :
    depths items ≤ bound ↔ ∀ item ∈ items, item.depth ≤ bound := by
  induction items with
  | nil => simp [depths]
  | cons item later ih => rw [depths, Nat.max_le, ih, List.forall_mem_cons]

theorem isWord_nil : IsWord "NIL" where
  nonempty := by decide
  unbraced := by decide
  undelimited := by
    have all : (ofText "NIL").all (!isDelimiter ·) = true := by decide
    simpa using all

theorem ofText_list (items : List Written) :
    ofText (list items).text = openParen :: ofText (line items) ++ [closeParen] := by
  simp only [text, ofText_append]
  rfl

theorem ofText_line_cons (item next : Written) (later : List Written) :
    ofText (line (item :: next :: later)) =
      ofText item.text ++ space :: ofText (line (next :: later)) := by
  simp only [line, ofText_append, List.append_assoc]
  rfl

/-- In `items`, written one space apart, a list of this depth is opened at this offset. -/
inductive Opens : List Written → Nat → Nat → Prop
  | here {items later : List Written} : Opens (.list items :: later) 0 1
  | inside {items later : List Written} {offset depth : Nat} : Opens items offset depth →
      Opens (.list items :: later) (offset + 1) (depth + 1)
  | later {item : Written} {later : List Written} {offset depth : Nat} :
      Opens later offset depth →
      Opens (item :: later) ((ofText item.text).length + 1 + offset) depth

end Written

end ImapReply
