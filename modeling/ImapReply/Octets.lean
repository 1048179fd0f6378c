/-! Octets of a line: what each stands for, and text held in UTF-8. -/
namespace ImapReply

namespace Octet

abbrev space : UInt8 := 0x20
abbrev lineFeed : UInt8 := 0x0a
abbrev carriageReturn : UInt8 := 0x0d
abbrev openParen : UInt8 := 0x28
abbrev closeParen : UInt8 := 0x29
abbrev openBracket : UInt8 := 0x5b
abbrev closeBracket : UInt8 := 0x5d
abbrev openBrace : UInt8 := 0x7b
abbrev closeBrace : UInt8 := 0x7d
abbrev quote : UInt8 := 0x22
abbrev backslash : UInt8 := 0x5c
abbrev plus : UInt8 := 0x2b

/-- What an octet announces where a value may start. -/
inductive Role where
  | blank
  | openParen
  | closeParen
  | openBracket
  | closeBracket
  | quote
  | openBrace
  | plain
deriving DecidableEq, Repr

/-- Space, carriage return and line feed are blank. A tab is not. -/
def role (b : UInt8) : Role :=
  if b = space ∨ b = carriageReturn ∨ b = lineFeed then .blank
  else if b = openParen then .openParen
  else if b = closeParen then .closeParen
  else if b = openBracket then .openBracket
  else if b = closeBracket then .closeBracket
  else if b = quote then .quote
  else if b = openBrace then .openBrace
  else .plain

def isBlank (b : UInt8) : Bool := role b = .blank

/-- A delimiter ends a bare word. An opening brace does not: it is special only in front. -/
def isDelimiter (b : UInt8) : Bool := role b ≠ .plain ∧ role b ≠ .openBrace

def isDigit (b : UInt8) : Bool := 0x30 ≤ b ∧ b ≤ 0x39

def digitValue (b : UInt8) : Nat := b.toNat - 0x30

variable {b : UInt8}

theorem role_eq_blank_iff :
    role b = .blank ↔ b = space ∨ b = carriageReturn ∨ b = lineFeed := by
  grind [role]

/-- Octets that have a role to themselves. -/
def punctuation : List UInt8 := [openParen, closeParen, openBracket, closeBracket, quote, openBrace]

theorem mem_punctuation (sign : role b ≠ .blank ∧ role b ≠ .plain) : b ∈ punctuation := by
  grind [role, punctuation]

theorem eq_of_role_eq {c : UInt8} (first : b ∈ punctuation) (second : c ∈ punctuation)
    (same : role b = role c) : b = c := by
  have apart : punctuation.Pairwise (role · ≠ role ·) := by decide
  refine List.Pairwise.forall_of_forall_of_flip (R := fun b c => role b = role c → b = c)
    ?_ ?_ ?_ first second same
  · exact fun b _ _ => rfl
  · exact apart.imp fun different same => absurd same different
  · exact apart.imp fun different same => absurd same.symm different

theorem role_eq_role_iff (c : UInt8) (sign : role c ≠ .blank ∧ role c ≠ .plain) :
    role b = role c ↔ b = c := by
  refine ⟨fun same => ?_, fun same => same ▸ rfl⟩
  exact eq_of_role_eq (mem_punctuation (same ▸ sign)) (mem_punctuation sign) same

theorem role_eq_openParen_iff : role b = .openParen ↔ b = openParen :=
  role_eq_role_iff openParen (by decide)

theorem role_eq_closeParen_iff : role b = .closeParen ↔ b = closeParen :=
  role_eq_role_iff closeParen (by decide)

theorem role_eq_openBracket_iff : role b = .openBracket ↔ b = openBracket :=
  role_eq_role_iff openBracket (by decide)

theorem role_eq_closeBracket_iff : role b = .closeBracket ↔ b = closeBracket :=
  role_eq_role_iff closeBracket (by decide)

theorem role_eq_quote_iff : role b = .quote ↔ b = quote :=
  role_eq_role_iff quote (by decide)

theorem role_eq_openBrace_iff : role b = .openBrace ↔ b = openBrace :=
  role_eq_role_iff openBrace (by decide)

theorem digitValue_lt (digit : isDigit b) : digitValue b < 10 := by
  simp [isDigit, UInt8.le_iff_toNat_le] at digit
  unfold digitValue
  omega

end Octet

namespace Octets

/-- Text that the octets encode, if they are UTF-8. -/
def text? (octets : List UInt8) : Option String := String.fromUTF8? octets.toByteArray

def ofText (text : String) : List UInt8 := text.toUTF8.data.toList

theorem ofText_append (s t : String) : ofText (s ++ t) = ofText s ++ ofText t := by
  simp [ofText]

/-- UTF-8 leaves no choice: a text is read from its own octets and from no others. -/
theorem text?_eq_some_iff {octets : List UInt8} {text : String} :
    text? octets = some text ↔ octets = ofText text := by
  have asBytes : octets = ofText text ↔ octets.toByteArray = text.toByteArray := by
    rw [ofText, String.toUTF8_eq_toByteArray, ByteArray.ext_iff, List.data_toByteArray]
    exact ⟨fun h => by simp [h], fun h => by simp [← h]⟩
  rw [asBytes]
  unfold text? String.fromUTF8?
  split
  next valid => rw [Option.some_inj, ← String.toByteArray_inj]; rfl
  next invalid =>
    exact ⟨nofun, fun h => absurd (h ▸ text.isValidUTF8) invalid⟩

theorem text?_ofText (text : String) : text? (ofText text) = some text :=
  text?_eq_some_iff.mpr rfl

end Octets

end ImapReply
