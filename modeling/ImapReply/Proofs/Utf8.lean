import ImapReply.Octets

/-! UTF-8 seen octet by octet. An octet below 128 is a whole character, so octets that are special
in a line never turn up inside the code of another character. -/
namespace ImapReply.Octets

theorem ofText_ofList (cs : List Char) :
    ofText (String.ofList cs) = cs.flatMap String.utf8EncodeChar := by
  rw [ofText, String.toUTF8_eq_toByteArray, String.toByteArray_ofList, List.utf8Encode,
    List.data_toByteArray]

theorem ofText_eq_nil_iff {text : String} : ofText text = [] ↔ text = "" := by
  have empty : ofText "" = [] := rfl
  constructor
  · intro none
    have read := text?_ofText text
    rw [none, ← empty, text?_ofText] at read
    exact (Option.some.inj read).symm
  · rintro rfl
    exact empty

theorem toNat_toUInt8 {c : Char} (ascii : c.toNat < 128) : c.toUInt8.toNat = c.toNat := by
  have wraps : c.toUInt8.toNat = c.toNat % 256 := rfl
  omega

theorem utf8EncodeChar_ascii {c : Char} (ascii : c.toNat < 128) :
    String.utf8EncodeChar c = [c.toUInt8] := by
  apply String.utf8EncodeChar_eq_singleton
  rw [Char.utf8Size_eq_one_iff, UInt32.le_iff_toNat_le]
  exact Nat.le_of_lt_succ ascii

theorem le_of_mem_utf8EncodeChar {c : Char} {b : UInt8} (beyond : 128 ≤ c.toNat)
    (member : b ∈ String.utf8EncodeChar c) : 128 ≤ b.toNat := by
  have large : ¬ c.val.toNat ≤ 127 := by rw [Char.toNat_val]; omega
  simp only [String.utf8EncodeChar, large, ite_false] at member
  split at member
  · simp only [List.mem_cons, List.not_mem_nil, or_false] at member
    rcases member with rfl | rfl <;> simp only [UInt8.toNat_ofNat'] <;> omega
  split at member
  · simp only [List.mem_cons, List.not_mem_nil, or_false] at member
    rcases member with rfl | rfl | rfl <;> simp only [UInt8.toNat_ofNat'] <;> omega
  · simp only [List.mem_cons, List.not_mem_nil, or_false] at member
    rcases member with rfl | rfl | rfl | rfl <;> simp only [UInt8.toNat_ofNat'] <;> omega

/-- The only character whose code holds an octet below 128 is the one with that number. -/
theorem toNat_eq_of_mem_utf8EncodeChar {c : Char} {b : UInt8} (ascii : b.toNat < 128)
    (member : b ∈ String.utf8EncodeChar c) : c.toNat = b.toNat := by
  by_cases small : c.toNat < 128
  · rw [utf8EncodeChar_ascii small, List.mem_singleton] at member
    rw [member, toNat_toUInt8 small]
  · have := le_of_mem_utf8EncodeChar (by omega) member
    omega

/-- Characters below 128 take one octet each. -/
theorem ofText_ascii {cs : List Char} (ascii : ∀ c ∈ cs, c.toNat < 128) :
    ofText (String.ofList cs) = cs.map Char.toUInt8 := by
  rw [ofText_ofList]
  induction cs with
  | nil => rfl
  | cons c cs ih =>
    rw [List.flatMap_cons, utf8EncodeChar_ascii (ascii c (by simp)),
      ih fun d member => ascii d (by simp [member])]
    rfl

/-- Whether octets are the code of some text. -/
def IsText (octets : List UInt8) : Prop := ∃ text, ofText text = octets

theorem isText_ofText (text : String) : IsText (ofText text) := ⟨text, rfl⟩

theorem IsText.append {front back : List UInt8} (first : IsText front) (second : IsText back) :
    IsText (front ++ back) := by
  rcases first with ⟨s, rfl⟩
  rcases second with ⟨t, rfl⟩
  exact ⟨s ++ t, ofText_append s t⟩

theorem not_isText_of_text? {octets : List UInt8} (unread : text? octets = none) :
    ¬ IsText octets := by
  rintro ⟨text, rfl⟩
  rw [text?_ofText] at unread
  contradiction

/-- Octets below 128 encode one character each. -/
theorem isText_ascii {octets : List UInt8} (ascii : ∀ b ∈ octets, b.toNat < 128) :
    IsText octets := by
  induction octets with
  | nil => exact isText_ofText ""
  | cons b octets ih =>
    have small : (Char.ofUInt8 b).toNat < 128 := ascii b (by simp)
    have first : ofText (String.ofList [Char.ofUInt8 b]) = [b] := by
      rw [ofText_ascii (by simpa using small)]
      exact congrArg (· :: []) (UInt8.toNat_inj.mp (Nat.mod_eq_of_lt b.toNat_lt))
    have head : IsText [b] := ⟨_, first⟩
    exact head.append (ih fun d member => ascii d (by simp [member]))

/-- The code of a character is not cut by an octet below 128: what lies before such an octet is
text, and so is what lies behind it. -/
theorem IsText.split {front tail : List UInt8} {b : UInt8} (ascii : b.toNat < 128)
    (whole : IsText (front ++ b :: tail)) : IsText front ∧ IsText tail := by
  obtain ⟨text, same⟩ := whole
  obtain ⟨cs, rfl⟩ : ∃ cs, text = String.ofList cs := ⟨text.toList, by simp⟩
  rw [ofText_ofList] at same
  induction cs generalizing front with
  | nil => simp at same
  | cons c cs ih =>
    have later : IsText (cs.flatMap String.utf8EncodeChar) := ⟨_, ofText_ofList cs⟩
    have first : IsText (String.utf8EncodeChar c) :=
      ⟨String.ofList [c], by rw [ofText_ofList, List.flatMap_singleton]⟩
    rw [List.flatMap_cons] at same
    rcases List.append_eq_append_iff.mp same with ⟨between, rfl, onward⟩ | ⟨between, code, onward⟩
    · obtain ⟨before, after⟩ := ih onward
      exact ⟨first.append before, after⟩
    · -- Either the octet starts the next character or it is a character by itself.
      cases between with
      | nil =>
        rw [List.append_nil] at code
        have next : cs.flatMap String.utf8EncodeChar = [] ++ b :: tail := onward.symm
        exact ⟨code ▸ first, (ih next).2⟩
      | cons d between =>
        obtain ⟨rfl, rfl⟩ := List.cons.inj onward
        have member : b ∈ String.utf8EncodeChar c := by simp [code]
        have small : c.toNat < 128 := toNat_eq_of_mem_utf8EncodeChar ascii member ▸ ascii
        rw [utf8EncodeChar_ascii small, eq_comm, List.append_eq_singleton_iff] at code
        rcases code with ⟨rfl, single⟩ | ⟨-, none⟩
        · obtain ⟨-, rfl⟩ := List.cons.inj single
          exact ⟨isText_ofText "", later⟩
        · contradiction

theorem IsText.of_cons {tail : List UInt8} {b : UInt8} (ascii : b.toNat < 128)
    (whole : IsText (b :: tail)) : IsText tail := by
  have front : IsText ([] ++ b :: tail) := whole
  exact (front.split ascii).2

theorem IsText.of_append {front tail : List UInt8} (ascii : ∀ b ∈ front, b.toNat < 128)
    (whole : IsText (front ++ tail)) : IsText tail := by
  induction front with
  | nil => exact whole
  | cons b front ih =>
    exact ih (fun c member => ascii c (by simp [member])) (whole.of_cons (ascii b (by simp)))

end ImapReply.Octets
