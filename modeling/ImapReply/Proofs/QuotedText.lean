import ImapReply.Proofs.CheckedToken

/-! What a quoted string stands for. Shortening quotes in one pass and backslashes in another comes
to the same as shortening both in a single pass, where a backslash always belongs to the character
behind it. -/
namespace ImapReply.Quoted

open Octet

/-- One pass from left to right. A backslash is left out where a quote or a backslash follows it;
with any other character it is kept. -/
def shorten : List Char → List Char
  | [] => []
  | [c] => [c]
  | c :: d :: after =>
    if c = '\\' then
      if d = '"' ∨ d = '\\' then d :: shorten after else c :: d :: shorten after
    else c :: shorten (d :: after)

variable {c : Char} {after : List Char}

theorem pass_plain (escaped : Char) (notBackslash : c ≠ '\\') :
    pass escaped (c :: after) = c :: pass escaped after :=
  pass_cons (by simp [notBackslash])

/-- Of a pair of backslashes neither goes in the first pass, unless a quote comes next. -/
theorem pass_backslashes (apart : after.head? ≠ some '"') :
    pass '\\' (pass '"' ('\\' :: '\\' :: after)) = '\\' :: pass '\\' (pass '"' after) := by
  have first : pass '"' ('\\' :: '\\' :: after) = '\\' :: '\\' :: pass '"' after := by
    rw [pass_cons (by simp), pass_cons (by simpa using apart)]
  rw [first, pass_pair]

theorem pass_pass_eq_shorten (text : List Char) : pass '\\' (pass '"' text) = shorten text := by
  fun_induction shorten text with
  | case1 => rfl
  | case2 c => rfl
  | case3 d after special ih =>
    rcases special with rfl | rfl
    · rw [pass_pair, pass_plain _ (by decide), ih]
    by_cases quoted : after.head? = some '"'
    · -- The second backslash goes with the quote, so the first is not one of a pair any more.
      obtain ⟨later, rfl⟩ := List.head?_eq_some_iff.mp quoted
      rw [pass_plain _ (by decide), pass_plain _ (by decide)] at ih
      rw [pass_cons (by simp), pass_pair, pass_cons (by simp), pass_plain _ (by decide), ih]
    · rw [pass_backslashes quoted, ih]
  | case4 d after special ih =>
    rw [not_or] at special
    rw [pass_cons (by simp [special.1]), pass_plain _ special.2, pass_cons (by simp [special.2]),
      pass_plain _ special.2, ih]
  | case5 c d after notBackslash ih =>
    rw [pass_plain _ notBackslash, pass_plain _ notBackslash, ih]

theorem unescape_eq_shorten (content : String) :
    unescape content = String.ofList (shorten content.toList) := by
  rw [unescape, pass_pass_eq_shorten]

/-- Where a string is closed and its content is text, reading gives the content shortened in a
single pass, as it gives it shortened in two, and goes on right behind the closing quote. So does
reading on the machine. -/
theorem read_eq_shorten {p : Point} {n : Nat} {content : String}
    (closed : contentLength (p.rest.drop 1) = some n)
    (isText : Octets.text? ((p.rest.drop 1).take n) = some content) :
    read p = .ok (String.ofList (shorten content.toList), p.skip (n + 2)) ∧
    unescape content = String.ofList (shorten content.toList) ∧
    p.line[p.offset + 1 + n]? = some quote ∧
    (p.skip (n + 2)).offset = p.offset + 1 + n + 1 ∧
    ∀ octets, p.Within octets → p.cursor.readQuoted octets =
      .ok (.quoted (String.ofList (shorten content.toList)), (p.skip (n + 2)).cursor) := by
  obtain ⟨raw, tail, start, -, rfl⟩ := contentLength_eq_some_iff.mp closed
  have closing : p.rest[1 + raw.length]? = some quote := by
    rw [← List.getElem?_drop, start, List.getElem?_append_right (Nat.le_refl _), Nat.sub_self]
    rfl
  have inside : raw.length + 2 ≤ p.rest.length := by
    have length := congrArg List.length start
    rw [List.length_drop, List.length_append, List.length_cons] at length
    omega
  have found : read p = .ok (String.ofList (shorten content.toList), p.skip (raw.length + 2)) := by
    simp only [read, closed, isText, unescape_eq_shorten]
  refine ⟨found, unescape_eq_shorten content, ?_, ?_, fun octets within => ?_⟩
  · rw [Nat.add_assoc, Point.getElem?_line, closing]
  · rw [Point.offset_skip_of_le inside]
    omega
  · rw [Cursor.readQuoted_eq within, found]
    rfl

/-- The string starts behind a word. In it stand a quote behind three backslashes, a backslash that
no pass touches, and a pair of backslashes right in front of the closing quote. -/
theorem read_eq_shorten_sample :
    read ⟨(Octets.ofText "a ").reverse, Octets.ofText "\"\\\\\\\"b\\c\\\\\" d"⟩ =
      .ok ("\\\"b\\c\\",
        ⟨(Octets.ofText "a \"\\\\\\\"b\\c\\\\\"").reverse, Octets.ofText " d"⟩) := by
  have closed : contentLength ((Octets.ofText "\"\\\\\\\"b\\c\\\\\" d").drop 1) = some 9 := by
    decide +kernel
  have isText : Octets.text? (((Octets.ofText "\"\\\\\\\"b\\c\\\\\" d").drop 1).take 9) =
      some "\\\\\\\"b\\c\\\\" := by
    decide +kernel
  have found := (read_eq_shorten (p := ⟨(Octets.ofText "a ").reverse, _⟩) closed isText).1
  have short : String.ofList (shorten "\\\\\\\"b\\c\\\\".toList) = "\\\"b\\c\\" := by
    decide +kernel
  rw [short] at found
  exact found

end ImapReply.Quoted
