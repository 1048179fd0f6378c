import ImapReply.Proofs.CheckedToken

/-! Where a quoted string ends. A search that passes over a backslash together with the octet behind
it, and may so go past the end of the line, stops at the first quote that has an even number of
backslashes right in front of it. -/
namespace ImapReply.Quoted

open Octet Checked

/-- Number of backslashes in a row at the end. -/
def backslashesAtEnd (octets : List UInt8) : Nat :=
  (octets.reverse.takeWhile (· = backslash)).length

/-- At `place` stands a quote that no backslash keeps: the run of backslashes right in front of it,
as far as it lies from `first` on, is made of pairs. -/
structure Unkept (octets : List UInt8) (first place : Nat) : Prop where
  behind : first ≤ place
  standing : octets[place]? = some quote
  paired : backslashesAtEnd ((octets.take place).drop first) % 2 = 0

/-- The least place from `first` on with a quote that no backslash keeps. -/
structure ClosesAt (octets : List UInt8) (first place : Nat) : Prop where
  unkept : Unkept octets first place
  least : ∀ earlier < place, ¬ Unkept octets first earlier

theorem ClosesAt.unique {octets : List UInt8} {first m n : Nat} (here : ClosesAt octets first m)
    (there : ClosesAt octets first n) : m = n :=
  Nat.le_antisymm (Nat.le_of_not_lt fun before => here.least n before there.unkept)
    (Nat.le_of_not_lt fun before => there.least m before here.unkept)

variable {octets after : List UInt8} {b : UInt8} {first place : Nat}

/-- An octet in front counts only if it is a backslash with nothing but backslashes behind it. -/
theorem backslashesAtEnd_cons (b : UInt8) (octets : List UInt8) :
    backslashesAtEnd (b :: octets) = backslashesAtEnd octets +
      if backslashesAtEnd octets = octets.length ∧ b = backslash then 1 else 0 := by
  unfold backslashesAtEnd
  rw [List.reverse_cons, List.takeWhile_append, List.length_reverse]
  by_cases all : (octets.reverse.takeWhile (· = backslash)).length = octets.length
  · by_cases slash : b = backslash <;> simp [all, slash]
  · simp [all]

theorem backslashesAtEnd_le (octets : List UInt8) : backslashesAtEnd octets ≤ octets.length := by
  rw [← List.length_reverse]
  exact (List.takeWhile_prefix _).length_le

/-- A backslash with the octet behind it leaves the number even or odd as it is. -/
theorem backslashesAtEnd_pair (b : UInt8) (octets : List UInt8) :
    backslashesAtEnd (backslash :: b :: octets) % 2 = backslashesAtEnd octets % 2 := by
  have bound := backslashesAtEnd_le octets
  rw [backslashesAtEnd_cons, backslashesAtEnd_cons b, List.length_cons]
  by_cases all : backslashesAtEnd octets = octets.length ∧ b = backslash
  · rw [if_pos all, if_pos ⟨congrArg (· + 1) all.1, rfl⟩, Nat.add_assoc, Nat.add_mod_right]
  · rw [if_neg all, Nat.add_zero, if_neg fun both => by omega, Nat.add_zero]

/-- What stands in front of `first` does not matter. -/
theorem unkept_drop : Unkept (octets.drop first) 0 place ↔ Unkept octets first (first + place) := by
  have front : ((octets.take (first + place)).drop first) = (octets.drop first).take place := by
    rw [List.drop_take, Nat.add_sub_cancel_left]
  constructor
  · rintro ⟨-, standing, paired⟩
    rw [List.getElem?_drop] at standing
    exact ⟨Nat.le_add_right _ _, standing, front ▸ paired⟩
  · rintro ⟨-, standing, paired⟩
    rw [← List.getElem?_drop] at standing
    exact ⟨Nat.zero_le _, standing, by rwa [List.drop_zero, ← front]⟩

theorem closesAt_drop {n : Nat} :
    ClosesAt (octets.drop first) 0 n ↔ ClosesAt octets first (first + n) := by
  constructor
  · rintro ⟨unkept, least⟩
    refine ⟨unkept_drop.mp unkept, fun earlier before other => ?_⟩
    obtain ⟨k, rfl⟩ := Nat.exists_eq_add_of_le other.behind
    exact least k (Nat.lt_of_add_lt_add_left before) (unkept_drop.mpr other)
  · rintro ⟨unkept, least⟩
    refine ⟨unkept_drop.mpr unkept, fun earlier before other => ?_⟩
    exact least (first + earlier) (Nat.add_lt_add_left before first) (unkept_drop.mp other)

theorem forall_not_unkept_drop :
    (∀ place, ¬ Unkept (octets.drop first) 0 place) ↔ ∀ place, ¬ Unkept octets first place := by
  constructor
  · intro kept place unkept
    obtain ⟨k, rfl⟩ := Nat.exists_eq_add_of_le unkept.behind
    exact kept k (unkept_drop.mpr unkept)
  · exact fun kept place unkept => kept _ (unkept_drop.mp unkept)

theorem unkept_zero : Unkept (b :: after) 0 0 ↔ b = quote :=
  ⟨fun unkept => Option.some.inj unkept.standing,
    fun same => ⟨Nat.le_refl 0, congrArg some same, rfl⟩⟩

/-- What a search for the closing quote may find. -/
def Finds (octets : List UInt8) : Option Nat → Prop
  | some place => ClosesAt octets 0 place
  | none => ∀ place, ¬ Unkept octets 0 place

/-- What leaves the number of backslashes even or odd as it is makes no difference behind it. -/
theorem unkept_append {front : List UInt8}
    (neutral : ∀ later, backslashesAtEnd (front ++ later) % 2 = backslashesAtEnd later % 2) :
    Unkept (front ++ after) 0 (front.length + place) ↔ Unkept after 0 place := by
  have standing : (front ++ after)[front.length + place]? = after[place]? := by
    rw [List.getElem?_append_right (Nat.le_add_right _ _), Nat.add_sub_cancel_left]
  have paired := neutral (after.take place)
  rw [← List.take_length_add_append] at paired
  constructor
  · intro unkept
    exact ⟨Nat.zero_le _, standing ▸ unkept.standing, paired ▸ unkept.paired⟩
  · intro unkept
    exact ⟨Nat.zero_le _, standing ▸ unkept.standing, paired ▸ unkept.paired⟩

/-- Such octets may be passed over if no quote among them ends the string. -/
theorem Finds.append {found : Option Nat} (front : List UInt8) (finds : Finds after found)
    (kept : ∀ place < front.length, ¬ Unkept (front ++ after) 0 place)
    (neutral : ∀ later, backslashesAtEnd (front ++ later) % 2 = backslashesAtEnd later % 2) :
    Finds (front ++ after) (found.map (front.length + ·)) := by
  have later {place : Nat} (unkept : Unkept (front ++ after) 0 place) :
      ∃ further, place = front.length + further ∧ Unkept after 0 further := by
    have behind : front.length ≤ place := Nat.le_of_not_lt fun before => kept place before unkept
    obtain ⟨further, rfl⟩ := Nat.exists_eq_add_of_le behind
    exact ⟨further, rfl, (unkept_append neutral).mp unkept⟩
  cases found with
  | none =>
    intro place unkept
    obtain ⟨further, -, still⟩ := later unkept
    exact finds further still
  | some place =>
    refine ⟨(unkept_append neutral).mpr finds.unkept, fun earlier before unkept => ?_⟩
    obtain ⟨further, rfl, still⟩ := later unkept
    exact finds.least further (Nat.lt_of_add_lt_add_left before) still

theorem finds_nil : Finds [] none := fun _ unkept => by cases unkept.standing

theorem finds_quote : Finds (quote :: after) (some 0) :=
  ⟨unkept_zero.mpr rfl, fun _ before => absurd before (Nat.not_lt_zero _)⟩

theorem Finds.plain {found : Option Nat} (finds : Finds after found) (notQuote : b ≠ quote)
    (notBackslash : b ≠ backslash) : Finds (b :: after) (found.map (1 + ·)) := by
  refine finds.append [b] (fun place before unkept => ?_) fun later => ?_
  · obtain rfl := Nat.lt_one_iff.mp before
    exact notQuote (unkept_zero.mp unkept)
  · rw [List.singleton_append, backslashesAtEnd_cons, if_neg fun both => notBackslash both.2,
      Nat.add_zero]

theorem Finds.pair {found : Option Nat} (finds : Finds after found) :
    Finds (backslash :: b :: after) (found.map (2 + ·)) := by
  refine finds.append [backslash, b] (fun place before unkept => ?_)
    (backslashesAtEnd_pair b)
  rcases Nat.le_one_iff_eq_zero_or_eq_one.mp (Nat.le_of_lt_succ before) with rfl | rfl
  · exact absurd (unkept_zero.mp unkept) (by decide)
  · -- One backslash stands in front of the second octet, which may be a quote.
    cases unkept.paired

theorem finds_lone : Finds [backslash] none := by
  intro place unkept
  cases place with
  | zero => exact absurd (unkept_zero.mp unkept) (by decide)
  | succ => cases unkept.standing

theorem finds_contentLength (octets : List UInt8) : Finds octets (contentLength octets) := by
  -- A pair that is passed over takes two octets at once, so the induction is on their number.
  induction length : octets.length using Nat.strongRecOn generalizing octets with
  | ind _ ih =>
    subst length
    cases octets with
    | nil => exact finds_nil
    | cons b after =>
      by_cases closing : b = quote
      · rw [closing, contentLength_quote]
        exact finds_quote
      by_cases slash : b = backslash
      · subst slash
        cases after with
        | nil => exact finds_lone
        | cons c later =>
          rw [contentLength_backslash]
          exact (ih _ (Nat.lt_succ_of_lt (Nat.lt_add_one _)) later rfl).pair
      · rw [contentLength_plain after closing slash]
        exact (ih _ (Nat.lt_add_one _) after rfl).plain closing slash

theorem contentLength_iff {n : Nat} : contentLength octets = some n ↔ ClosesAt octets 0 n := by
  have finds := finds_contentLength octets
  constructor
  · intro found
    rw [found] at finds
    exact finds
  · intro closes
    cases found : contentLength octets with
    | none =>
      rw [found] at finds
      exact absurd closes.unkept (finds n)
    | some m =>
      rw [found] at finds
      exact congrArg some (finds.unique closes)

theorem contentLength_eq_none_iff :
    contentLength octets = none ↔ ∀ place, ¬ Unkept octets 0 place := by
  constructor
  · intro none
    have finds := finds_contentLength octets
    rw [none] at finds
    exact finds
  · intro kept
    cases found : contentLength octets with
    | none => rfl
    | some n => exact absurd (contentLength_iff.mp found).unkept (kept n)

/-- A search that comes to the place behind the content, or to a failure where no content ends. -/
theorem search_iff {ε : Type} {failure : ε} {result : Except ε Nat}
    (closed : ∀ n, contentLength (octets.drop first) = some n → result = .ok (first + n + 1))
    (unclosed : contentLength (octets.drop first) = none → result = .error failure) :
    (∀ place, result = .ok (place + 1) ↔ ClosesAt octets first place) ∧
    (result = .error failure ↔ ∀ place, ¬ Unkept octets first place) := by
  rw [← forall_not_unkept_drop, ← contentLength_eq_none_iff]
  cases found : contentLength (octets.drop first) with
  | none =>
    have kept := forall_not_unkept_drop.mp (contentLength_eq_none_iff.mp found)
    rw [unclosed found]
    refine ⟨fun place => ⟨fun same => ?_, fun closes => ?_⟩, by simp⟩
    · contradiction
    · exact absurd closes.unkept (kept place)
  | some n =>
    have closes := closesAt_drop.mp (contentLength_iff.mp found)
    rw [closed n found]
    refine ⟨fun place => ⟨fun same => ?_, fun there => ?_⟩, by simp⟩
    · obtain rfl := Nat.succ.inj (Except.ok.inj same)
      exact closes
    · obtain rfl := closes.unique there
      rfl

/-- The search from a quote at the point ends behind the first quote after it that no backslash
keeps, and where there is none the string is unterminated. The same is true of the search on the
machine. Neither looks at what stands at the point itself. -/
theorem search_ends_at_first_unkept (p : Point) :
    (∀ place, (p.offset + ·) <$> extent p = .ok (place + 1) ↔
      ClosesAt p.line (p.offset + 1) place) ∧
    (extent p = .error (.unterminatedQuoted p.offset) ↔
      ∀ place, ¬ Unkept p.line (p.offset + 1) place) ∧
    ∀ octets, p.Within octets →
      (∀ place, Cursor.quotedEnd octets p.offset = .ok (place + 1) ↔
        ClosesAt octets (p.offset + 1) place) ∧
      (Cursor.quotedEnd octets p.offset = fault (.unterminatedQuoted p.offset) ↔
        ∀ place, ¬ Unkept octets (p.offset + 1) place) := by
  have opened : p.rest.drop 1 = p.line.drop (p.offset + 1) := by
    rw [← List.drop_drop, Point.drop_offset_line]
  have place (n : Nat) : p.offset + (n + 2) = p.offset + 1 + n + 1 := by omega
  have failed : extent p = .error (.unterminatedQuoted p.offset) ↔
      (p.offset + ·) <$> extent p = .error (.unterminatedQuoted p.offset) := by
    cases extent p <;> simp
  rw [failed, ← and_assoc]
  refine ⟨search_iff (fun n found => ?_) (fun none => ?_), fun octets within => ?_⟩
  · rw [extent, opened, found]
    exact congrArg Except.ok (place n)
  · rw [extent, opened, none]
    rfl
  · rw [Cursor.quotedEnd_eq within, opened, within.line]
    refine search_iff (fun n found => ?_) (fun none => ?_)
    · rw [found]
      exact congrArg Except.ok (place n)
    · rw [none]
      rfl

/-- Three backslashes keep the quote behind them and two do not. In the other line they are the last
octets, and the search goes past the end. -/
theorem search_ends_at_first_unkept_sample :
    ClosesAt (Octets.ofText "a \"b\\\\\\\"c\\\\\" d") 3 11 ∧
    Cursor.quotedEnd (Octets.ofText "a \"b\\\\\\\"c\\\\\" d") 2 = .ok 12 ∧
    ∀ place, ¬ Unkept (Octets.ofText "\"x\\\"\\\\\\") 1 place := by
  let p : Point := ⟨(Octets.ofText "a ").reverse, Octets.ofText "\"b\\\\\\\"c\\\\\" d"⟩
  have within : p.Within (Octets.ofText "a \"b\\\\\\\"c\\\\\" d") :=
    ⟨by decide +kernel, by decide +kernel⟩
  obtain ⟨closed, -, machine⟩ := search_ends_at_first_unkept p
  have closes : ClosesAt p.line 3 11 := (closed 11).mp (by decide +kernel)
  rw [within.line] at closes
  have unclosed := (search_ends_at_first_unkept
    (.start (Octets.ofText "\"x\\\"\\\\\\"))).2.1.mp (by decide +kernel)
  exact ⟨closes, ((machine _ within).1 11).mpr closes, unclosed⟩

end ImapReply.Quoted
