import ImapReply.Proofs.Weight

/-! What values can look like. `NIL` never gets text, whatever brackets come after it. A list whose
inner lists are kept holds nothing but text, and lists that are read reach no deeper than the
limit. -/
namespace ImapReply

open Octet Octets

namespace Value

mutual
/-- Number of lists one in another, the value itself counted. -/
def depth : Value → Nat
  | .atom _ _ => 0
  | .list items => 1 + depths items
def depths : List Value → Nat
  | [] => 0
  | item :: later => max item.depth (depths later)
end

theorem depths_le_iff {items : List Value} {n : Nat} :
    depths items ≤ n ↔ ∀ item ∈ items, item.depth ≤ n := by
  induction items with
  | nil => simp [depths]
  | cons item later ih => rw [depths, Nat.max_le, ih, List.forall_mem_cons]

theorem depth_eq_zero_iff (v : Value) : v.depth = 0 ↔ v.isList = false := by
  cases v with
  | atom => simp [depth, isList]
  | list items =>
    rw [depth]
    simp [isList]

/-- No null atom in the value has text. -/
def Tidy (v : Value) : Prop := ∀ text, v.Holds text true → text = ""

theorem tidy_ofText (text : String) : (ofText text).Tidy := by
  intro held holds
  cases holds

theorem tidy_nil : nil.Tidy := by
  intro held holds
  cases holds
  rfl

theorem tidy_list {items : List Value} (tidy : ∀ item ∈ items, item.Tidy) :
    (list items).Tidy := by
  intro held holds
  cases holds with
  | inside member holds => exact tidy _ member held holds

/-- What a value can look like that is read from a line under these settings. -/
structure Regular (s : Settings) (v : Value) : Prop where
  tidy : v.Tidy
  /-- Inside a list only text is kept. -/
  kept : s.nesting = .verbatim → ∀ items, v = .list items →
    ∀ item ∈ items, ∃ text, item = .ofText text
  shallow : s.nesting = .recursive → v.depth ≤ s.maxDepth

end Value

/-- All lists that are read are such values. -/
def ListReader.Gives (P : Value → Prop) (list : ListReader) : Prop :=
  ∀ {p after : Point} {v : Value}, list p = .ok (v, after) → P v

section Collected

variable {P : Value → Prop} (texts : ∀ text, P (.ofText text))
include texts

theorem Token.value_all {mapsNil : Bool} (nil : mapsNil = true → P .nil) (token : Token) :
    P (token.value mapsNil) := by
  cases token with
  | bare text =>
    rw [value]
    split
    next bare => exact nil bare.1
    next => exact texts text
  | quoted text | literal text => exact texts text

/-- An item that is lengthened was text before and is text again. -/
theorem Collector.join_all {c : Collector} {text : String} {fresh : Value} (new : P fresh)
    (all : ∀ v ∈ c.newest, P v) : ∀ v ∈ (c.join text fresh).newest, P v := by
  unfold join
  split
  next head older same =>
    rw [same] at all
    exact List.forall_mem_cons.mpr ⟨texts _, (List.forall_mem_cons.mp all).2⟩
  next => exact List.forall_mem_cons.mpr ⟨new, all⟩

theorem Collector.add_all {c : Collector} (nil : c.mapsNil = true → P .nil) (piece : Piece)
    (all : ∀ v ∈ c.newest, P v) : ∀ v ∈ (c.add piece).newest, P v := by
  cases piece with
  | openBracket | closeBracket => exact join_all texts (texts _) all
  | token token =>
    have fresh := token.value_all texts nil
    rw [add]
    split
    · exact join_all texts fresh all
    · exact List.forall_mem_cons.mpr ⟨fresh, all⟩

variable {chunk : Nat} {list : ListReader} {c d : Collector} {p q : Point}

theorem Step.all (lists : list.Gives P) (nil : c.mapsNil = true → P .nil)
    (step : Step chunk list c p d q) (all : ∀ v ∈ c.newest, P v) : ∀ v ∈ d.newest, P v := by
  cases step with
  | @piece piece _ found => exact c.add_all texts nil piece all
  | list found read => exact List.forall_mem_cons.mpr ⟨lists read, all⟩

/-- What is true of every text, of every list that is read and of `NIL`, if `NIL` is told from
other words, is true of all that a walk collects. -/
theorem Walk.all (lists : list.Gives P) (nil : c.mapsNil = true → P .nil)
    (walk : Walk chunk list c p d q) (all : ∀ v ∈ c.newest, P v) : ∀ v ∈ d.items, P v := by
  have collected := walk.invariant (P := fun d _ => d.mapsNil = c.mapsNil ∧ ∀ v ∈ d.newest, P v)
    (fun step before => ⟨step.mapsNil.trans before.1,
      step.all texts lists (before.1 ▸ nil) before.2⟩) ⟨rfl, all⟩
  exact fun v member => collected.2 v (List.mem_reverse.mp member)

theorem Loop.items_all {opening after : Point} {mapsNil : Bool} {items : List Value}
    {readItems : Collector → Point → Except Fault (List Value × Point)}
    (loop : Loop chunk list (fun _ => endOfList opening) readItems) (lists : list.Gives P)
    (nil : mapsNil = true → P .nil) (read : readItems { mapsNil } p = .ok (items, after)) :
    ∀ v ∈ items, P v := by
  obtain ⟨d, q, walk, -, rfl⟩ := loop.eq_ok_iff.mp read
  exact walk.all texts lists nil (by simp)

end Collected

theorem VerbatimList.read_texts {chunk : Nat} {p after : Point} {items : List Value}
    (found : read chunk p = .ok (items, after)) : ∀ item ∈ items, ∃ text, item = .ofText text := by
  have kept : (ListReader.kept p).Gives fun v => ∃ text, v = .ofText text := by
    intro start later v read
    obtain ⟨text, -, rfl⟩ := ListReader.form_eq_ok_iff.mp read
    exact ⟨text, rfl⟩
  rw [read] at found
  exact (loop_readItems chunk p).items_all (fun text => ⟨text, rfl⟩) kept
    (fun bare => Bool.noConfusion bare) found

/-- A list that is entered with so much room reaches no deeper than that. -/
theorem RecursiveList.gives_nested (s : Settings) (room : Nat) :
    (ListReader.nested s room).Gives fun v => v.Tidy ∧ v.depth ≤ room := by
  induction room with
  | zero =>
    intro p after v found
    obtain ⟨items, list, -⟩ := ListReader.form_eq_ok_iff.mp found
    contradiction
  | succ room ih =>
    intro p after v found
    obtain ⟨items, list, rfl⟩ := ListReader.form_eq_ok_iff.mp found
    have all : ∀ item ∈ items, item.Tidy ∧ item.depth ≤ room :=
      (loop_readItems s room p).items_all
        (fun text => ⟨Value.tidy_ofText text, Nat.zero_le room⟩) ih
        (fun _ => ⟨Value.tidy_nil, Nat.zero_le room⟩) list
    refine ⟨Value.tidy_list fun item member => (all item member).1, ?_⟩
    rw [Value.depth, Nat.add_comm]
    exact Nat.succ_le_succ (Value.depths_le_iff.mpr fun item member => (all item member).2)

namespace Value

variable {s : Settings}

theorem regular_ofText (text : String) : (ofText text).Regular s where
  tidy := tidy_ofText text
  kept := fun _ _ same => Value.noConfusion same
  shallow := fun _ => Nat.zero_le _

theorem regular_nil : nil.Regular s where
  tidy := tidy_nil
  kept := fun _ _ same => Value.noConfusion same
  shallow := fun _ => Nat.zero_le _

end Value

theorem Line.gives_outermost (s : Settings) :
    (ListReader.outermost s).Gives fun v => v.Regular s := by
  intro p after v found
  obtain ⟨items, list, rfl⟩ := ListReader.form_eq_ok_iff.mp found
  unfold readList at list
  split at list
  next verbatim =>
    have texts := VerbatimList.read_texts list
    refine ⟨Value.tidy_list fun item member => ?_, fun _ _ same => ?_, fun recursive => ?_⟩
    · obtain ⟨text, rfl⟩ := texts item member
      exact Value.tidy_ofText text
    · obtain rfl := Value.list.inj same
      exact texts
    · rw [verbatim] at recursive
      contradiction
  next recursive =>
    obtain ⟨tidy, shallow⟩ := RecursiveList.gives_nested s s.maxDepth
      (ListReader.form_eq_ok_iff.mpr ⟨items, list, rfl⟩)
    refine ⟨tidy, fun verbatim => ?_, fun _ => shallow⟩
    rw [recursive] at verbatim
    contradiction

section Decoded

variable {s : Settings} {line : List UInt8} {values : List Value}

theorem regular_of_decode (decoded : decode s line = .ok values) : ∀ v ∈ values, v.Regular s := by
  obtain ⟨d, q, walk, -, rfl⟩ := Line.readValues_eq_ok_iff.mp (readValues_of_decode decoded)
  exact walk.all Value.regular_ofText (Line.gives_outermost s) (fun _ => Value.regular_nil)
    (by simp)

theorem tidy_of_expand {text : String} {isNull : Bool} {v : Value}
    (opens : (ofText text).head? = some openParen)
    (expanded : expand s (.atom text isNull) = .ok v) : v.Tidy := by
  obtain ⟨values, items, decoded, -, shape⟩ := expand_of_opens opens expanded
  have regular := regular_of_decode decoded
  rcases shape with ⟨rfl, -⟩ | rfl
  · exact (regular v (List.mem_singleton_self v)).tidy
  · exact Value.tidy_list fun item member => (regular item member).tidy

/-- Values of a line are regular, and where no list may be entered there is none. What an atom
expands to has no null atom with text in it either. -/
theorem decoded_values_regular (s : Settings) :
    (∀ line values, decode s line = .ok values →
      (∀ v ∈ values, v.Regular s) ∧
      (s.nesting = .recursive → s.maxDepth = 0 → ∀ v ∈ values, v.isList = false)) ∧
    ∀ text isNull v, (ofText text).head? = some openParen →
      expand s (.atom text isNull) = .ok v → v.Tidy := by
  refine ⟨fun line values decoded => ?_, fun text isNull v => tidy_of_expand⟩
  have regular := regular_of_decode decoded
  refine ⟨regular, fun recursive none v member => ?_⟩
  have shallow := (regular v member).shallow recursive
  rw [none] at shallow
  exact v.depth_eq_zero_iff.mp (Nat.le_zero.mp shallow)

/-- Brackets after `NIL` start an atom of their own. Inside a list that is kept `NIL` is a word, and
the brackets lengthen it. -/
theorem decoded_values_regular_sample :
    (∀ v ∈ [Value.nil, .ofText "[x]", .list [.ofText "NIL[y]", .ofText "((z))"]],
      v.Regular .standard) ∧
    (∀ v ∈ [Value.nil, .ofText "[x]"], v.isList = false) ∧
    (Value.list [.ofText "NIL[y]"]).Tidy := by
  have kept : decode .standard (ofText "NIL [x] (NIL [y] ((z)))") =
      .ok [.nil, .ofText "[x]", .list [.ofText "NIL[y]", .ofText "((z))"]] := by
    decide +kernel
  have flat : decode ⟨8, .recursive, none, 0⟩ (ofText "NIL [x]") =
      .ok [.nil, .ofText "[x]"] := by
    decide +kernel
  have expanded : expand .standard (.atom "(NIL [y])" true) = .ok (.list [.ofText "NIL[y]"]) := by
    decide +kernel
  refine ⟨((decoded_values_regular .standard).1 _ _ kept).1, ?_, ?_⟩
  · exact ((decoded_values_regular ⟨8, .recursive, none, 0⟩).1 _ _ flat).2 rfl rfl
  · exact (decoded_values_regular .standard).2 _ _ _ (by decide +kernel) expanded

end Decoded

end ImapReply
