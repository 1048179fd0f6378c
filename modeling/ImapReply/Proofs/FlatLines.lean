import ImapReply.Proofs.Exchange
import Mathlib.Control.Monad.Basic

/-! Lines in which no list stands inside another. Keeping the lists inside and reading them are then
one and the same, but for a bare `NIL` in a list: only where lists are read does it become null,
and a bracket behind it is not joined to it then. -/
namespace ImapReply

open Octet Octets

namespace Value

/-- The value with the items of a list left out. -/
def hollow : Value → Value
  | .atom text isNull => .atom text isNull
  | .list _ => .list []

/-- No list among the values holds a `NIL`. -/
def NilFree (values : List Value) : Prop := ∀ items, .list items ∈ values → .nil ∉ items

end Value

/-- Where a bare `NIL` does not become null, it makes no difference whether it could. -/
theorem Token.value_unmapped {t : Token} (nonnull : t.value true ≠ .nil) :
    t.value false = t.value true := by
  cases t with
  | quoted | literal => rfl
  | bare text =>
    by_cases isNil : text = "NIL"
    · exact absurd (by simp [value, isNil]) nonnull
    · simp [value, isNil]

namespace Collector

variable {c d : Collector}

theorem joining_add_congr (same : d.joining = c.joining) (piece : Piece) :
    (d.add piece).joining = (c.add piece).joining := by
  cases piece with
  | openBracket | closeBracket => rfl
  | token t =>
    rw [add, add, same]
    split
    · rw [joining_join, joining_join, same]
    · rw [joining_push, joining_push, same]

theorem newest_join_congr (same : d.newest = c.newest) (text : String) (fresh : Value) :
    (d.join text fresh).newest = (c.join text fresh).newest := by
  unfold join
  rw [same]
  split <;> rfl

/-- Where a text is joined to an item, it does not matter what would have been added otherwise. -/
theorem newest_join_of {text : String} {fresh other : Value}
    (joined : fresh ∉ (c.join text fresh).newest) :
    (c.join text other).newest = (c.join text fresh).newest := by
  unfold join at joined ⊢
  split
  next => rfl
  next single =>
    split at joined
    next atom => exact absurd atom (single _ _)
    next => exact absurd List.mem_cons_self joined

/-- The other collector has the same items as long as this one, which maps `NIL`, has no null
one. -/
structure Echoes (c d : Collector) : Prop where
  maps : c.mapsNil = true
  keeps : d.mapsNil = false
  joining : d.joining = c.joining
  newest : .nil ∉ c.newest → d.newest = c.newest

theorem Echoes.newest_token (echoes : c.Echoes d) (same : d.newest = c.newest) {t : Token}
    (nonnull : .nil ∉ (c.add (.token t)).newest) :
    (d.add (.token t)).newest = (c.add (.token t)).newest := by
  rw [add, echoes.maps] at nonnull
  rw [add, add, echoes.joining, echoes.maps, echoes.keeps]
  by_cases null : t.value true = .nil
  · rw [null] at nonnull ⊢
    split at nonnull
    next joining =>
      rw [if_pos joining, if_pos joining, newest_join_congr same, newest_join_of nonnull]
    next => exact absurd List.mem_cons_self nonnull
  · rw [Token.value_unmapped null]
    split
    · exact newest_join_congr same _ _
    · rw [push, push, same]

theorem Echoes.add (echoes : c.Echoes d) (piece : Piece) : (c.add piece).Echoes (d.add piece) where
  maps := by rw [mapsNil_add, echoes.maps]
  keeps := by rw [mapsNil_add, echoes.keeps]
  joining := joining_add_congr echoes.joining piece
  newest := by
    intro nonnull
    have before : .nil ∉ c.newest := fun null =>
      nonnull (c.mem_add piece (fun _ same => by cases same) null)
    have same := echoes.newest before
    cases piece with
    | openBracket | closeBracket => exact newest_join_congr same _ _
    | token t => exact echoes.newest_token same nonnull

theorem Echoes.items (echoes : c.Echoes d) (nonnull : .nil ∉ c.items) : d.items = c.items := by
  rw [Collector.items, List.mem_reverse] at nonnull
  rw [Collector.items, Collector.items, echoes.newest nonnull]

/-- The other collector has the same items, but for those of lists that hold a `NIL`. -/
structure Accords (c d : Collector) : Prop where
  mapsNil : d.mapsNil = c.mapsNil
  joining : d.joining = c.joining
  hollow : d.newest.map Value.hollow = c.newest.map Value.hollow
  newest : Value.NilFree c.newest → d.newest = c.newest

theorem hollow_join (c : Collector) (text : String) (fresh : Value) :
    (c.join text fresh).newest.map Value.hollow =
      match c.newest.map Value.hollow with
      | .atom head false :: older => .atom (head ++ text) false :: older
      | newest => fresh.hollow :: newest := by
  unfold join
  cases c.newest with
  | nil => rfl
  | cons last older =>
    cases last with
    | list => rfl
    | atom head isNull => cases isNull <;> rfl

theorem Accords.hollow_add (accords : c.Accords d) (piece : Piece) :
    (d.add piece).newest.map Value.hollow = (c.add piece).newest.map Value.hollow := by
  have joined (text : String) (fresh : Value) :
      (d.join text fresh).newest.map Value.hollow =
        (c.join text fresh).newest.map Value.hollow := by
    rw [hollow_join, hollow_join, accords.hollow]
  cases piece with
  | openBracket | closeBracket => exact joined _ _
  | token t =>
    rw [add, add, accords.joining, accords.mapsNil]
    split
    · exact joined _ _
    · rw [push, push, List.map_cons, List.map_cons, accords.hollow]

theorem Accords.add (accords : c.Accords d) (piece : Piece) :
    (c.add piece).Accords (d.add piece) where
  mapsNil := by rw [mapsNil_add, mapsNil_add, accords.mapsNil]
  joining := joining_add_congr accords.joining piece
  hollow := accords.hollow_add piece
  newest := by
    intro nilFree
    have before : Value.NilFree c.newest := fun items member =>
      nilFree items (c.mem_add piece (fun _ => Value.noConfusion) member)
    obtain ⟨mapsNil, joining, newest⟩ := c
    obtain ⟨_, _, _⟩ := d
    obtain ⟨rfl, rfl, -, same⟩ := accords
    obtain rfl := same before
    rfl

theorem Accords.push (accords : c.Accords d) {v w : Value} (hollow : w.hollow = v.hollow)
    (same : Value.NilFree [v] → w = v) : (c.push v).Accords (d.push w) where
  mapsNil := accords.mapsNil
  joining := accords.joining
  hollow := by rw [Collector.push, Collector.push, List.map_cons, List.map_cons, hollow,
    accords.hollow]
  newest := by
    intro nilFree
    have first : Value.NilFree [v] := fun items member =>
      nilFree items (List.mem_singleton.mp member ▸ List.mem_cons_self)
    have before : Value.NilFree c.newest := fun items member =>
      nilFree items (List.mem_cons_of_mem v member)
    rw [Collector.push, Collector.push, same first, accords.newest before]

end Collector

/-- The settings with the lowest limit on depth: a list may be opened, but none inside it. -/
def Settings.shallow (s : Settings) (nesting : Nesting) : Settings :=
  { s with nesting, maxDepth := 1 }

/-- A reading that no list inside another has stopped. -/
def Unstopped {α : Type} (reading : Except Fault α) : Prop :=
  ∀ position max, reading ≠ .error (.nestingTooDeep position max)

variable {s : Settings} {chunk : Nat} {c d c' : Collector} {p q : Point}

/-- Where no list may be opened, all that a walk takes in are pieces. -/
theorem Walk.echoes (opening : Point) (walk : Walk chunk (.nested s 0) c p d q)
    (echoes : c.Echoes c') : ∃ d', Walk chunk (.kept opening) c' p d' q ∧ d.Echoes d' := by
  induction walk generalizing c' with
  | here => exact ⟨c', .here, echoes⟩
  | step step _ ih =>
    cases step with
    | piece found =>
      obtain ⟨d', walk, there⟩ := ih (echoes.add _)
      exact ⟨d', .step (.piece found) walk, there⟩
    | list found read => contradiction

/-- What is kept of a list is what is read of it, if no `NIL` is. -/
structure SameList (found again : List Value × Point) : Prop where
  after : again.2 = found.2
  items : .nil ∉ found.1 → again.1 = found.1

theorem read_flat (unstopped : Unstopped (RecursiveList.read s 1 p)) :
    Agrees SameList (RecursiveList.read s 1 p) (VerbatimList.read s.literalChunk p) := by
  obtain ⟨d, q, halt, walk, halts, read⟩ :=
    (RecursiveList.loop_readItems s 0 p).exists_walk { mapsNil := true } (p.skip 1)
  have start : Collector.Echoes { mapsNil := true } { mapsNil := false } :=
    ⟨rfl, rfl, rfl, fun _ => rfl⟩
  obtain ⟨d', kept, echoes⟩ := walk.echoes p start
  have again {halt : Halt} (halts : Halts s.literalChunk (.kept p) q halt) :
      VerbatimList.read s.literalChunk p = endOfList p d'.items halt :=
    (VerbatimList.loop_readItems s.literalChunk p).eq_of_walk kept halts
  have read : RecursiveList.read s 1 p = endOfList p d.items halt := read
  rw [read] at unstopped ⊢
  cases halts with
  | finished found => exact again (.finished found)
  | closing found => exact ⟨_, again (.closing found), rfl, echoes.items⟩
  | lexeme failed => exact again (.lexeme failed)
  | list found failed =>
    obtain rfl := Except.error.inj failed
    exact absurd rfl (unstopped _ _)

/-- What a list outside of others is kept as is what it is read as, but for its items if one of them
is `NIL`. -/
structure SameValue (found again : Value × Point) : Prop where
  after : again.2 = found.2
  hollow : again.1.hollow = found.1.hollow
  value : Value.NilFree [found.1] → again.1 = found.1

theorem outermost_flat (unstopped : Unstopped (ListReader.outermost (s.shallow .recursive) p)) :
    Agrees SameValue (ListReader.outermost (s.shallow .recursive) p)
      (ListReader.outermost (s.shallow .verbatim) p) := by
  have given : Unstopped (RecursiveList.read (s.shallow .recursive) 1 p) :=
    fun position max failed => unstopped position max (ListReader.form_eq_error_iff.mpr failed)
  have lists := read_flat given
  change Agrees SameValue (ListReader.form .list (RecursiveList.read (s.shallow .recursive) 1 p))
    (ListReader.form .list (VerbatimList.read s.literalChunk p))
  cases found : RecursiveList.read (s.shallow .recursive) 1 p with
  | error fault =>
    rw [found] at lists
    exact ListReader.form_eq_error_iff.mpr lists
  | ok result =>
    rw [found] at lists
    obtain ⟨again, kept, same⟩ := lists
    refine ⟨_, ListReader.form_eq_ok_iff.mpr ⟨_, kept, rfl⟩, same.after, rfl, fun nilFree => ?_⟩
    exact congrArg Value.list (same.items (nilFree _ List.mem_cons_self))

theorem unstopped_ok {α : Type} {reading : Except Fault α} {found : α}
    (read : reading = .ok found) : Unstopped reading := by
  rintro position max failed
  rw [read] at failed
  contradiction

theorem Walk.accords (walk : Walk chunk (.outermost (s.shallow .recursive)) c p d q)
    (accords : c.Accords c') :
    ∃ d', Walk chunk (.outermost (s.shallow .verbatim)) c' p d' q ∧ d.Accords d' := by
  induction walk generalizing c' with
  | here => exact ⟨c', .here, accords⟩
  | step step _ ih =>
    cases step with
    | piece found =>
      obtain ⟨d', walk, there⟩ := ih (accords.add _)
      exact ⟨d', .step (.piece found) walk, there⟩
    | list found read =>
      have lists := outermost_flat (unstopped_ok read)
      rw [read] at lists
      obtain ⟨⟨again, _⟩, kept, rfl, hollow, value⟩ := lists
      obtain ⟨d', walk, there⟩ := ih (accords.push hollow value)
      exact ⟨d', .step (.list found kept) walk, there⟩

/-- The values have the same atoms in the same places and lists in the others, and lists without
`NIL` have the same items. -/
structure SameButNil (values others : List Value) : Prop where
  hollow : others.map Value.hollow = values.map Value.hollow
  values : Value.NilFree values → others = values

theorem Collector.Accords.items (accords : c.Accords d) : SameButNil c.items d.items where
  hollow := by rw [Collector.items, Collector.items, List.map_reverse, List.map_reverse,
    accords.hollow]
  values := by
    intro nilFree
    have newest : Value.NilFree c.newest := fun items member =>
      nilFree items (List.mem_reverse.mpr member)
    rw [Collector.items, Collector.items, accords.newest newest]

theorem readValues_flat (accords : c.Accords c')
    (unstopped : Unstopped (Line.readValues (s.shallow .recursive) c p)) :
    Agrees SameButNil (Line.readValues (s.shallow .recursive) c p)
      (Line.readValues (s.shallow .verbatim) c' p) := by
  obtain ⟨d, q, halt, walk, halts, read⟩ :=
    (Line.loop_readValues (s.shallow .recursive)).exists_walk c p
  obtain ⟨d', kept, there⟩ := walk.accords accords
  have again {halt : Halt}
      (halts : Halts s.literalChunk (.outermost (s.shallow .verbatim)) q halt) :
      Line.readValues (s.shallow .verbatim) c' p = endOfLine q d'.items halt :=
    (Line.loop_readValues (s.shallow .verbatim)).eq_of_walk kept halts
  rw [read] at unstopped ⊢
  cases halts with
  | finished found => exact ⟨_, again (.finished found), there.items⟩
  | closing found => exact again (.closing found)
  | lexeme failed => exact again (.lexeme failed)
  | list found failed =>
    have given : Unstopped (ListReader.outermost (s.shallow .recursive) q.skipBlanks) := by
      rintro position max same
      rw [failed] at same
      obtain rfl := Except.error.inj same
      exact unstopped position max rfl
    have lists := outermost_flat given
    rw [failed] at lists
    exact again (.list found lists)

/-- On a line that no list inside another stops, keeping and reading such lists have the same fault
or the same values. Only a list with a `NIL` in it may have other items, and it is a list still. -/
theorem flat_lines_agree (s : Settings) (line : List UInt8)
    (unstopped : Unstopped (decode (s.shallow .recursive) line)) :
    Agrees SameButNil (decode (s.shallow .recursive) line) (decode (s.shallow .verbatim) line) := by
  unfold decode at unstopped ⊢
  cases long : s.maxLineLength.filter (· < line.length) with
  | some max =>
    simp only [Settings.shallow, long]
    rfl
  | none =>
    simp only [Settings.shallow, long] at unstopped ⊢
    exact readValues_flat ⟨rfl, rfl, rfl, fun _ => rfl⟩ unstopped

/-- In the first line the parentheses are those of a payload and `NIL` is quoted or joined to an
atom. In the second a null item keeps the bracket from being joined to it, where lists are read. -/
theorem flat_lines_agree_sample :
    decode (Settings.standard.shallow .verbatim) (ofText "(\x7b2\x7d(( [NIL] \"NIL\") NIL [(c)") =
      .ok [.list [.ofText "(([NIL]", .ofText "NIL"], .nil, .ofText "[", .list [.ofText "c"]] ∧
    ∃ others, decode (Settings.standard.shallow .verbatim) (ofText "(NIL [a]) b") = .ok others ∧
      others.map Value.hollow = [.list [], .ofText "b"] := by
  have free : decode (Settings.standard.shallow .recursive)
      (ofText "(\x7b2\x7d(( [NIL] \"NIL\") NIL [(c)") =
      .ok [.list [.ofText "(([NIL]", .ofText "NIL"], .nil, .ofText "[", .list [.ofText "c"]] := by
    decide +kernel
  have null : decode (Settings.standard.shallow .recursive) (ofText "(NIL [a]) b") =
      .ok [.list [.nil, .ofText "[a]"], .ofText "b"] := by
    decide +kernel
  constructor
  · have agrees := flat_lines_agree .standard _ (unstopped_ok free)
    rw [free] at agrees
    obtain ⟨others, kept, same⟩ := agrees
    rw [kept, same.values]
    intro items member
    have listed : items = [.ofText "(([NIL]", .ofText "NIL"] ∨ items = [.ofText "c"] := by
      simpa [Value.nil, Value.ofText] using member
    rcases listed with rfl | rfl <;> decide +kernel
  · have agrees := flat_lines_agree .standard _ (unstopped_ok null)
    rw [null] at agrees
    obtain ⟨others, kept, same⟩ := agrees
    exact ⟨others, kept, same.hollow⟩

end ImapReply
