import ImapReply.Proofs.Continuation
import ImapReply.Proofs.Resources
import Mathlib.Data.List.Flatten

/-! Reading never makes more of a line than there is. What has been collected, weighed by its
octets, and what is left of the line are together never more than before. A list that is read again
from its text therefore gives shorter texts, and no chain of such readings is longer than half the
line it began with. -/
namespace ImapReply

open Octet Octets

namespace Value

mutual
/-- An atom weighs as much as its text, but never nothing. A list weighs two parentheses more than
its items. -/
def weight : Value → Nat
  | .atom text _ => max 1 (Octets.ofText text).length
  | .list items => 2 + weights items
def weights : List Value → Nat
  | [] => 0
  | item :: later => item.weight + weights later
end

theorem weights_append (items more : List Value) :
    weights (items ++ more) = weights items + weights more := by
  induction items with
  | nil => exact (Nat.zero_add _).symm
  | cons item later ih => rw [List.cons_append, weights, weights, ih, Nat.add_assoc]

theorem weights_reverse (items : List Value) : weights items.reverse = weights items := by
  induction items with
  | nil => rfl
  | cons item later ih =>
    have single : weights [item] = item.weight := rfl
    rw [List.reverse_cons, weights_append, ih, single, weights, Nat.add_comm]

theorem weight_le_weights {items : List Value} {item : Value} (member : item ∈ items) :
    item.weight ≤ weights items := by
  induction items with
  | nil => contradiction
  | cons first later ih =>
    rw [weights]
    rcases List.mem_cons.mp member with rfl | member
    · exact Nat.le_add_right _ _
    · exact Nat.le_trans (ih member) (Nat.le_add_left _ _)

/-- The value has such an atom in it, at whatever depth. -/
inductive Holds (text : String) (isNull : Bool) : Value → Prop
  | here : Holds text isNull (.atom text isNull)
  | inside {items : List Value} {item : Value} : item ∈ items → Holds text isNull item →
      Holds text isNull (.list items)

theorem add_weight_le_weights {items : List Value} {v w : Value} (one : v ∈ items)
    (other : w ∈ items) (differ : v ≠ w) : v.weight + w.weight ≤ weights items := by
  induction items with
  | nil => contradiction
  | cons first later ih =>
    rw [weights]
    rcases List.mem_cons.mp one with rfl | oneLater <;>
      rcases List.mem_cons.mp other with rfl | otherLater
    · contradiction
    · exact Nat.add_le_add_left (weight_le_weights otherLater) _
    · rw [Nat.add_comm]
      exact Nat.add_le_add_left (weight_le_weights oneLater) _
    · exact Nat.le_trans (ih oneLater otherLater) (Nat.le_add_left _ _)

theorem Holds.length_le {text : String} {isNull : Bool} {v : Value} (holds : Holds text isNull v) :
    (Octets.ofText text).length ≤ v.weight := by
  induction holds with
  | here => exact Nat.le_max_right 1 _
  | inside member _ ih =>
    have := weight_le_weights member
    rw [weight]
    omega

theorem Holds.length_add_two_le {text : String} {isNull : Bool} {items : List Value}
    (holds : Holds text isNull (.list items)) :
    (Octets.ofText text).length + 2 ≤ (Value.list items).weight := by
  cases holds with
  | inside member holds =>
    have := weight_le_weights member
    have := holds.length_le
    rw [weight]
    omega

/-- The parentheses of a list are no part of the atoms beside it either. -/
theorem Holds.length_add_two_le_weights {text : String} {isNull : Bool} {items values : List Value}
    (holds : Holds text isNull (.list values)) (listed : .list items ∈ values) :
    (Octets.ofText text).length + 2 ≤ weights values := by
  cases holds with
  | @inside _ item member holds =>
    by_cases same : item = .list items
    · subst same
      exact Nat.le_trans holds.length_add_two_le (weight_le_weights member)
    · have beside := add_weight_le_weights member listed same
      have := holds.length_le
      rw [weight] at beside
      omega

end Value

theorem Quoted.pass_sublist (escaped : Char) (text : List Char) :
    (pass escaped text).Sublist text := by
  suffices general : ∀ kept,
      (passOnto escaped kept text).reverse.Sublist (kept.reverse ++ text) from
    general []
  intro kept
  fun_induction passOnto escaped kept text with
  | case1 kept => simp
  | case2 kept c => simp
  | case3 kept c d after pair ih =>
    rw [List.reverse_cons, List.append_assoc] at ih
    exact ih.trans (List.Sublist.append_left (List.sublist_cons_self c (d :: after)) _)
  | case4 kept c d after single ih =>
    rwa [List.reverse_cons, List.append_assoc] at ih

theorem Quoted.length_unescape_le (raw : String) :
    (ofText (unescape raw)).length ≤ (ofText raw).length := by
  have shorter : (pass '\\' (pass '"' raw.toList)).Sublist raw.toList :=
    (pass_sublist _ _).trans (pass_sublist _ _)
  obtain ⟨cs, rfl⟩ : ∃ cs, raw = String.ofList cs := ⟨raw.toList, by simp⟩
  rw [unescape, ofText_ofList, ofText_ofList]
  rw [String.toList_ofList] at shorter ⊢
  exact (shorter.flatMap _).length_le

def Piece.weight : Piece → Nat
  | .openBracket | .closeBracket => 1
  | .token t => max 1 (ofText t.text).length

theorem Token.Spelled.weight_le {octets : List UInt8} {token : Token}
    (spelled : token.Spelled octets) : max 1 (ofText token.text).length ≤ octets.length := by
  have nonempty := List.length_pos_iff.mpr spelled.ne_nil
  refine Nat.max_le.mpr ⟨nonempty, ?_⟩
  cases spelled with
  | bare => exact Nat.le_refl _
  | @quoted raw content =>
    have := Quoted.length_unescape_le raw
    simp only [text, List.cons_append, List.length_cons, List.length_append]
    omega
  | literal =>
    rw [List.length_append]
    exact Nat.le_add_left _ _

theorem Token.weight_value_le (token : Token) (mapsNil : Bool) :
    (token.value mapsNil).weight ≤ max 1 (ofText token.text).length := by
  cases token with
  | bare text =>
    rw [value]
    split
    · exact Nat.le_max_left 1 _
    · exact Nat.le_refl _
  | quoted | literal => exact Nat.le_refl _

theorem Lexeme.Spelled.weight_le {octets : List UInt8} {piece : Piece}
    (spelled : (Lexeme.piece piece).Spelled octets) : piece.weight ≤ octets.length := by
  cases spelled with
  | single single =>
    cases piece with
    | openBracket | closeBracket => exact Nat.le_refl 1
    | token token => contradiction
  | token spelled => exact spelled.weight_le

namespace Collector

def weight (c : Collector) : Nat := Value.weights c.newest

@[simp] theorem weight_blank (mapsNil : Bool) : weight { mapsNil } = 0 := rfl

@[simp] theorem weight_push (c : Collector) (value : Value) :
    (c.push value).weight = value.weight + c.weight := rfl

theorem weights_items (c : Collector) : Value.weights c.items = c.weight :=
  Value.weights_reverse c.newest

theorem weight_join_le (c : Collector) {text : String} {fresh : Value} {n : Nat}
    (joined : (ofText text).length ≤ n) (single : fresh.weight ≤ n) :
    (c.join text fresh).weight ≤ c.weight + n := by
  unfold join
  split
  next head older same =>
    simp only [weight, same, Value.weights, Value.weight, ofText_append, List.length_append]
    omega
  next =>
    simp only [weight, Value.weights]
    omega

theorem weight_add_le (c : Collector) (piece : Piece) :
    (c.add piece).weight ≤ c.weight + piece.weight := by
  cases piece with
  | openBracket | closeBracket => exact c.weight_join_le (Nat.le_refl 1) (Nat.le_refl 1)
  | token token =>
    have fresh := token.weight_value_le c.mapsNil
    rw [add]
    split
    · exact c.weight_join_le (Nat.le_max_right 1 _) fresh
    · rw [weight_push, Piece.weight]
      omega

end Collector

/-- What is read of a list is no heavier than what it takes of the line. -/
def ListReader.Thrifty (list : ListReader) : Prop :=
  ∀ {p after : Point} {v : Value}, list p = .ok (v, after) →
    v.weight + after.rest.length ≤ p.rest.length

section Walk

variable {chunk : Nat} {list : ListReader} {c d : Collector} {p q : Point}

theorem Step.weight_le (thrifty : list.Thrifty) (step : Step chunk list c p d q) :
    d.weight + q.rest.length ≤ c.weight + p.rest.length := by
  have blanks := p.length_rest_skipBlanks_le
  cases step with
  | @piece piece _ found =>
    obtain ⟨octets, tail, start, spelled, -, rfl⟩ := Lexeme.next_eq_some_iff.mp found
    have added := c.weight_add_le piece
    have taken := spelled.weight_le
    have left := Point.rest_skip_append start
    rw [start, List.length_append] at blanks
    rw [left]
    omega
  | list found read =>
    have taken := thrifty read
    rw [Collector.weight_push]
    omega

theorem Walk.weight_le (thrifty : list.Thrifty) (walk : Walk chunk list c p d q) :
    d.weight + q.rest.length ≤ c.weight + p.rest.length :=
  walk.invariant (P := fun d q => d.weight + q.rest.length ≤
      c.weight + p.rest.length)
    (fun step le => Nat.le_trans (step.weight_le thrifty) le) (Nat.le_refl _)

/-- Only an atom is ever lengthened. -/
theorem Step.keeps_list {items : List Value} (step : Step chunk list c p d q)
    (member : .list items ∈ c.newest) : .list items ∈ d.newest := by
  cases step with
  | piece found => exact c.mem_add _ (fun _ => Value.noConfusion) member
  | list found read => exact List.mem_cons_of_mem _ member

theorem Walk.keeps_list {items : List Value} (walk : Walk chunk list c p d q)
    (member : .list items ∈ c.newest) : .list items ∈ d.newest :=
  walk.invariant (P := fun d _ => .list items ∈ d.newest)
    (fun step member => step.keeps_list member) member

/-- A list weighs its two parentheses on top of its items. -/
theorem Loop.weight_list_le {opening : Point} {mapsNil : Bool}
    {readItems : Collector → Point → Except Fault (List Value × Point)}
    (loop : Loop chunk list (fun _ => endOfList opening) readItems) (thrifty : list.Thrifty)
    {after : Point} {items : List Value}
    (read : readItems { mapsNil } (p.skip 1) = .ok (items, after)) :
    (Value.list items).weight + after.rest.length ≤ p.rest.length := by
  obtain ⟨d, q, walk, closing, rfl⟩ := loop.eq_ok_iff.mp read
  have collected := walk.weight_le thrifty
  have closed := Lexeme.next_shorter closing
  rw [Collector.weight_blank, Point.rest_skip, List.length_drop] at collected
  rw [Value.weight, d.weights_items]
  omega

end Walk

theorem VerbatimList.thrifty_kept (opening : Point) : (ListReader.kept opening).Thrifty := by
  intro p after v read
  obtain ⟨text, found, rfl⟩ := ListReader.form_eq_ok_iff.mp read
  obtain ⟨n, closed, isText, rfl⟩ := inner_eq_ok_iff.mp found
  obtain ⟨inside, tail, start, rfl⟩ := closeAfter_eq_some closed
  have octets := congrArg List.length (text?_eq_some_iff.mp isText)
  have rest := congrArg List.length start
  simp only [Point.rest_skip, List.length_drop, List.length_append, List.length_cons] at rest
  rw [List.length_take] at octets
  simp only [Value.ofText, Value.weight, Point.rest_skip, List.length_drop] at octets ⊢
  omega

theorem RecursiveList.thrifty_nested (s : Settings) (room : Nat) :
    (ListReader.nested s room).Thrifty := by
  induction room with
  | zero =>
    intro p after v found
    obtain ⟨items, list, -⟩ := ListReader.form_eq_ok_iff.mp found
    contradiction
  | succ room ih =>
    intro p after v found
    obtain ⟨items, list, rfl⟩ := ListReader.form_eq_ok_iff.mp found
    exact (loop_readItems s room p).weight_list_le ih list

namespace Line

theorem thrifty_outermost (s : Settings) : (ListReader.outermost s).Thrifty := by
  intro p after v found
  obtain ⟨items, list, rfl⟩ := ListReader.form_eq_ok_iff.mp found
  unfold readList at list
  split at list
  · have loop := VerbatimList.loop_readItems s.literalChunk p
    exact loop.weight_list_le (VerbatimList.thrifty_kept p) list
  · exact RecursiveList.thrifty_nested s s.maxDepth
      (ListReader.form_eq_ok_iff.mpr ⟨items, list, rfl⟩)

theorem weights_readValues_le {s : Settings} {line : List UInt8} {values : List Value}
    (read : readValues s { mapsNil := true } (.start line) = .ok values) :
    Value.weights values ≤ line.length := by
  obtain ⟨d, q, walk, -, rfl⟩ := readValues_eq_ok_iff.mp read
  have collected := walk.weight_le (thrifty_outermost s)
  rw [Collector.weight_blank] at collected
  rw [d.weights_items]
  exact Nat.le_of_add_right_le (Nat.zero_add line.length ▸ collected)

/-- A line that starts with a parenthesis has a list among its values: its first one. -/
theorem exists_list_of_opens {s : Settings} {line : List UInt8} {values : List Value}
    (opens : line.head? = some openParen)
    (read : readValues s { mapsNil := true } (.start line) = .ok values) :
    ∃ items, .list items ∈ values := by
  obtain ⟨tail, rfl⟩ := List.head?_eq_some_iff.mp opens
  obtain ⟨d, q, walk, finished, rfl⟩ := readValues_eq_ok_iff.mp read
  have first : Lexeme.next s.literalChunk (.start (openParen :: tail)) =
      .ok (some (.openParen, (Point.start (openParen :: tail)).skip 1)) :=
    Lexeme.here_single rfl rfl
  cases walk with
  | here => simp [first] at finished
  | step step later =>
    cases step with
    | piece found => simp [first] at found
    | list _ list =>
      obtain ⟨items, -, rfl⟩ := ListReader.form_eq_ok_iff.mp list
      have collected := later.keeps_list (List.mem_cons_self : Value.list items ∈ _)
      exact ⟨items, List.mem_reverse.mpr collected⟩

end Line

section Descent

variable {s : Settings} {line : List UInt8} {values : List Value} {text : String} {isNull : Bool}
  {v w : Value} {n : Nat}

theorem readValues_of_decode (decoded : decode s line = .ok values) :
    Line.readValues s { mapsNil := true } (.start line) = .ok values := by
  unfold decode at decoded
  split at decoded
  · contradiction
  · exact decoded

theorem weights_decode_le (decoded : decode s line = .ok values) :
    Value.weights values ≤ line.length :=
  Line.weights_readValues_le (readValues_of_decode decoded)

theorem decode_of_expand_failed {fault : Fault}
    (failed : expand s (.atom text isNull) = .error fault) :
    decode s (ofText text) = .error fault := by
  simp only [expand, Value.text?] at failed
  split at failed
  · split at failed
    next decoded => exact decoded.trans (congrArg _ (Except.error.inj failed))
    all_goals contradiction
  · contradiction

/-- What is no longer than a line that was read is not too long. -/
theorem short_of_decode (decoded : decode s line = .ok values) {shorter : List UInt8}
    (fewer : shorter.length ≤ line.length) {length max : Nat} :
    decode s shorter ≠ .error (.lineTooLong length max) := by
  cases limit : s.maxLineLength with
  | none => exact decode_unlimited limit
  | some bound =>
    rw [decode_limit limit] at decoded ⊢
    split at decoded
    · contradiction
    next within =>
      rw [if_neg (by omega)]
      exact decode_unlimited rfl

theorem expand_of_opens (opens : (ofText text).head? = some openParen)
    (expanded : expand s (.atom text isNull) = .ok v) :
    ∃ values items, decode s (ofText text) = .ok values ∧ .list items ∈ values ∧
      (values = [v] ∧ v = .list items ∨ v = .list values) := by
  simp only [expand, Value.text?, opens, if_true] at expanded
  split at expanded
  · contradiction
  next items decoded =>
    obtain rfl := Except.ok.inj expanded
    exact ⟨_, items, decoded, List.mem_singleton_self _, .inl ⟨rfl, rfl⟩⟩
  next values _ decoded =>
    obtain rfl := Except.ok.inj expanded
    obtain ⟨items, listed⟩ := Line.exists_list_of_opens opens (readValues_of_decode decoded)
    exact ⟨values, items, decoded, listed, .inr rfl⟩

theorem expand_shortens (opens : (ofText text).head? = some openParen)
    (expanded : expand s (.atom text isNull) = .ok v) {part : String} {partNull : Bool}
    (holds : v.Holds part partNull) : (ofText part).length + 2 ≤ (ofText text).length := by
  obtain ⟨values, items, decoded, listed, shape⟩ := expand_of_opens opens expanded
  refine Nat.le_trans ?_ (weights_decode_le decoded)
  rcases shape with ⟨rfl, rfl⟩ | rfl
  · exact Nat.le_trans holds.length_add_two_le (Value.weight_le_weights listed)
  · exact holds.length_add_two_le_weights listed

/-- A pair of parentheses at least. -/
theorem two_le_of_expand (opens : (ofText text).head? = some openParen)
    (expanded : expand s (.atom text isNull) = .ok v) : 2 ≤ (ofText text).length := by
  obtain ⟨values, items, decoded, listed, -⟩ := expand_of_opens opens expanded
  calc 2 ≤ (Value.list items).weight := Nat.le_add_right 2 _
    _ ≤ Value.weights values := Value.weight_le_weights listed
    _ ≤ (ofText text).length := weights_decode_le decoded

/-- `n` expansions, each of an atom in what the one before it gave, lead from one value to
another. -/
inductive Expansions (s : Settings) (v : Value) : Nat → Value → Prop
  | start : Expansions s v 0 v
  | expand {n : Nat} {w u : Value} {text : String} {isNull : Bool} : Expansions s v n w →
      w.Holds text isNull → (ofText text).head? = some openParen →
      expand s (.atom text isNull) = .ok u → Expansions s v (n + 1) u

/-- Every expansion uses up two octets of the line. -/
theorem Expansions.length_le (decoded : decode s line = .ok values)
    (expansions : Expansions s (.list values) n w) :
    2 * n ≤ line.length ∧ ∀ {text : String} {isNull : Bool}, w.Holds text isNull →
      (ofText text).length + 2 * n ≤ line.length := by
  induction expansions with
  | start =>
    refine ⟨Nat.zero_le _, fun holds => ?_⟩
    cases holds with
    | inside member holds =>
      calc _ ≤ Value.weight _ := holds.length_le
        _ ≤ Value.weights values := Value.weight_le_weights member
        _ ≤ line.length := weights_decode_le decoded
  | expand _ held opens expanded ih =>
    have before := ih.2 held
    constructor
    · have := two_le_of_expand opens expanded
      omega
    · intro part partNull holds
      have := expand_shortens opens expanded holds
      omega

/-- Values weigh no more than their line. A list that was kept as text gives shorter texts each time
it is expanded, so at most half as many expansions follow one another as the line has octets, and
none of them meets a line that is too long. -/
theorem reading_never_amplifies (s : Settings) :
    (∀ line values, decode s line = .ok values → Value.weights values ≤ line.length) ∧
    (∀ text isNull v, (ofText text).head? = some openParen →
      expand s (.atom text isNull) = .ok v → ∃ items, v = .list items ∧
        ∀ part partNull, v.Holds part partNull →
          (ofText part).length + 2 ≤ (ofText text).length) ∧
    ∀ line values n w, decode s line = .ok values → Expansions s (.list values) n w →
      2 * n ≤ line.length ∧ ∀ text isNull, w.Holds text isNull → ∀ length max,
        expand s (.atom text isNull) ≠ .error (.lineTooLong length max) := by
  refine ⟨fun line values => weights_decode_le, ?_, ?_⟩
  · intro text isNull v opens expanded
    obtain ⟨values, items, -, -, ⟨-, rfl⟩ | rfl⟩ := expand_of_opens opens expanded
    · exact ⟨items, rfl, fun part partNull => expand_shortens opens expanded⟩
    · exact ⟨values, rfl, fun part partNull => expand_shortens opens expanded⟩
  · intro line values n w decoded expansions
    obtain ⟨within, held⟩ := expansions.length_le decoded
    refine ⟨within, fun text isNull holds length max failed => ?_⟩
    have fewer := held holds
    exact short_of_decode decoded (by omega) (decode_of_expand_failed failed)

/-- Two expansions, one in the other, of a line that is as long as it may be. -/
theorem reading_never_amplifies_sample :
    Value.weights [.list [.ofText "a", .ofText "(b (c))"]] ≤ 11 ∧
    (∀ part partNull, (Value.list [.ofText "b", .ofText "(c)"]).Holds part partNull →
      (ofText part).length + 2 ≤ 7) ∧
    2 * 2 ≤ 11 ∧
    expand ⟨64, .verbatim, some 11, 64⟩ (.ofText "c") ≠ .error (.lineTooLong 1 11) := by
  obtain ⟨weighed, shortened, descended⟩ := reading_never_amplifies ⟨64, .verbatim, some 11, 64⟩
  have decoded : decode ⟨64, .verbatim, some 11, 64⟩ (ofText "(a (b (c)))") =
      .ok [.list [.ofText "a", .ofText "(b (c))"]] := by
    decide +kernel
  have outer : expand ⟨64, .verbatim, some 11, 64⟩ (.atom "(b (c))" false) =
      .ok (.list [.ofText "b", .ofText "(c)"]) := by
    decide +kernel
  have inner : expand ⟨64, .verbatim, some 11, 64⟩ (.atom "(c)" false) =
      .ok (.list [.ofText "c"]) := by
    decide +kernel
  have last {v w : Value} : w ∈ [v, w] := List.mem_cons_of_mem _ List.mem_cons_self
  have held : (Value.list [.list [.ofText "a", .ofText "(b (c))"]]).Holds "(b (c))" false :=
    .inside List.mem_cons_self (.inside last .here)
  have once := Expansions.start.expand held (by decide +kernel) outer
  have twice := once.expand (.inside last .here) (by decide +kernel) inner
  obtain ⟨_, -, shorter⟩ := shortened "(b (c))" false _ (by decide +kernel) outer
  obtain ⟨few, fits⟩ := descended _ _ _ _ decoded twice
  exact ⟨weighed _ _ decoded, shorter, few, fits "c" false (.inside List.mem_cons_self .here) 1 11⟩

end Descent

end ImapReply
