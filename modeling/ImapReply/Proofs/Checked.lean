import ImapReply.Proofs.Diagnosis

/-! Reading on a machine. Its numbers have 64 bits, the line is an array with a cursor in it, and
every operation checks what it relies on: that a sum can be held, that nothing is taken from a
smaller number, that an octet or a run of octets is in the array, that a loop moves on. Where a
check fails the machine traps, which is no fault of the line. -/
namespace ImapReply

open Octet Octets

/-- What the machine must never come to. -/
inductive Trap where
  /-- A sum has more than 64 bits. -/
  | overflow
  /-- More is taken from a number than there is. -/
  | underflow
  /-- A place or a run is not in the array, or a run ends before it starts. -/
  | outside
  /-- More octets are reserved than the line has. -/
  | oversized
  /-- A loop comes round without moving on, or at the end of the line. -/
  | stalled
deriving DecidableEq, Repr

/-- Why the machine has no result: the line is at fault, or the machine is. -/
inductive Failure where
  | fault (fault : Fault)
  | trap (trap : Trap)
deriving DecidableEq, Repr

abbrev Checked (α : Type) := Except Failure α

namespace Checked

variable {α β σ : Type}

def fault (fault : Fault) : Checked α := .error (.fault fault)

def trap (trap : Trap) : Checked α := .error (.trap trap)

/-- A reading as a result of the machine, without a trap. -/
def lift : Except Fault α → Checked α
  | .error found => fault found
  | .ok result => .ok result

@[simp] theorem lift_ok (result : α) : lift (.ok result) = .ok result := rfl

@[simp] theorem lift_error (found : Fault) :
    lift (.error found : Except Fault α) = fault found := rfl

theorem lift_ne_trap (reading : Except Fault α) (found : Trap) : lift reading ≠ trap found := by
  cases reading <;> simp [lift, fault, trap]

@[simp] theorem pure_eq_ok (result : α) : (pure result : Checked α) = .ok result := rfl

@[simp] theorem ok_bind (result : α) (next : α → Checked β) :
    ((.ok result : Checked α) >>= next) = next result := rfl

@[simp] theorem fault_bind (found : Fault) (next : α → Checked β) :
    ((fault found : Checked α) >>= next) = fault found := rfl

@[simp] theorem map_fault (f : α → β) (found : Fault) :
    f <$> (fault found : Checked α) = fault found := rfl

/-! Operations, each with its check. -/

def add (m n : Nat) : Checked Nat :=
  if m + n ≤ Literal.maxLength then .ok (m + n) else trap .overflow

def sub (m n : Nat) : Checked Nat := if n ≤ m then .ok (m - n) else trap .underflow

def itemAt (items : List α) (place : Nat) : Checked α :=
  match items[place]? with
  | some item => .ok item
  | none => trap .outside

def slice (items : List α) (start stop : Nat) : Checked (List α) :=
  if start ≤ stop ∧ stop ≤ items.length then .ok ((items.take stop).drop start)
  else trap .outside

def text (octets : List UInt8) (start stop : Nat) : Checked String := do
  match text? (← slice octets start stop) with
  | some text => return text
  | none => fault (.invalidText start)

def reserve (octets : List UInt8) (n : Nat) : Checked Unit :=
  if n ≤ octets.length then .ok () else trap .oversized

theorem add_eq_ok_iff {m n sum : Nat} :
    add m n = .ok sum ↔ m + n ≤ Literal.maxLength ∧ sum = m + n := by
  unfold add trap
  split
  next held => simp [held, eq_comm]
  next large => simp [large]

theorem add_eq {m n : Nat} (held : m + n ≤ Literal.maxLength) : add m n = .ok (m + n) :=
  if_pos held

theorem sub_eq {m n : Nat} (enough : n ≤ m) : sub m n = .ok (m - n) := if_pos enough

theorem itemAt_eq {items : List α} {place : Nat} {item : α} (found : items[place]? = some item) :
    itemAt items place = .ok item := by
  rw [itemAt, found]

theorem slice_eq {items : List α} {start stop : Nat} (ordered : start ≤ stop)
    (inside : stop ≤ items.length) :
    slice items start stop = .ok ((items.take stop).drop start) :=
  if_pos ⟨ordered, inside⟩

/-- What one turn of a loop comes to. -/
inductive Turn (σ α : Type) where
  | again (state : σ)
  | done (result : α)

/-- Takes turns until one is the last. Each turn but the last has to move on, from a place in front
of the limit. -/
def iterate (limit : Nat) (place : σ → Nat) (turn : σ → Checked (Turn σ α)) (state : σ) :
    Checked α :=
  match turn state with
  | .error failure => .error failure
  | .ok (.done result) => .ok result
  | .ok (.again next) =>
    if place state < place next ∧ place state < limit then iterate limit place turn next
    else trap .stalled
termination_by limit - place state
decreasing_by omega

/-- The turn gives what is expected of the state at once, or moves on to a state of which it is
expected as well. -/
def GoesOn (limit : Nat) (place : σ → Nat) (turn : σ → Checked (Turn σ α))
    (Expects : σ → Checked α → Prop) (state : σ) (result : Checked α) : Prop :=
  turn state = .done <$> result ∨
    ∃ next, turn state = .ok (.again next) ∧ (place state < place next ∧ place state < limit) ∧
      Expects next result

/-- A loop comes to what is expected of its state if every turn goes on with it. -/
theorem iterate_eq {limit : Nat} {place : σ → Nat} {turn : σ → Checked (Turn σ α)}
    (Expects : σ → Checked α → Prop)
    (step : ∀ {state result}, Expects state result →
      GoesOn limit place turn Expects state result)
    {state : σ} {result : Checked α} (expected : Expects state result) :
    iterate limit place turn state = result := by
  -- A turn that is not the last leaves less of the way to the limit.
  induction left : limit - place state using Nat.strongRecOn generalizing state with
  | ind _ ih =>
    rw [iterate]
    rcases step expected with last | ⟨next, onward, moves, stillExpected⟩
    · rw [last]
      cases result <;> rfl
    · rw [onward]
      simp only [if_pos moves]
      exact ih _ (by omega) stillExpected rfl

/-- No array has more octets than this. -/
def longest : Nat := Literal.maxLength / 2

theorem longest_add_two_le : longest + 2 ≤ Literal.maxLength := by decide

end Checked

/-- A place in the line, together with the length announced by a header just passed. -/
structure Cursor where
  position : Nat
  /-- Octets of payload yet to be read, if a header has announced any. -/
  owed : Option Nat := none
deriving DecidableEq, Repr

namespace Cursor

open Checked

def peek (octets : List UInt8) (k : Cursor) : Option UInt8 := octets[k.position]?

/-- The cursor may stand behind the last octet, but no further on. -/
def moveTo (octets : List UInt8) (k : Cursor) (place : Nat) : Checked Cursor :=
  if place ≤ octets.length then .ok { k with position := place } else trap .outside

/-- Moves on by `n` octets or to the end of the line. A sum with more than 64 bits is held as the
largest number that has 64. -/
def skip (octets : List UInt8) (k : Cursor) (n : Nat) : Checked Cursor :=
  k.moveTo octets (min (min (k.position + n) Literal.maxLength) octets.length)

end Cursor

namespace Point

open Checked

/-- The cursor that stands at the point. -/
def cursor (p : Point) (owed : Option Nat := none) : Cursor := ⟨p.offset, owed⟩

@[simp] theorem position_cursor (p : Point) (owed : Option Nat) :
    (p.cursor owed).position = p.offset := rfl

@[simp] theorem owed_cursor (p : Point) (owed : Option Nat) : (p.cursor owed).owed = owed := rfl

/-- The point is in the line that the machine reads, and the line fits into an array. -/
structure Within (octets : List UInt8) (p : Point) : Prop where
  line : p.line = octets
  fits : octets.length ≤ longest

namespace Within

variable {octets : List UInt8} {p q : Point} {owed : Option Nat}

theorem reaches (within : p.Within octets) (reaches : p.Reaches q) : q.Within octets :=
  ⟨reaches.line.trans within.line, within.fits⟩

theorem skip (within : p.Within octets) (n : Nat) : (p.skip n).Within octets :=
  within.reaches (p.reaches_skip n)

theorem length_eq (within : p.Within octets) : p.offset + p.rest.length = octets.length :=
  p.length_line.symm.trans (congrArg List.length within.line)

theorem offset_le (within : p.Within octets) : p.offset ≤ octets.length :=
  within.length_eq ▸ Nat.le_add_right ..

theorem getElem?_add (within : p.Within octets) (n : Nat) :
    octets[p.offset + n]? = p.rest[n]? := by
  rw [← within.line, getElem?_line]

theorem add (within : p.Within octets) {n : Nat} (near : n ≤ p.rest.length + 2) :
    Checked.add p.offset n = .ok (p.offset + n) := by
  have := within.length_eq
  have := within.fits
  have := longest_add_two_le
  exact add_eq (by omega)

theorem sub (within : p.Within octets) :
    Checked.sub octets.length p.offset = .ok p.rest.length := by
  have := within.length_eq
  rw [sub_eq (by omega)]
  congr 1
  omega

theorem slice (within : p.Within octets) {n : Nat} (inside : n ≤ p.rest.length) :
    Checked.slice octets p.offset (p.offset + n) = .ok (p.rest.take n) := by
  have := within.length_eq
  rw [slice_eq (by omega) (by omega), ← within.line, drop_take_line]

theorem text (within : p.Within octets) {n : Nat} (inside : n ≤ p.rest.length) :
    Checked.text octets p.offset (p.offset + n) = match text? (p.rest.take n) with
      | some text => .ok text
      | none => fault (.invalidText p.offset) := by
  rw [Checked.text, within.slice inside]
  rfl

theorem peek (within : p.Within octets) : (p.cursor owed).peek octets = p.rest.head? := by
  rw [← getElem?_offset, within.line]
  rfl

theorem moveTo (within : p.Within octets) {n : Nat} (inside : n ≤ p.rest.length) :
    (p.cursor owed).moveTo octets (p.offset + n) = .ok ((p.skip n).cursor owed) := by
  have := within.length_eq
  rw [Cursor.moveTo, if_pos (by omega), cursor, cursor, offset_skip_of_le inside]

theorem skip_cursor (within : p.Within octets) (n : Nat) :
    (p.cursor owed).skip octets n = .ok ((p.skip n).cursor owed) := by
  have := within.length_eq
  have := within.fits
  have := longest_add_two_le
  have place : min (min (p.offset + n) Literal.maxLength) octets.length =
      p.offset + min n p.rest.length := by
    omega
  rw [Cursor.skip, position_cursor, place, within.moveTo (Nat.min_le_right _ _)]
  simp [cursor]

/-- Whatever leaves less of the line moves the cursor on. -/
theorem moves (within : p.Within octets) (after : q.Within octets)
    (shorter : q.rest.length < p.rest.length) : p.offset < q.offset ∧ p.offset < octets.length := by
  have := within.length_eq
  have := after.length_eq
  omega

theorem moves_skip (within : p.Within octets) {n : Nat} (positive : 0 < n)
    (more : p.rest ≠ []) : p.offset < (p.skip n).offset ∧ p.offset < octets.length := by
  refine within.moves (within.skip n) ?_
  have := List.length_pos_iff.mpr more
  rw [rest_skip, List.length_drop]
  omega

end Within

end Point

end ImapReply
