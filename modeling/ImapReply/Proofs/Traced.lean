import ImapReply.Proofs.CheckedToken

/-! A record of what the loops of the machine do. Here they check nothing: a loop takes turns as
long as its clock runs, whether it moves on in them or not. That it does move on, and how many turns
it takes, is what the record shows. -/
namespace ImapReply

open Checked

/-- What is done in the course of a reading. -/
inductive Event where
  /-- A loop starts a turn at a place in the line. -/
  | turned (place : Nat)
  /-- A turn that has started at one place is over, and the loop goes on from another. -/
  | moved (start stop : Nat)
  /-- A header is read before the token it belongs to is asked for. -/
  | headed (start stop : Cursor)
  /-- A token is asked for and read. -/
  | tokened (start : Cursor) (token : Token) (stop : Cursor)
deriving DecidableEq, Repr

namespace Event

def place? : Event → Option Nat
  | turned place => some place
  | _ => none

/-- The places at which turns start, in the order of the turns. -/
def places (events : List Event) : List Nat := events.filterMap place?

/-- A loop that goes on has moved on. A token moves the cursor unless its header was read just
before, and no word is empty. -/
inductive Advancing : List Event → Prop
  | nil : Advancing []
  | turned {later : List Event} (place : Nat) : Advancing later → Advancing (turned place :: later)
  | moved {later : List Event} {start stop : Nat} : start < stop → Advancing later →
      Advancing (moved start stop :: later)
  | headed {later : List Event} {start stop : Cursor} : start.position < stop.position →
      Advancing later → Advancing (headed start stop :: later)
  | tokened {later : List Event} {start stop : Cursor} {token : Token} :
      start.position < stop.position → token ≠ .bare "" → Advancing later →
      Advancing (tokened start token stop :: later)
  | payload {later : List Event} {opening start stop : Cursor} {token : Token} :
      opening.position < start.position → token ≠ .bare "" → Advancing later →
      Advancing (headed opening start :: tokened start token stop :: later)

theorem Advancing.append {events more : List Event} (advancing : Advancing events)
    (others : Advancing more) : Advancing (events ++ more) := by
  induction advancing with
  | nil => exact others
  | turned place _ ih => exact ih.turned place
  | moved further _ ih => exact ih.moved further
  | headed further _ ih => exact ih.headed further
  | tokened further word _ ih => exact ih.tokened further word
  | payload further word _ ih => exact ih.payload further word

/-- Turns start further and further on, from `first` on and in front of `bound`. -/
structure Spans (first bound : Nat) (events : List Event) : Prop where
  advancing : Advancing events
  ordered : (places events).Pairwise (· < ·)
  inside : ∀ place ∈ places events, first ≤ place ∧ place < bound

namespace Spans

variable {first middle bound later : Nat} {events more : List Event}

/-- Without a turn there is nothing to put in order. -/
theorem quiet (advancing : Advancing events) (none : places events = []) :
    Spans first bound events where
  advancing := advancing
  ordered := none ▸ .nil
  inside := by simp [none]

theorem turned (place : Nat) : Spans place (place + 1) [.turned place] where
  advancing := .turned place .nil
  ordered := List.pairwise_singleton ..
  inside := fun other member => by
    obtain rfl := List.mem_singleton.mp member
    omega

theorem append (one : Spans first middle events) (other : Spans middle bound more)
    (front : first ≤ middle) (back : middle ≤ bound) : Spans first bound (events ++ more) where
  advancing := one.advancing.append other.advancing
  ordered := by
    rw [places, List.filterMap_append]
    refine List.pairwise_append.mpr ⟨one.ordered, other.ordered, fun place member next behind => ?_⟩
    exact Nat.lt_of_lt_of_le (one.inside place member).2 (other.inside next behind).1
  inside := by
    intro place member
    rw [places, List.filterMap_append] at member
    rcases List.mem_append.mp member with member | member
    · have := one.inside place member
      omega
    · have := other.inside place member
      omega

theorem mono (spans : Spans later bound events) (front : first ≤ later) :
    Spans first bound events where
  advancing := spans.advancing
  ordered := spans.ordered
  inside := fun place member =>
    ⟨Nat.le_trans front (spans.inside place member).1, (spans.inside place member).2⟩

end Spans

/-- Numbers in order, each with a place to itself. -/
theorem length_le_of_pairwise {first bound : Nat} {numbers : List Nat}
    (ordered : numbers.Pairwise (· < ·)) (inside : ∀ n ∈ numbers, first ≤ n ∧ n < bound) :
    numbers.length ≤ bound - first := by
  induction numbers generalizing first with
  | nil => exact Nat.zero_le _
  | cons n numbers ih =>
    rw [List.pairwise_cons] at ordered
    have here := inside n List.mem_cons_self
    have fewer : numbers.length ≤ bound - (n + 1) :=
      ih ordered.2 fun m member =>
        ⟨ordered.1 m member, (inside m (List.mem_cons_of_mem n member)).2⟩
    rw [List.length_cons]
    omega

theorem Spans.length_le {first bound : Nat} {events : List Event}
    (spans : Spans first bound events) : (places events).length ≤ bound - first :=
  length_le_of_pairwise spans.ordered spans.inside

end Event

open Event

/-- What a reading comes to and what is done in its course. There is no outcome where a clock has
run out. -/
structure Traced (α : Type) where
  events : List Event
  outcome : Option (Checked α)
deriving Repr

namespace Traced

variable {α β σ : Type}

/-- A reading of which nothing is recorded. -/
def lift (reading : Checked α) : Traced α := ⟨[], some reading⟩

def record (event : Event) : Traced Unit := ⟨[event], some (.ok ())⟩

def bind (one : Traced α) (next : α → Traced β) : Traced β :=
  match one.outcome with
  | none => ⟨one.events, none⟩
  | some (.error failure) => ⟨one.events, some (.error failure)⟩
  | some (.ok result) => ⟨one.events ++ (next result).events, (next result).outcome⟩

instance : Monad Traced where
  pure result := lift (.ok result)
  bind := bind

theorem recorded_bind (events : List Event) (result : α) (next : α → Traced β) :
    (⟨events, some (.ok result)⟩ : Traced α) >>= next =
      ⟨events ++ (next result).events, (next result).outcome⟩ := rfl

@[simp] theorem lift_ok_bind (result : α) (next : α → Traced β) :
    lift (.ok result) >>= next = next result := rfl

/-- Takes turns until one is the last or the clock has run out. -/
def loop (clock : Nat) (place : σ → Nat) (turn : σ → Traced (Turn σ α)) (state : σ) : Traced α :=
  match clock with
  | 0 => ⟨[], none⟩
  | clock + 1 => do
    record (.turned (place state))
    match ← turn state with
    | .done result => return result
    | .again next =>
      record (.moved (place state) (place next))
      loop clock place turn next

/-- The place up to which a reading has come. A reading that fails may have come to the end. -/
def extent (limit : Nat) (place : α → Nat) : Checked α → Nat
  | .error _ => limit + 1
  | .ok result => place result

/-- The reading comes to what it is to come to, and its turns start from `first` on and in front of
the place up to which it comes. -/
structure Progresses (limit first : Nat) (place : α → Nat) (expected : Checked α)
    (reading : Traced α) : Prop where
  outcome : reading.outcome = some expected
  spans : Spans first (extent limit place expected) reading.events
  front : first ≤ extent limit place expected

namespace Progresses

variable {limit first later : Nat} {place : α → Nat} {landing : β → Nat} {expected : Checked α}
  {reading : Traced α}

theorem mono (progresses : Progresses limit later place expected reading)
    (front : first ≤ later) : Progresses limit first place expected reading where
  outcome := progresses.outcome
  spans := progresses.spans.mono front
  front := Nat.le_trans front progresses.front

theorem lift (front : first ≤ extent limit place expected) :
    Progresses limit first place expected (Traced.lift expected) where
  outcome := rfl
  spans := .quiet .nil rfl
  front := front

theorem pure {result : α} (front : first ≤ place result) :
    Progresses limit first place (.ok result) (Pure.pure result) :=
  lift front

theorem turned (place : Nat) :
    Progresses limit place (fun _ => place + 1) (.ok ()) (record (.turned place)) where
  outcome := rfl
  spans := .turned place
  front := Nat.le_succ place

theorem moved {start stop : Nat} (further : start < stop) :
    Progresses limit stop (fun _ => stop) (.ok ()) (record (.moved start stop)) where
  outcome := rfl
  spans := .quiet (.moved further .nil) rfl
  front := Nat.le_refl stop

/-- One reading after another, where the second starts no turn in front of the place up to which the
first has come. -/
theorem bind {rest : α → Checked β} {next : α → Traced β}
    (progresses : Progresses limit first place expected reading)
    (onward : ∀ result, expected = .ok result →
      Progresses limit (place result) landing (rest result) (next result)) :
    Progresses limit first landing (expected >>= rest) (reading >>= next) := by
  have spans := progresses.spans
  have front := progresses.front
  cases expected with
  | error failure =>
    have same : reading >>= next = ⟨reading.events, some (.error failure)⟩ := by
      change Traced.bind _ _ = _
      rw [Traced.bind, progresses.outcome]
    rw [same]
    exact ⟨rfl, spans, front⟩
  | ok result =>
    have after := onward result rfl
    have same : reading >>= next =
        ⟨reading.events ++ (next result).events, (next result).outcome⟩ := by
      change Traced.bind _ _ = _
      rw [Traced.bind, progresses.outcome]
    rw [same]
    exact ⟨after.outcome, spans.append after.spans front after.front,
      Nat.le_trans front after.front⟩

theorem map {f : α → β} (progresses : Progresses limit first place expected reading)
    (same : ∀ result, landing (f result) = place result) :
    Progresses limit first landing (f <$> expected) (f <$> reading) := by
  have bound : f <$> expected = expected >>= fun result => .ok (f result) := by
    cases expected <;> rfl
  rw [bound]
  exact progresses.bind fun result _ => .pure (Nat.le_of_eq (same result).symm)

end Progresses

/-- Where a turn leaves off. -/
def turnLanding (place : σ → Nat) (landing : α → Nat) : Turn σ α → Nat
  | .again next => place next
  | .done result => landing result

/-- A loop of which every turn moves on needs no more turns than there are places left. It comes to
what it comes to where each turn is checked. -/
theorem loop_progresses {limit : Nat} (place : σ → Nat) {landing : α → Nat}
    {plain : σ → Checked (Turn σ α)} {turn : σ → Traced (Turn σ α)} (Holds : σ → Prop)
    (near : ∀ {state}, Holds state → place state ≤ limit)
    (stays : ∀ {state next}, Holds state → plain state = .ok (.again next) → Holds next)
    (step : ∀ {state}, Holds state →
      Progresses limit (place state + 1) (turnLanding place landing) (plain state) (turn state))
    {clock : Nat} {state : σ} (holds : Holds state) (enough : limit < place state + clock) :
    Progresses limit (place state) landing (iterate limit place plain state)
      (loop clock place turn state) := by
  induction clock generalizing state with
  | zero =>
    have := near holds
    omega
  | succ clock ih =>
    have checked : iterate limit place plain state = ((.ok () : Checked Unit) >>= fun _ =>
        plain state >>= fun taken => match taken with
          | .done result => .ok result
          | .again next =>
            if place state < place next ∧ place state < limit then iterate limit place plain next
            else trap .stalled) := by
      rw [iterate]
      rcases plain state with _ | _ | _ <;> rfl
    rw [checked]
    refine (Progresses.turned (place state)).bind fun _ _ => (step holds).bind fun taken same => ?_
    cases taken with
    | done result => exact .pure (Nat.le_refl _)
    | again next =>
      have further : place state < place next := by
        have front := (step holds).front
        rwa [same] at front
      have reached := near (stays holds same)
      dsimp only
      rw [if_pos ⟨further, by omega⟩]
      exact (Progresses.moved further).bind fun _ _ => ih (stays holds same) (by omega)

end Traced

end ImapReply
