import ImapReply.Line

/-! A session keeps settings and one current value, and takes them through a run of steps. -/
namespace ImapReply

structure Session where
  settings : Settings := .standard
  current : Value := .list []

namespace Session

inductive Step where
  /-- Makes the values of a line current. -/
  | decode (line : List UInt8)
  | set (value : Value)
  | expand
  /-- Expands every item of the current list. -/
  | expandEach
  /-- Makes one item of the current list current. The first has number zero. -/
  | item (number : Nat)
  | configure (settings : Settings)

inductive Answer where
  /-- The step succeeded, and this is the value that is now current. -/
  | now (value : Value)
  /-- The step failed and changed nothing. -/
  | failed (fault : Fault)
  /-- The step does not apply to the current value and changed nothing. -/
  | inapplicable
  | configured (settings : Settings)

/-- Items expanded in order, or the fault of the first that cannot be. -/
def expandItems (s : Settings) (items : List Value) : Except Fault (List Value) :=
  items.mapM (ImapReply.expand s)

def Answer.ofResult : Except Fault Value → Answer
  | .error fault => .failed fault
  | .ok value => .now value

def answer (session : Session) : Step → Answer
  | .decode line => .ofResult ((ImapReply.decode session.settings line).map .list)
  | .set value => .now value
  | .expand => .ofResult (ImapReply.expand session.settings session.current)
  | .expandEach =>
    match session.current.items? with
    | none => .inapplicable
    | some items => .ofResult ((expandItems session.settings items).map .list)
  | .item number =>
    match session.current.items?.bind (·[number]?) with
    | none => .inapplicable
    | some item => .now item
  | .configure settings => .configured settings

/-- The session after an answer was given. -/
def after (session : Session) : Answer → Session
  | .now value => { session with current := value }
  | .configured settings => { session with settings }
  | .failed _ | .inapplicable => session

/-- Answers to a run of steps, each given to the session that the steps before it left. -/
def run (session : Session) : List Step → List Answer
  | [] => []
  | step :: later =>
    let answer := session.answer step
    answer :: (session.after answer).run later

theorem length_run (session : Session) (steps : List Step) :
    (session.run steps).length = steps.length := by
  induction steps generalizing session <;> simp_all [run]

end Session

end ImapReply
