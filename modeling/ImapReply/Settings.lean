/-! Settings of a reader, and drafts from which settings are built. -/
namespace ImapReply

/-- What becomes of a list that stands inside another list. -/
inductive Nesting where
  /-- It is kept as one atom that holds its text, parentheses included. -/
  | verbatim
  /-- It is read as a list of values. -/
  | recursive
deriving DecidableEq, Repr

structure Settings where
  /-- Most octets of a literal copied in one step. -/
  literalChunk : Nat
  nesting : Nesting
  /-- Longer lines are rejected unread. -/
  maxLineLength : Option Nat
  /-- Deepest list that recursive reading enters; an outermost list has depth one. -/
  maxDepth : Nat
deriving DecidableEq, Repr

namespace Settings

def standard : Settings := ⟨4096, .verbatim, none, 64⟩

/-- Choices made so far; what is left open takes its standard value. -/
structure Draft where
  literalChunk : Option Nat := none
  nesting : Nesting := standard.nesting
  maxLineLength : Option Nat := none
  maxDepth : Option Nat := none
deriving DecidableEq, Repr

/-- One choice. A later choice of the same kind replaces an earlier one. -/
inductive Choice where
  | literalChunk (size : Nat)
  | nesting (nesting : Nesting)
  | maxLineLength (length : Nat)
  | maxDepth (depth : Nat)
deriving DecidableEq, Repr

namespace Draft

def choose (draft : Draft) : Choice → Draft
  | .literalChunk size => { draft with literalChunk := some size }
  | .nesting nesting => { draft with nesting }
  | .maxLineLength length => { draft with maxLineLength := some length }
  | .maxDepth depth => { draft with maxDepth := some depth }

/-- A chunk size or depth of zero is raised to one. -/
def build (draft : Draft) : Settings where
  literalChunk := (draft.literalChunk.map (max 1)).getD standard.literalChunk
  nesting := draft.nesting
  maxLineLength := draft.maxLineLength
  maxDepth := (draft.maxDepth.map (max 1)).getD standard.maxDepth

/-- The draft before the first choice and after each one. -/
def history (draft : Draft) : List Choice → List Draft
  | [] => [draft]
  | choice :: later => draft :: (draft.choose choice).history later

theorem length_history (draft : Draft) (choices : List Choice) :
    (draft.history choices).length = choices.length + 1 := by
  induction choices generalizing draft <;> simp_all [history]

theorem build_blank : Draft.build {} = standard := rfl

theorem literalChunk_build_pos (draft : Draft) : 0 < draft.build.literalChunk := by
  obtain ⟨_ | size, _, _, _⟩ := draft
  · exact Nat.zero_lt_succ _
  · exact Nat.le_max_left 1 size

theorem maxDepth_build_pos (draft : Draft) : 0 < draft.build.maxDepth := by
  obtain ⟨_, _, _, _ | depth⟩ := draft
  · exact Nat.zero_lt_succ _
  · exact Nat.le_max_left 1 depth

end Draft

/-- Settings after a run of choices on a blank draft. -/
def ofChoices (choices : List Choice) : Settings := (choices.foldl Draft.choose {}).build

end Settings

end ImapReply
