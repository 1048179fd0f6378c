import ImapReply.Proofs.Diagnosis

/-! Settings that guard resources have no part in what a line means. The steps in which a literal is
copied never show, the limit on depth shows only where lists are read, and the limit on length only
on a line that exceeds it. -/
namespace ImapReply

open Octets

theorem Literal.read_chunk (chunk other : Nat) (p : Point) : read chunk p = read other p := by
  simp only [read, text?_copy]

theorem Lexeme.next_chunk (chunk other : Nat) (p : Point) : next chunk p = next other p := by
  simp only [next, here, Literal.read_chunk chunk other]

section Walk

variable {m n : Nat} {list : ListReader} {c d : Collector} {p q : Point} {halt : Halt}

theorem Step.chunk (step : Step m list c p d q) : Step n list c p d q := by
  cases step with
  | piece found =>
    rw [Lexeme.next_chunk m n] at found
    exact .piece found
  | list found read =>
    rw [Lexeme.next_chunk m n] at found
    exact .list found read

theorem Halts.chunk (halts : Halts m list p halt) : Halts n list p halt := by
  cases halts with
  | finished found => exact .finished (Lexeme.next_chunk n m p ▸ found)
  | closing found => exact .closing (Lexeme.next_chunk n m p ▸ found)
  | lexeme failed => exact .lexeme (Lexeme.next_chunk n m p ▸ failed)
  | list found failed => exact .list (Lexeme.next_chunk n m p ▸ found) failed

variable {R : Type} {ending : Point → List Value → Halt → R} {run again : Collector → Point → R}

theorem Loop.chunk (loop : Loop m list ending run) : Loop n list ending run where
  consuming := loop.consuming
  step := fun step => loop.step step.chunk
  halts := fun halts => loop.halts halts.chunk

/-- How lists are read and what the end of a walk comes to is all there is to a loop. -/
theorem Loop.unique (loop : Loop m list ending run) (same : Loop n list ending again)
    (c : Collector) (p : Point) : run c p = again c p := by
  obtain ⟨d, q, halt, walk, halts, result⟩ := loop.chunk.exists_walk c p
  exact result.trans (same.eq_of_walk walk halts).symm

end Walk

theorem VerbatimList.read_chunk (chunk other : Nat) (p : Point) : read chunk p = read other p :=
  (loop_readItems chunk p).unique (loop_readItems other p) _ _

variable {s t : Settings}

theorem RecursiveList.read_congr (depth : s.maxDepth = t.maxDepth) (room : Nat) (p : Point) :
    read s room p = read t room p := by
  induction room generalizing p with
  | zero => rw [read, read, depth]
  | succ room ih =>
    have nested : ListReader.nested s room = ListReader.nested t room := by
      funext start
      simp only [ListReader.nested, ih]
    have loop := loop_readItems s room p
    rw [nested] at loop
    exact loop.unique (loop_readItems t room p) _ _

/-- Settings that nest lists in the same way, and to the same depth where depth matters. -/
structure Settings.Alike (s t : Settings) : Prop where
  nesting : s.nesting = t.nesting
  depth : s.nesting = .recursive → s.maxDepth = t.maxDepth

theorem Line.readList_congr (alike : s.Alike t) (p : Point) : readList s p = readList t p := by
  unfold readList
  rw [← alike.nesting]
  cases nesting : s.nesting with
  | verbatim => exact VerbatimList.read_chunk _ _ p
  | recursive =>
    have depth := alike.depth nesting
    simp only [RecursiveList.read_congr depth, depth]

theorem Line.readValues_congr (alike : s.Alike t) (c : Collector) (p : Point) :
    readValues s c p = readValues t c p := by
  have outermost : ListReader.outermost s = ListReader.outermost t := by
    funext start
    simp only [ListReader.outermost, readList_congr alike]
  have loop := loop_readValues s
  rw [outermost] at loop
  exact loop.unique (loop_readValues t) c p

theorem decode_congr (alike : s.Alike t) (limit : s.maxLineLength = t.maxLineLength)
    (line : List UInt8) : decode s line = decode t line := by
  simp only [decode, limit, Line.readValues_congr alike]

theorem expand_congr (alike : s.Alike t) (limit : s.maxLineLength = t.maxLineLength) (v : Value) :
    expand s v = expand t v := by
  simp only [expand, decode_congr alike limit]

theorem decode_limit {max : Nat} (limit : s.maxLineLength = some max) (line : List UInt8) :
    decode s line = if max < line.length then .error (.lineTooLong line.length max)
      else decode { s with maxLineLength := none } line := by
  have alike : s.Alike { s with maxLineLength := none } := ⟨rfl, fun _ => rfl⟩
  by_cases long : max < line.length
  · simp [decode, limit, Option.filter_some, long]
  · simp [decode, limit, Option.filter_some, long, Line.readValues_congr alike]

/-- Without a limit no line is too long. -/
theorem decode_unlimited (unlimited : s.maxLineLength = none) {line : List UInt8}
    {length max : Nat} : decode s line ≠ .error (.lineTooLong length max) := by
  rw [decode_eq_readValues unlimited]
  intro failed
  obtain ⟨limit, -⟩ : (Fault.lineTooLong length max).Describes s _ :=
    Line.readValues_fault_describes failed
  rw [unlimited] at limit
  contradiction

/-- The steps in which literals are copied make no difference, the limit on depth makes none where
lists are kept, and the limit on length none but that longer lines are rejected. -/
theorem resources_never_show (s : Settings) (line : List UInt8) (v : Value) :
    (∀ chunk, decode { s with literalChunk := chunk } line = decode s line ∧
      expand { s with literalChunk := chunk } v = expand s v) ∧
    (s.nesting = .verbatim → ∀ depth, decode { s with maxDepth := depth } line = decode s line ∧
      expand { s with maxDepth := depth } v = expand s v) ∧
    ∀ max, s.maxLineLength = some max →
      ((∃ length bound, decode s line = .error (.lineTooLong length bound)) ↔
        max < line.length) ∧
      (line.length ≤ max → decode s line = decode { s with maxLineLength := none } line) := by
  refine ⟨fun chunk => ?_, fun verbatim depth => ?_, fun max limit => ?_⟩
  · have alike : Settings.Alike { s with literalChunk := chunk } s := ⟨rfl, fun _ => rfl⟩
    exact ⟨decode_congr alike rfl line, expand_congr alike rfl v⟩
  · have alike : Settings.Alike { s with maxDepth := depth } s := by
      refine ⟨rfl, fun recursive => ?_⟩
      rw [verbatim] at recursive
      contradiction
    exact ⟨decode_congr alike rfl line, expand_congr alike rfl v⟩
  · rw [decode_limit limit]
    by_cases long : max < line.length
    · simp [long, Nat.not_le_of_lt long]
    · simp [long, decode_unlimited]

/-- The line is as long as it may be. One of its literals is kept with the list around it. -/
theorem resources_never_show_sample :
    decode ⟨0, .verbatim, some 18, 64⟩ (ofText "((a \x7b2\x7d))) \x7b3\x7d )))") =
      .ok [.list [.ofText "(a \x7b2\x7d)))", .ofText " ))"]] ∧
    decode ⟨2, .verbatim, some 18, 0⟩ (ofText "((a \x7b2\x7d))) \x7b3\x7d )))") =
      .ok [.list [.ofText "(a \x7b2\x7d)))", .ofText " ))"]] ∧
    decode ⟨2, .verbatim, none, 64⟩ (ofText "((a \x7b2\x7d))) \x7b3\x7d )))") =
      .ok [.list [.ofText "(a \x7b2\x7d)))", .ofText " ))"]] := by
  have values : decode ⟨2, .verbatim, some 18, 64⟩ (ofText "((a \x7b2\x7d))) \x7b3\x7d )))") =
      .ok [.list [.ofText "(a \x7b2\x7d)))", .ofText " ))"]] := by
    decide +kernel
  obtain ⟨chunks, depths, limits⟩ := resources_never_show ⟨2, .verbatim, some 18, 64⟩
    (ofText "((a \x7b2\x7d))) \x7b3\x7d )))") .nil
  refine ⟨(chunks 0).1.trans values, (depths rfl 0).1.trans values, ?_⟩
  exact ((limits 18 rfl).2 (by decide +kernel)).symm.trans values

end ImapReply
