import ImapReply.Octets

/-! A place in a line, given by the octets before it and those from it on. Moving a point never
changes its line. -/
namespace ImapReply

structure Point where
  /-- Octets already read, the nearest first. -/
  read : List UInt8
  /-- Octets still to come. -/
  rest : List UInt8
deriving DecidableEq, Repr

namespace Point

def start (line : List UInt8) : Point := ⟨[], line⟩

def line (p : Point) : List UInt8 := p.read.reverse ++ p.rest

/-- Number of octets in front of the point. -/
def offset (p : Point) : Nat := p.read.length

/-- The octet just in front of the point, if it is not at the start. -/
def behind (p : Point) : Option UInt8 := p.read.head?

/-- Moves on by `n` octets, or to the end of a line that has fewer left. -/
def skip (n : Nat) (p : Point) : Point := ⟨(p.rest.take n).reverse ++ p.read, p.rest.drop n⟩

/-- Moves on to the first octet that is not blank. -/
def skipBlanks (p : Point) : Point := p.skip (p.rest.takeWhile Octet.isBlank).length

@[simp] theorem line_start (line : List UInt8) : (start line).line = line := rfl

@[simp] theorem offset_start (line : List UInt8) : (start line).offset = 0 := rfl

@[simp] theorem rest_skip (p : Point) (n : Nat) : (p.skip n).rest = p.rest.drop n := rfl

@[simp] theorem line_skip (p : Point) (n : Nat) : (p.skip n).line = p.line := by
  simp [line, skip]

@[simp] theorem offset_skip (p : Point) (n : Nat) :
    (p.skip n).offset = p.offset + min n p.rest.length := by
  simp [offset, skip, Nat.add_comm]

theorem offset_skip_of_le {p : Point} {n : Nat} (inside : n ≤ p.rest.length) :
    (p.skip n).offset = p.offset + n := by
  rw [offset_skip, Nat.min_eq_left inside]

theorem skip_zero (p : Point) : p.skip 0 = p := rfl

theorem skip_skip (p : Point) (m n : Nat) : (p.skip m).skip n = p.skip (m + n) := by
  simp [skip, List.take_add]

theorem length_line (p : Point) : p.line.length = p.offset + p.rest.length := by
  simp [line, offset]

theorem drop_offset_line (p : Point) : p.line.drop p.offset = p.rest := by
  simp [line, offset]

theorem getElem?_line (p : Point) (n : Nat) : p.line[p.offset + n]? = p.rest[n]? := by
  rw [← List.getElem?_drop, drop_offset_line]

@[simp] theorem line_skipBlanks (p : Point) : p.skipBlanks.line = p.line := line_skip ..

theorem rest_skipBlanks (p : Point) : p.skipBlanks.rest = p.rest.dropWhile Octet.isBlank := by
  simp only [skipBlanks, rest_skip]
  induction p.rest with
  | nil => rfl
  | cons b _ ih => cases h : Octet.isBlank b <;> simp [h, ih]

theorem length_rest_skipBlanks_le (p : Point) : p.skipBlanks.rest.length ≤ p.rest.length := by
  simp [skipBlanks]

/-- After blanks are skipped the next octet, if any, is not blank. -/
theorem isBlank_head_skipBlanks {p : Point} {b : UInt8} {after : List UInt8}
    (next : p.skipBlanks.rest = b :: after) : Octet.isBlank b = false := by
  have head := List.head?_dropWhile_not Octet.isBlank p.rest
  rw [rest_skipBlanks] at next
  simpa [next] using head

end Point

end ImapReply
