/-
# Places in a source file

A position is a byte offset together with the name of the file it is counted in, and a span is
the stretch between two of them.  Offsets are kept in 32 bits: `Span.ofBytes` is the one place
where they are made, and `Span.ofBytes_of_le` says that nothing is lost for a source of at most
`maxSourceSize` bytes.
-/
namespace IntC

/-- A byte offset in a named file. -/
structure Position where
  offset : Nat
  file : String
  deriving DecidableEq, Repr, Inhabited

namespace Position

/-- The place of something that stands in no file. -/
def null : Position := ⟨0, "<null>"⟩

/-- A position is shown as its file name and its offset, with a colon between them. -/
def text (p : Position) : String := p.file ++ ":" ++ toString p.offset

end Position

/-- The stretch from `start` up to, and not including, `stop`. -/
structure Span where
  start : Position
  stop : Position
  deriving DecidableEq, Repr, Inhabited

/-- The size, in bytes, of the largest source whose offsets fit in 32 bits. -/
def maxSourceSize : Nat := 4294967295

namespace Span

/-- The span of `size` bytes from offset `start` on, with both offsets kept in 32 bits. -/
def ofBytes (file : String) (start size : Nat) : Span :=
  ⟨⟨start % (maxSourceSize + 1), file⟩, ⟨(start + size) % (maxSourceSize + 1), file⟩⟩

/-- The empty span at a position. -/
def empty (p : Position) : Span := ⟨p, p⟩

/-- Inside a source of admissible size a span has exactly the offsets it was made with. -/
theorem ofBytes_of_le {file : String} {start size : Nat} (h : start + size ≤ maxSourceSize) :
    ofBytes file start size = ⟨⟨start, file⟩, ⟨start + size, file⟩⟩ := by
  rw [ofBytes, Nat.mod_eq_of_lt (by omega), Nat.mod_eq_of_lt (by omega)]

end Span

end IntC
