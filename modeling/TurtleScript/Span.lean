/-!
Places in a source text. A `Span` is a byte range together with the line on which it starts; lines
count from one. Joining two spans covers both, and the earlier of the two gives the line.
-/

namespace TurtleScript

/-- A byte range of a source text and the line on which it starts. -/
structure Span where
  /-- Offset of the first byte. -/
  start : Nat
  /-- Offset just past the last byte. -/
  stop : Nat
  /-- Line of the first byte, counted from one. -/
  line : Nat
deriving Repr, DecidableEq, Inhabited

namespace Span

/-- The empty span at an offset. -/
def point (offset line : Nat) : Span := ⟨offset, offset, line⟩

/-- The least span that covers both; its line is that of the one starting first, the left one on a tie. -/
def join (a b : Span) : Span :=
  let first := if a.start ≤ b.start then a else b
  ⟨first.start, max a.stop b.stop, first.line⟩

/-- The end of the range underlined for this span in a text of `length` bytes: at least one byte
is underlined, and nothing past the text unless the span starts there. -/
def underlineStop (s : Span) (length : Nat) : Nat :=
  min (max s.stop (s.start + 1)) (max length (s.start + 1))

def text (s : Span) : String := s!"{s.line}:{s.start}..{s.stop}"

@[simp] theorem join_start (a b : Span) : (a.join b).start = min a.start b.start := by
  unfold join
  dsimp only
  split <;> omega

@[simp] theorem join_stop (a b : Span) : (a.join b).stop = max a.stop b.stop := rfl

@[simp] theorem join_self (a : Span) : a.join a = a := by
  simp [join]

theorem lt_underlineStop (s : Span) (length : Nat) : s.start < s.underlineStop length := by
  unfold underlineStop
  omega

end Span

end TurtleScript
