import Polychrome.Library.Bytes

/-!
# Bytes that arrive in pieces

The reading end of a stream socket.  What is on its way arrives in pieces that the
reader does not choose; a read gets at most the piece that is there, and nothing
only at the end of the stream.

Main results:

- Theorems {lit}`recv_append` and {lit}`recv_ne_nil`: a read takes the bytes in their
  order, and some bytes unless the stream is over.
-/

namespace Stream

/-- A piece that arrives. -/
abbrev Piece := {p : Bytes // p ≠ []}

/-- The pieces still to arrive before the peer closes. -/
abbrev Arrivals := List Piece

/-- All bytes on their way. -/
def content (arrivals : Arrivals) : Bytes := arrivals.flatMap Subtype.val

/-- The pieces are read in their order. -/
@[simp]
theorem content_cons (piece : Piece) (arrivals : Arrivals) :
    content (piece :: arrivals) = piece.val ++ content arrivals :=
  rfl

/-- {lit}`recv(n)`, with what is left to arrive. -/
def recv (n : Nat) : Arrivals → Bytes × Arrivals
  | [] => ([], [])
  | piece :: arrivals =>
      if h : n < piece.val.length then
        (piece.val.take n, ⟨piece.val.drop n, by simpa using h⟩ :: arrivals)
      else (piece.val, arrivals)

/-- What one call returns is taken from the front. -/
theorem recv_append (n : Nat) (arrivals : Arrivals) :
    (recv n arrivals).1 ++ content (recv n arrivals).2 = content arrivals := by
  cases arrivals with
  | nil => rfl
  | cons piece arrivals =>
      rw [recv]
      split
      · rw [content_cons, ← List.append_assoc, List.take_append_drop, content_cons]
      · rfl

/-- A call returns no more than it is asked for. -/
theorem length_recv_le (n : Nat) (arrivals : Arrivals) : (recv n arrivals).1.length ≤ n := by
  cases arrivals with
  | nil => exact Nat.zero_le n
  | cons piece arrivals =>
      rw [recv]
      split
      · exact List.length_take_le n piece.val
      case isFalse hlong => exact not_lt.mp hlong

/-- A call that is asked for something returns something while there is anything. -/
theorem recv_ne_nil {n : Nat} (hn : 0 < n) {arrivals : Arrivals} (h : content arrivals ≠ []) :
    (recv n arrivals).1 ≠ [] := by
  cases arrivals with
  | nil => exact absurd rfl h
  | cons piece arrivals =>
      rw [recv]
      split
      case isTrue hlong =>
        apply List.ne_nil_of_length_pos
        rw [List.length_take]
        omega
      case isFalse => exact piece.2

end Stream
