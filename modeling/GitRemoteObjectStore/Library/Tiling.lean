import Mathlib.Algebra.GroupWithZero.Nat
import Mathlib.Data.List.Basic

/-!
# Tilings

Pieces of a list, each an offset and a length, that follow each other without
a gap.  What the pieces cut out, put together in their order, is the list.
-/

namespace Tiling

/-- Pieces that are not empty and lie next to each other. -/
def Tiles (stop : Nat) : Nat → List (Nat × Nat) → Prop
  | start, [] => start = stop
  | start, piece :: rest =>
      piece.1 = start ∧ 0 < piece.2 ∧ Tiles stop (start + piece.2) rest

variable
    {α : Type}
    {start middle stop : Nat}
    {pieces others : List (Nat × Nat)}

/-- What a piece cuts out. -/
def slice (whole : List α) (piece : Nat × Nat) : List α :=
  (whole.drop piece.1).take piece.2

theorem Tiles.append
    (first : Tiles middle start pieces)
    (second : Tiles stop middle others) :
    Tiles stop start (pieces ++ others) := by
  induction pieces generalizing start with
  | nil =>
      cases first
      exact second
  | cons piece rest hypothesis =>
      exact ⟨first.1, first.2.1, hypothesis first.2.2⟩

theorem Tiles.filled
    {piece : Nat × Nat}
    (tiles : Tiles stop start pieces)
    (member : piece ∈ pieces) :
    0 < piece.2 := by
  induction pieces generalizing start with
  | nil => cases member
  | cons first rest hypothesis =>
      rcases List.mem_cons.1 member with rfl | later
      · exact tiles.2.1
      · exact hypothesis tiles.2.2 later

theorem Tiles.sum
    (tiles : Tiles stop start pieces) :
    start + (pieces.map Prod.snd).sum = stop := by
  induction pieces generalizing start with
  | nil => exact tiles
  | cons piece rest hypothesis =>
      rw [List.map_cons, List.sum_cons, ← Nat.add_assoc]
      exact hypothesis tiles.2.2

/-- The pieces put together are the list. -/
theorem Tiles.flatten
    {whole : List α}
    (tiles : Tiles whole.length start pieces) :
    (pieces.map (slice whole)).flatten = whole.drop start := by
  induction pieces generalizing start with
  | nil =>
      cases tiles
      exact List.drop_length.symm
  | cons piece rest hypothesis =>
      rw [List.map_cons, List.flatten_cons, hypothesis tiles.2.2, slice,
        tiles.1, ← List.drop_drop, List.take_append_drop]

/-- Pieces of one length. -/
theorem tiles_uniform
    {length : Nat}
    (filled : 0 < length)
    (count : Nat) :
    Tiles (count * length) 0
      ((List.range count).map fun index => (index * length, length)) := by
  induction count with
  | zero => exact (Nat.zero_mul length).symm
  | succ count hypothesis =>
      rw [List.range_succ, List.map_append]
      exact
        hypothesis.append
          ⟨rfl, filled, (Nat.succ_mul count length).symm⟩

end Tiling
