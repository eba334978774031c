import Mathlib.Data.List.Basic

/-! # Slices

A slice shares its array with the slices made from it. Appending to a slice writes into the spare
capacity behind it when the elements fit, and only then; what the slice itself shows stays the
same. -/

/-- A slice from the start of an array: the array it shares and its length. -/
structure GoSlice (α : Type u) where
  array : List α
  len : Nat
  len_le : len ≤ array.length

namespace GoSlice

variable {α : Type u} (s : GoSlice α) (xs : List α)

/-- The elements of the slice. -/
def view : List α := s.array.take s.len

def cap : Nat := s.array.length

/-- The array after `xs` is written behind the slice. -/
def written : List α := s.array.take s.len ++ xs ++ s.array.drop (s.len + xs.length)

theorem length_written (h : s.len + xs.length ≤ s.cap) : (s.written xs).length = s.cap := by
  have := s.len_le
  rw [cap] at h
  simp only [written, cap, List.length_append, List.length_take, List.length_drop]
  omega

/-- The slice over its array after `xs` is written behind it. -/
def overwrite (h : s.len + xs.length ≤ s.cap) : GoSlice α where
  array := s.written xs
  len := s.len
  len_le := (s.length_written xs h).symm ▸ s.len_le

/-- `append(s, xs...)`: the slice as it is afterwards, and the result. -/
def append : GoSlice α × GoSlice α :=
  if h : s.len + xs.length ≤ s.cap then
    (s.overwrite xs h, ⟨s.written xs, s.len + xs.length, (s.length_written xs h).symm ▸ h⟩)
  else (s, ⟨s.view ++ xs, (s.view ++ xs).length, Nat.le_refl _⟩)

theorem view_length : s.view.length = s.len := by
  rw [view, List.length_take, Nat.min_eq_left s.len_le]

theorem view_overwrite (h : s.len + xs.length ≤ s.cap) : (s.overwrite xs h).view = s.view := by
  have hlen : (s.array.take s.len).length = s.len := s.view_length
  change ((s.array.take s.len ++ xs ++ _).take s.len) = _
  rw [List.append_assoc, List.take_append_of_le_length (Nat.le_of_eq hlen.symm), List.take_take,
    Nat.min_self, view]

/-- Appending to a slice leaves what it shows. -/
theorem view_append_fst : (s.append xs).1.view = s.view := by
  unfold append
  split
  next h => exact s.view_overwrite xs h
  next => rfl

theorem view_append_snd : (s.append xs).2.view = s.view ++ xs := by
  unfold append
  split
  next h =>
    have hlen : (s.view ++ xs).length = s.len + xs.length := by
      rw [List.length_append, view_length]
    change (s.view ++ xs ++ _).take (s.len + xs.length) = _
    rw [← hlen, List.take_left]
  next => exact List.take_length

end GoSlice
