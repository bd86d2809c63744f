import Mathlib.Data.List.TakeWhile

/-! # Local arrays

An array of a fixed size, as a C function has it on its stack. Every access names its index, and an access behind the end
of the array is an error with that index: what comes behind it has no meaning, so the function stops there. A function
that returns has used no index but those of the array. -/

namespace LocalArray

variable {α : Type} {n : Nat}

/-- `a[i] = x`. -/
def write (a : Vector α n) (i : Nat) (x : α) : Except Nat (Vector α n) := if h : i < n then .ok (a.set i x) else .error i

/-- `memcpy(a + i, xs, ...)`, item by item. -/
def memcpy (a : Vector α n) (i : Nat) : List α → Except Nat (Vector α n)
  | [] => .ok a
  | x :: xs => do
    let a ← write a i x
    memcpy a (i + 1) xs

/-- The items in front of the first `zero`, read from index `i` on. -/
def readUntil [DecidableEq α] (zero : α) : List α → Nat → Except Nat (List α)
  | [], i => .error i
  | x :: xs, i => if x = zero then .ok [] else (x :: ·) <$> readUntil zero xs (i + 1)

/-- The string that an array holds. -/
def text [DecidableEq α] (zero : α) (a : Vector α n) : Except Nat (List α) := readUntil zero a.toList 0

theorem write_of_lt {a : Vector α n} {i : Nat} (h : i < n) (x : α) : write a i x = .ok (a.set i x) := dif_pos h

theorem write_of_le {a : Vector α n} {i : Nat} (h : n ≤ i) (x : α) : write a i x = .error i := dif_neg (Nat.not_lt.mpr h)

theorem toList_set {a : Vector α n} {i : Nat} (h : i < n) (x : α) :
    (a.set i x).toList = a.toList.take i ++ x :: a.toList.drop (i + 1) := by
  rw [Vector.toList_set, List.set_eq_take_append_cons_drop, if_pos (by simpa using h)]

/-- What fits is copied, and the rest of the array stays. -/
theorem memcpy_of_le {a : Vector α n} {i : Nat} {xs : List α} (h : i + xs.length ≤ n) :
    ∃ a', memcpy a i xs = .ok a' ∧ a'.toList = a.toList.take i ++ xs ++ a.toList.drop (i + xs.length) := by
  induction xs generalizing a i with
  | nil => exact ⟨a, rfl, by simp⟩
  | cons x xs ih =>
    rw [List.length_cons] at h
    have hi : i < n := by omega
    obtain ⟨a', ha', hlist⟩ := ih (a := a.set i x) (i := i + 1) (by omega)
    refine ⟨a', by rw [memcpy, write_of_lt hi]; exact ha', ?_⟩
    have hlength : (a.toList.take i).length = i := by
      rw [List.length_take, Vector.length_toList]
      omega
    have htake : (a.set i x).toList.take (i + 1) = a.toList.take i ++ [x] := by
      rw [toList_set, List.take_append, hlength, List.take_of_length_le (by omega)]
      simp
    have hdrop : (a.set i x).toList.drop (i + 1 + xs.length) = a.toList.drop (i + (xs.length + 1)) := by
      rw [toList_set, List.drop_append, hlength, List.drop_of_length_le (by omega)]
      simp [Nat.add_comm, Nat.add_left_comm]
    rw [hlist, htake, hdrop]
    simp

/-- What does not fit stops at the end of the array. -/
theorem memcpy_of_lt {a : Vector α n} {i : Nat} {xs : List α} (hi : i ≤ n) (h : n < i + xs.length) :
    memcpy a i xs = .error n := by
  induction xs generalizing a i with
  | nil => simp at h; omega
  | cons x xs ih =>
    rw [List.length_cons] at h
    rcases Nat.lt_or_eq_of_le hi with hlt | rfl
    · rw [memcpy, write_of_lt hlt]
      exact ih hlt (by omega)
    · rw [memcpy, write_of_le le_rfl]
      rfl

theorem readUntil_append [DecidableEq α] (zero : α) (xs rest : List α) (i : Nat) :
    readUntil zero (xs ++ zero :: rest) i = .ok (xs.takeWhile (· ≠ zero)) := by
  induction xs generalizing i with
  | nil => simp [readUntil]
  | cons x xs ih =>
    by_cases hx : x = zero
    · simp [readUntil, hx]
    · rw [List.cons_append, readUntil, if_neg hx, ih, List.takeWhile_cons_of_pos (by simpa using hx)]
      rfl

/-- A string that has been copied and ended is read back up to its first `zero`. -/
theorem text_of_toList [DecidableEq α] {zero : α} {a : Vector α n} {xs rest : List α} (h : a.toList = xs ++ zero :: rest) :
    text zero a = .ok (xs.takeWhile (· ≠ zero)) := by
  rw [text, h, readUntil_append]

end LocalArray
