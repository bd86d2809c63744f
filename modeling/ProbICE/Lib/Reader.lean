import Mathlib.Data.List.Basic
import Mathlib.Tactic.Common

/-! # Readers

A reader takes what it needs from the front of a list and returns it with the rest, or fails. What was written for
one reader is read back whatever stands behind it, and so readers follow each other. -/

namespace Reader

variable {σ α β : Type}

/-- `bs` is read as `x`, and what stands behind it is left. -/
def Reads (r : List σ → Option (α × List σ)) (bs : List σ) (x : α) : Prop := ∀ rest, r (bs ++ rest) = some (x, rest)

section
variable {r : List σ → Option (α × List σ)} {bs cs : List σ} {x : α} {y : β}

theorem Reads.all (h : Reads r bs x) : r bs = some (x, []) := by
  have := h []
  rwa [List.append_nil] at this

/-- One reader and then another. -/
theorem Reads.bind {f : α × List σ → Option (β × List σ)} (h : Reads r bs x) (h' : Reads (fun buf => f (x, buf)) cs y) :
    Reads (fun buf => (r buf).bind f) (bs ++ cs) y := by
  intro rest
  dsimp only
  rw [List.append_assoc, h, Option.bind_some]
  exact h' rest

theorem Reads.map (f : α → β) (h : Reads r bs x) : Reads (fun buf => (r buf).map fun a => (f a.1, a.2)) bs (f x) := by
  intro rest
  dsimp only
  rw [h, Option.map_some]

end

/-- A given number of items. -/
def times (r : List σ → Option (α × List σ)) : Nat → List σ → Option (List α × List σ)
  | 0, buf => some ([], buf)
  | n + 1, buf => (r buf).bind fun a => (times r n a.2).map fun b => (a.1 :: b.1, b.2)

theorem reads_times {r : List σ → Option (α × List σ)} {w : α → List σ} {xs : List α} (h : ∀ x ∈ xs, Reads r (w x) x) :
    Reads (times r xs.length) (xs.flatMap w) xs := by
  induction xs with
  | nil => exact fun _ => rfl
  | cons x xs ih =>
    intro rest
    rw [List.flatMap_cons, List.append_assoc, List.length_cons, times, h x List.mem_cons_self, Option.bind_some,
      ih (fun y hy => h y (List.mem_cons_of_mem x hy)) rest, Option.map_some]

/-- Items up to the end of the list, `n` of them at most. -/
def many (r : List σ → Option (α × List σ)) : Nat → List σ → Option (List α)
  | _, [] => some []
  | 0, _ :: _ => none
  | n + 1, buf => (r buf).bind fun a => (many r n a.2).map (a.1 :: ·)

section many
variable {r : List σ → Option (α × List σ)}

@[simp] theorem many_nil (n : Nat) : many r n [] = some [] := by cases n <;> rfl

theorem many_succ {n : Nat} {buf : List σ} (h : buf ≠ []) :
    many r (n + 1) buf = (r buf).bind fun a => (many r n a.2).map (a.1 :: ·) := by
  cases buf with
  | nil => exact absurd rfl h
  | cons b buf => rfl

/-- What holds of each item that is read. -/
theorem forall_mem_of_many {P : α → Prop} (hr : ∀ buf a, r buf = some a → P a.1) {n : Nat} {buf : List σ} {xs : List α}
    (h : many r n buf = some xs) : ∀ x ∈ xs, P x := by
  induction n generalizing buf xs with
  | zero =>
    cases buf with
    | nil =>
      obtain rfl := Option.some.inj h
      exact fun x hx => absurd hx List.not_mem_nil
    | cons b buf => cases h
  | succ n ih =>
    by_cases hbuf : buf = []
    · rw [hbuf, many_nil] at h
      obtain rfl := Option.some.inj h
      exact fun x hx => absurd hx List.not_mem_nil
    · rw [many_succ hbuf] at h
      obtain ⟨a, hread, h⟩ := Option.bind_eq_some_iff.mp h
      obtain ⟨xs', hmany, rfl⟩ := Option.map_eq_some_iff.mp h
      intro x hx
      rcases List.mem_cons.mp hx with rfl | hx
      · exact hr buf a hread
      · exact ih hmany x hx

/-- Items that were written one behind the other are read back. -/
theorem many_flatMap {w : α → List σ} {xs : List α} (h : ∀ x ∈ xs, Reads r (w x) x ∧ w x ≠ []) {n : Nat}
    (hn : (xs.flatMap w).length ≤ n) : many r n (xs.flatMap w) = some xs := by
  induction xs generalizing n with
  | nil => exact many_nil n
  | cons x xs ih =>
    obtain ⟨hx, hne⟩ := h x List.mem_cons_self
    have hpos := List.length_pos_iff.mpr hne
    rw [List.flatMap_cons] at hn ⊢
    rw [List.length_append] at hn
    obtain ⟨m, rfl⟩ : ∃ m, n = m + 1 := ⟨n - 1, by omega⟩
    rw [many_succ (by simp [hne]), hx, Option.bind_some, ih (fun y hy => h y (List.mem_cons_of_mem x hy)) (by omega)]
    rfl

end many

end Reader
