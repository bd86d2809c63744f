import Mathlib.Data.List.Basic

/-! # Messages about a shared cell

A writer puts a value into a cell and posts a message with a tag. A reader takes the oldest message, and with it the
value that the cell has by then. -/

structure SharedCell (α β : Type) where
  cell : β
  /-- The tags of the messages that have not been taken, oldest first. -/
  waiting : List α
  /-- The tags and the values of all writes and of all reads, oldest first. -/
  written : List (α × β)
  read : List (α × β)

namespace SharedCell

variable {α β : Type} {c d : SharedCell α β}

def empty (b : β) : SharedCell α β := { cell := b, waiting := [], written := [], read := [] }

def put (c : SharedCell α β) (a : α) (b : β) : SharedCell α β :=
  { cell := b, waiting := c.waiting ++ [a], written := c.written ++ [(a, b)], read := c.read }

def take (c : SharedCell α β) : Option (SharedCell α β) :=
  match c.waiting with
  | [] => none
  | a :: waiting => some { c with waiting, read := c.read ++ [(a, c.cell)] }

/-- The reads of a tag are in the order of the writes. -/
def Tagged (c : SharedCell α β) : Prop := c.read.map Prod.fst ++ c.waiting = c.written.map Prod.fst

/-- If no more is written, every write is read as it was written. -/
def Fresh (c : SharedCell α β) : Prop := c.read ++ c.waiting.map (·, c.cell) = c.written

theorem take_eq_some (h : c.take = some d) :
    ∃ a, c.waiting = a :: d.waiting ∧ d.cell = c.cell ∧ d.written = c.written ∧ d.read = c.read ++ [(a, c.cell)] := by
  unfold take at h
  cases hwaiting : c.waiting with
  | nil => simp [hwaiting] at h
  | cons a waiting =>
    rw [hwaiting] at h
    obtain rfl := Option.some.inj h
    exact ⟨a, rfl, rfl, rfl, rfl⟩

theorem tagged_empty (b : β) : (empty (α := α) b).Tagged := rfl

theorem Tagged.put (h : c.Tagged) (a : α) (b : β) : (c.put a b).Tagged := by
  rw [Tagged] at h
  rw [Tagged, SharedCell.put, ← List.append_assoc, h]
  simp

theorem Tagged.take (h : c.Tagged) (htake : c.take = some d) : d.Tagged := by
  obtain ⟨a, hwaiting, -, hwritten, hread⟩ := take_eq_some htake
  rw [Tagged, hwaiting] at h
  rw [Tagged, hwritten, hread, ← h]
  simp

theorem fresh_empty (b : β) : (empty (α := α) b).Fresh := rfl

/-- A write spoils the messages that wait, unless it changes nothing. -/
theorem fresh_put_iff (h : c.Fresh) (a : α) (b : β) : (c.put a b).Fresh ↔ c.waiting = [] ∨ b = c.cell := by
  have hput : (c.put a b).Fresh ↔ c.waiting.map (·, b) = c.waiting.map (·, c.cell) := by
    rw [Fresh] at h
    rw [Fresh, put, ← h]
    simp only [List.map_append, List.map_cons, List.map_nil, ← List.append_assoc]
    rw [List.append_cancel_right_eq, List.append_cancel_left_eq]
  rw [hput]
  cases c.waiting with
  | nil => simp
  | cons a waiting =>
    constructor
    · intro heq
      exact .inr (Prod.mk.inj (List.cons.inj heq).1).2
    · rintro (hnil | rfl)
      · cases hnil
      · rfl

theorem Fresh.take (h : c.Fresh) (htake : c.take = some d) : d.Fresh := by
  obtain ⟨a, hwaiting, hcell, hwritten, hread⟩ := take_eq_some htake
  rw [Fresh, hwaiting] at h
  rw [Fresh, hcell, hwritten, hread, ← h]
  simp

theorem Fresh.prefix_read (h : c.Fresh) : c.read <+: c.written := by
  rw [Fresh] at h
  rw [← h]
  exact List.prefix_append _ _

theorem Fresh.read_eq (h : c.Fresh) (hwaiting : c.waiting = []) : c.read = c.written := by
  simpa [Fresh, hwaiting] using h

/-- All messages are taken, one after the other. -/
def drain (c : SharedCell α β) : SharedCell α β :=
  { c with waiting := [], read := c.read ++ c.waiting.map (·, c.cell) }

theorem drain_take (h : c.take = some d) : d.drain = c.drain := by
  obtain ⟨a, hwaiting, hcell, hwritten, hread⟩ := take_eq_some h
  simp [drain, hwaiting, hcell, hwritten, hread]

/-- What is read in the end shows whether every read is as it was written. -/
theorem fresh_of_drain (h : c.Tagged) (hdrain : c.drain.read <+: c.drain.written) : c.Fresh := by
  rw [Tagged] at h
  refine hdrain.eq_of_length ?_
  have hlength := congrArg List.length h
  simpa [drain] using hlength

end SharedCell
