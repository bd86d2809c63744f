import Mathlib.Data.List.TakeWhile

/-! # Labelled values in a text

A text begins with cells, each of which ends at a separator, and nothing is known of what stands behind them. A cell may
be a label with its value. A reader looks for the first cell that begins with a label. -/

namespace Labelled

variable {α : Type} {sep : α → Bool}

/-- Cells with the separator that ends each of them. -/
def write (cells : List (List α × α)) : List α := cells.flatMap fun c => c.1 ++ [c.2]

/-- The value behind a label. -/
def lookup [DecidableEq α] (sep : α → Bool) (label text : List α) : Option (List α) :=
  ((text.splitOnP sep).find? (label <+: ·)).map (·.drop label.length)

/-- A cell with no separator in it, and a separator behind it. -/
def Ended (sep : α → Bool) (c : List α × α) : Prop := (∀ x ∈ c.1, sep x = false) ∧ sep c.2 = true

theorem splitOnP_write {cells : List (List α × α)} (h : ∀ c ∈ cells, Ended sep c) (rest : List α) :
    (write cells ++ rest).splitOnP sep = cells.map Prod.fst ++ rest.splitOnP sep := by
  induction cells with
  | nil => rfl
  | cons c cells ih =>
    have hc := h c List.mem_cons_self
    have hfirst : write (c :: cells) ++ rest = c.1 ++ c.2 :: (write cells ++ rest) := by simp [write]
    rw [hfirst, List.splitOnP_append_cons_of_forall_mem (by simpa using hc.1) c.2 hc.2,
      ih fun c' hc' => h c' (List.mem_cons_of_mem _ hc')]
    rfl

/-- A value is found behind its label, if the label stands in front of no other cell. -/
theorem lookup_write [DecidableEq α] {cells : List (List α × α)} (h : ∀ c ∈ cells, Ended sep c) {label value : List α}
    (hmem : label ++ value ∈ cells.map Prod.fst)
    (hunique : ∀ w ∈ cells.map Prod.fst, label <+: w → w = label ++ value) (rest : List α) :
    lookup sep label (write cells ++ rest) = some value := by
  have hfound : ∃ w, (cells.map Prod.fst).find? (label <+: ·) = some w :=
    Option.isSome_iff_exists.mp (List.find?_isSome.mpr ⟨_, hmem, by simp⟩)
  obtain ⟨w, hw⟩ := hfound
  have hlabel : label <+: w := by simpa using List.find?_some hw
  obtain rfl := hunique w (List.mem_of_find?_eq_some hw) hlabel
  rw [lookup, splitOnP_write h, List.find?_append, hw]
  simp

end Labelled
