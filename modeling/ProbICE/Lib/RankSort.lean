import Mathlib.Data.List.Sort

/-! # Sorting by a rank before anything else

A comparison may first look at a rank, and decide between equal ranks in any way, even in one that is no order. The list
that a stable insertion leaves is sorted by the rank all the same. -/

namespace RankSort

variable {α : Type} {r : α → α → Prop} [DecidableRel r] {rank : α → Nat}

/-- The comparison goes by the rank where there is a difference. -/
def Respects (r : α → α → Prop) (rank : α → Nat) : Prop := ∀ a b, rank a < rank b → r a b ∧ ¬ r b a

theorem pairwise_orderedInsert (h : Respects r rank) (a : α) {l : List α} (hl : l.Pairwise fun a b => rank a ≤ rank b) :
    (l.orderedInsert r a).Pairwise fun a b => rank a ≤ rank b := by
  induction l with
  | nil => exact List.pairwise_singleton _ _
  | cons b l ih =>
    obtain ⟨hb, hl⟩ := List.pairwise_cons.mp hl
    rw [List.orderedInsert_cons]
    split
    · rename_i hab
      have hle : rank a ≤ rank b := Nat.le_of_not_lt fun hlt => (h b a hlt).2 hab
      refine List.pairwise_cons.mpr ⟨fun c hc => ?_, List.pairwise_cons.mpr ⟨hb, hl⟩⟩
      rcases List.mem_cons.mp hc with rfl | hc
      · exact hle
      · exact hle.trans (hb c hc)
    · rename_i hab
      have hle : rank b ≤ rank a := Nat.le_of_not_lt fun hlt => hab (h a b hlt).1
      refine List.pairwise_cons.mpr ⟨fun c hc => ?_, ih hl⟩
      rcases List.mem_orderedInsert r |>.mp hc with rfl | hc
      · exact hle
      · exact hb c hc

theorem pairwise_insertionSort (h : Respects r rank) (l : List α) :
    (l.insertionSort r).Pairwise fun a b => rank a ≤ rank b := by
  induction l with
  | nil => exact List.Pairwise.nil
  | cons a l ih => exact pairwise_orderedInsert h a ih

/-- The first element has the smallest rank. -/
theorem rank_head_le (h : Respects r rank) {l : List α} {a : α} (ha : (l.insertionSort r).head? = some a) :
    ∀ b ∈ l, rank a ≤ rank b := by
  have hsorted := pairwise_insertionSort h l
  obtain ⟨rest, hrest⟩ := List.head?_eq_some_iff.mp ha
  intro b hb
  have hmem : b ∈ l.insertionSort r := (List.perm_insertionSort r l).mem_iff.mpr hb
  rw [hrest] at hsorted hmem
  rcases List.mem_cons.mp hmem with rfl | hmem
  · exact Nat.le_refl _
  · exact (List.pairwise_cons.mp hsorted).1 b hmem

/-- What is equal for the comparison stays in its order. -/
theorem pairwise_stable_orderedInsert [Std.Total r] [IsTrans α r] {R : α → α → Prop} {a : α} {l : List α}
    (ha : ∀ b ∈ l, R a b) (hl : l.Pairwise fun b c => r b c ∧ (r c b → R b c)) :
    (l.orderedInsert r a).Pairwise fun b c => r b c ∧ (r c b → R b c) := by
  induction l with
  | nil => exact List.pairwise_singleton _ _
  | cons b l ih =>
    obtain ⟨hb, hl'⟩ := List.pairwise_cons.mp hl
    rw [List.orderedInsert_cons]
    split
    · rename_i hab
      refine List.pairwise_cons.mpr ⟨fun c hc => ⟨?_, fun _ => ha c hc⟩, hl⟩
      rcases List.mem_cons.mp hc with rfl | hc
      · exact hab
      · exact IsTrans.trans a b c hab (hb c hc).1
    · rename_i hab
      have hba : r b a := (Std.Total.total a b).resolve_left hab
      refine List.pairwise_cons.mpr ⟨fun c hc => ?_, ih (fun c hc => ha c (List.mem_cons_of_mem _ hc)) hl'⟩
      rcases List.mem_orderedInsert r |>.mp hc with rfl | hc
      · exact ⟨hba, fun h => absurd h hab⟩
      · exact hb c hc

theorem pairwise_stable [Std.Total r] [IsTrans α r] {R : α → α → Prop} {l : List α} (hl : l.Pairwise R) :
    (l.insertionSort r).Pairwise fun a b => r a b ∧ (r b a → R a b) := by
  induction l with
  | nil => exact List.Pairwise.nil
  | cons a l ih =>
    obtain ⟨ha, hl⟩ := List.pairwise_cons.mp hl
    exact pairwise_stable_orderedInsert (fun b hb => ha b ((List.perm_insertionSort r l).mem_iff.mp hb)) (ih hl)

end RankSort
