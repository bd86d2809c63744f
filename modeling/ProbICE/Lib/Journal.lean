import Mathlib.Data.List.Induction
import Mathlib.Tactic.Common

/-! # Logs that justify their entries

A log grows at its end. Whether an entry may be written depends on the entries that stand before it, so a log
is valid when every entry was allowed at its time. -/

namespace Journal

variable {ε : Type} {allowed : List ε → ε → Prop}

/-- Every entry is allowed by the entries before it. -/
def Valid (allowed : List ε → ε → Prop) (log : List ε) : Prop :=
  ∀ before e after, log = before ++ e :: after → allowed before e

theorem valid_nil : Valid allowed [] := by
  intro before e after h
  simp at h

theorem valid_concat_iff {log : List ε} {e : ε} : Valid allowed (log ++ [e]) ↔ Valid allowed log ∧ allowed log e := by
  constructor
  · intro h
    refine ⟨fun before x after hlog => h before x (after ++ [e]) ?_, h log e [] rfl⟩
    simp [hlog]
  · rintro ⟨hlog, he⟩ before x after heq
    rcases List.eq_nil_or_concat after with rfl | ⟨after', y, rfl⟩
    · obtain ⟨rfl, hx⟩ := List.append_inj' heq rfl
      obtain rfl := List.singleton_inj.mp hx
      exact he
    · rw [List.concat_eq_append, ← List.cons_append, ← List.append_assoc] at heq
      obtain ⟨hbefore, -⟩ := List.append_inj' heq rfl
      exact hlog before x after' hbefore

/-- The front of a valid log is valid. -/
theorem Valid.of_prefix {log log' : List ε} (h : Valid allowed log) (hp : log' <+: log) : Valid allowed log' := by
  obtain ⟨rest, rfl⟩ := hp
  intro before e after heq
  exact h before e (after ++ rest) (by simp [heq])

/-- Entries that are allowed at any time from now on. -/
theorem Valid.append {log es : List ε} (h : Valid allowed log)
    (hes : ∀ e ∈ es, ∀ before, log <+: before → allowed before e) : Valid allowed (log ++ es) := by
  induction es using List.reverseRecOn with
  | nil => simpa using h
  | append_singleton es e ih =>
    rw [← List.append_assoc, valid_concat_iff]
    exact ⟨ih fun x hx => hes x (List.mem_append_left _ hx), hes e (by simp) _ (List.prefix_append _ _)⟩

/-- A log that grows by entries of one kind, and then again. -/
theorem grown_trans {P : ε → Prop} {log log' log'' : List ε} (h : ∃ es, log' = log ++ es ∧ ∀ e ∈ es, P e)
    (h' : ∃ es, log'' = log' ++ es ∧ ∀ e ∈ es, P e) : ∃ es, log'' = log ++ es ∧ ∀ e ∈ es, P e := by
  obtain ⟨es, hes, hall⟩ := h
  obtain ⟨es', hes', hall'⟩ := h'
  refine ⟨es ++ es', by rw [hes', hes, List.append_assoc], fun e he => ?_⟩
  rcases List.mem_append.mp he with he | he
  · exact hall e he
  · exact hall' e he

end Journal
