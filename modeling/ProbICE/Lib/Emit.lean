import Mathlib.Tactic.Common

/-! # Operations that emit

An operation on an object returns the object and a list of effects for somebody else, oldest first.
Effects of operations that follow each other are put one behind the other. -/

namespace Emit

variable {σ ε β : Type}

/-- One operation and then another. -/
def andThen (m : σ × List ε) (f : σ → σ × List ε) : σ × List ε := ((f m.1).1, m.2 ++ (f m.1).2)

/-- The operation `f` for each element of a list. -/
def forEach (f : σ → β → σ × List ε) : σ → List β → σ × List ε
  | x, [] => (x, [])
  | x, b :: bs => andThen (f x b) fun x => forEach f x bs

@[simp] theorem forEach_nil (f : σ → β → σ × List ε) (x : σ) : forEach f x [] = (x, []) := rfl

@[simp] theorem forEach_cons (f : σ → β → σ × List ε) (x : σ) (b : β) (bs : List β) :
    forEach f x (b :: bs) = andThen (f x b) fun x => forEach f x bs := rfl

/-- What every operation keeps, a list of operations keeps. -/
theorem forEach_keeps {f : σ → β → σ × List ε} {P : σ → Prop} {bs : List β} (hf : ∀ x, ∀ b ∈ bs, P x → P (f x b).1)
    {x : σ} (hx : P x) : P (forEach f x bs).1 := by
  induction bs generalizing x with
  | nil => exact hx
  | cons b bs ih =>
    exact ih (fun x c hc => hf x c (List.mem_cons_of_mem _ hc)) (hf x b List.mem_cons_self hx)

/-- A list of operations emits only what its operations emit from states that they keep. -/
theorem mem_forEach {f : σ → β → σ × List ε} {P : σ → Prop} {Q : ε → Prop} {bs : List β}
    (hf : ∀ x, ∀ b ∈ bs, P x → P (f x b).1 ∧ ∀ e ∈ (f x b).2, Q e) {x : σ} (hx : P x) :
    ∀ e ∈ (forEach f x bs).2, Q e := by
  induction bs generalizing x with
  | nil => simp
  | cons b bs ih =>
    intro e he
    obtain ⟨hP, hQ⟩ := hf x b List.mem_cons_self hx
    rcases List.mem_append.mp he with he | he
    · exact hQ e he
    · exact ih (fun x c hc => hf x c (List.mem_cons_of_mem _ hc)) hP e he

end Emit
