import Mathlib.Data.List.Sort

/-! # Priority queues over the algorithms of heaps

Of the algorithms that make a heap of a sequence only that is known which their documentation promises. How they lay it
out is left open, and so is what they do with a sequence that is no heap. -/

namespace PriorityQueue

variable {α : Type} {lt : α → α → Bool}

/-- With `lt x y`, `x` has to let `y` go first. -/
structure Heaps (lt : α → α → Bool) where
  IsHeap : List α → Prop
  make_heap : List α → List α
  /-- The new element is at the back. -/
  push_heap : List α → List α
  /-- The element that comes out goes to the back. -/
  pop_heap : List α → List α
  front : ∀ {x : α} {c : List α}, IsHeap (x :: c) → ∀ y ∈ c, lt x y = false
  make : ∀ c, IsHeap (make_heap c) ∧ (make_heap c).Perm c
  push : ∀ {c : List α} (x : α), IsHeap c → IsHeap (push_heap (c ++ [x])) ∧ (push_heap (c ++ [x])).Perm (c ++ [x])
  pop : ∀ {x : α} {c : List α}, IsHeap (x :: c) → ∃ c', pop_heap (x :: c) = c' ++ [x] ∧ IsHeap c' ∧ c'.Perm c

/-- Sorted sequences are heaps. -/
def Heaps.sorted (lt : α → α → Bool) (htotal : ∀ a b, lt a b = false ∨ lt b a = false)
    (htrans : ∀ a b c, lt a b = false → lt b c = false → lt a c = false) : Heaps lt where
  IsHeap c := c.Pairwise fun a b => lt a b = false
  make_heap c := c.insertionSort fun a b => lt a b = false
  push_heap c := c.insertionSort fun a b => lt a b = false
  pop_heap
    | [] => []
    | x :: c => c ++ [x]
  front h := (List.pairwise_cons.mp h).1
  make c :=
    haveI : Std.Total fun a b => lt a b = false := ⟨htotal⟩
    haveI : IsTrans α fun a b => lt a b = false := ⟨htrans⟩
    ⟨List.pairwise_insertionSort _ c, List.perm_insertionSort _ c⟩
  push _ _ :=
    haveI : Std.Total fun a b => lt a b = false := ⟨htotal⟩
    haveI : IsTrans α fun a b => lt a b = false := ⟨htrans⟩
    ⟨List.pairwise_insertionSort _ _, List.perm_insertionSort _ _⟩
  pop {_ c} h := ⟨c, rfl, (List.pairwise_cons.mp h).2, List.Perm.refl c⟩

end PriorityQueue

/-- A container that is a heap. -/
structure PriorityQueue {α : Type} {lt : α → α → Bool} (heaps : PriorityQueue.Heaps lt) where
  container : List α
  isHeap : heaps.IsHeap container

namespace PriorityQueue

variable {α : Type} {lt : α → α → Bool} {heaps : Heaps lt} {q : PriorityQueue heaps}

def reheap (heaps : Heaps lt) (container : List α) : PriorityQueue heaps :=
  ⟨heaps.make_heap container, (heaps.make container).1⟩

def push (q : PriorityQueue heaps) (x : α) : PriorityQueue heaps :=
  ⟨heaps.push_heap (q.container ++ [x]), (heaps.push x q.isHeap).1⟩

def top (q : PriorityQueue heaps) : Option α := q.container.head?

/-- What is left behind the element that `pop_heap` puts to the back. -/
theorem isHeap_dropLast {x : α} {c : List α} (h : heaps.IsHeap (x :: c)) :
    heaps.IsHeap (heaps.pop_heap (x :: c)).dropLast := by
  obtain ⟨c', hc', hheap, -⟩ := heaps.pop h
  rw [hc', List.dropLast_concat]
  exact hheap

/-- There is nothing to pop from an empty queue. -/
def pop (q : PriorityQueue heaps) : PriorityQueue heaps :=
  match q with
  | ⟨[], h⟩ => ⟨[], h⟩
  | ⟨x :: c, h⟩ => ⟨(heaps.pop_heap (x :: c)).dropLast, isHeap_dropLast h⟩

theorem perm_reheap (c : List α) : (reheap heaps c).container.Perm c := (heaps.make c).2

theorem perm_push (q : PriorityQueue heaps) (x : α) : (q.push x).container.Perm (x :: q.container) :=
  (heaps.push x q.isHeap).2.trans (List.perm_append_singleton x q.container)

theorem top_eq_none : q.top = none ↔ q.container = [] := List.head?_eq_none_iff

theorem mem_of_top {x : α} (h : q.top = some x) : x ∈ q.container := List.mem_of_mem_head? h

/-- The top is an element that need not let any other go first, and popping takes this element. -/
theorem perm_pop {x : α} (h : q.top = some x) :
    (x :: q.pop.container).Perm q.container ∧ ∀ y ∈ q.pop.container, lt x y = false := by
  obtain ⟨c, hheap⟩ := q
  obtain ⟨rest, rfl⟩ := List.head?_eq_some_iff.mp h
  obtain ⟨c', hc', -, hperm⟩ := heaps.pop hheap
  have hpop : (pop ⟨x :: rest, hheap⟩).container = c' := by
    change (heaps.pop_heap (x :: rest)).dropLast = c'
    rw [hc', List.dropLast_concat]
  rw [hpop]
  exact ⟨hperm.cons x, fun y hy => heaps.front hheap y (hperm.mem_iff.mp hy)⟩

theorem top_first {x : α} (h : q.top = some x) {y : α} (hy : y ∈ q.container) : y = x ∨ lt x y = false := by
  obtain ⟨hperm, hfirst⟩ := perm_pop h
  exact (List.mem_cons.mp (hperm.mem_iff.mpr hy)).imp_right (hfirst y)

theorem length_pop {x : α} (h : q.top = some x) : q.container.length = q.pop.container.length + 1 :=
  (perm_pop h).1.length_eq.symm

/-- As many times as there may be elements. -/
def popLoop (p : α → Bool) : Nat → PriorityQueue heaps → List α × PriorityQueue heaps
  | 0, q => ([], q)
  | n + 1, q =>
    match q.top with
    | none => ([], q)
    | some x =>
      if p x then
        let (xs, rest) := popLoop p n q.pop
        (x :: xs, rest)
      else ([], q)

/-- Pop as long as the top is to go. -/
def popWhile (q : PriorityQueue heaps) (p : α → Bool) : List α × PriorityQueue heaps := popLoop p q.container.length q

/-- Whatever can be done by taking the top again and again is done by a loop of pops. -/
theorem popLoop_induction {p : α → Bool} {motive : PriorityQueue heaps → List α × PriorityQueue heaps → Prop}
    (stop : ∀ q, (∀ x, q.top = some x → p x = false) → motive q ([], q))
    (go : ∀ q x r, q.top = some x → p x → motive q.pop r → motive q (x :: r.1, r.2)) {n : Nat}
    {q : PriorityQueue heaps} (hn : q.container.length ≤ n) : motive q (popLoop p n q) := by
  induction n generalizing q with
  | zero =>
    refine stop q fun x hx => ?_
    have hlength := length_pop hx
    omega
  | succ n ih =>
    rw [popLoop]
    cases htop : q.top with
    | none => exact stop q fun x hx => absurd (htop.symm.trans hx) (Option.some_ne_none x).symm
    | some x =>
      dsimp only
      split
      · rename_i hp
        have hlength := length_pop htop
        exact go q x _ htop hp (ih (by omega))
      · rename_i hp
        refine stop q fun y hy => ?_
        obtain rfl := Option.some.inj (htop.symm.trans hy)
        exact Bool.eq_false_iff.mpr hp

theorem popWhile_induction {p : α → Bool} {motive : PriorityQueue heaps → List α × PriorityQueue heaps → Prop}
    (stop : ∀ q, (∀ x, q.top = some x → p x = false) → motive q ([], q))
    (go : ∀ q x r, q.top = some x → p x → motive q.pop r → motive q (x :: r.1, r.2)) (q : PriorityQueue heaps) :
    motive q (q.popWhile p) :=
  popLoop_induction stop go (Nat.le_refl _)

/-- Whether anything comes out is decided by the top. -/
theorem popWhile_of_stop {p : α → Bool} (hstop : ∀ x, q.top = some x → p x = false) : q.popWhile p = ([], q) := by
  refine popWhile_induction (motive := fun q r => (∀ x, q.top = some x → p x = false) → r = ([], q)) ?_ ?_ q hstop
  · exact fun _ _ _ => rfl
  · intro q x r htop hp _ hstop
    exact absurd hp (Bool.eq_false_iff.mp (hstop x htop))

theorem popWhile_ne_nil {p : α → Bool} {x : α} (htop : q.top = some x) (hp : p x) : (q.popWhile p).1 ≠ [] := by
  refine popWhile_induction (motive := fun q r => q.top = some x → r.1 ≠ []) ?_ ?_ q htop
  · intro q hstop htop
    exact absurd hp (Bool.eq_false_iff.mp (hstop x htop))
  · exact fun _ _ _ _ _ _ _ => List.cons_ne_nil _ _

/-- Nothing is lost. -/
theorem perm_popWhile (p : α → Bool) (q : PriorityQueue heaps) :
    ((q.popWhile p).1 ++ (q.popWhile p).2.container).Perm q.container := by
  refine popWhile_induction (motive := fun q r => (r.1 ++ r.2.container).Perm q.container) ?_ ?_ q
  · exact fun q _ => List.Perm.refl _
  · intro q x r htop _ ih
    exact (ih.cons x).trans (perm_pop htop).1

/-- What comes out has to come out, and what is then on the top has not. -/
theorem popWhile_spec (p : α → Bool) (q : PriorityQueue heaps) :
    (∀ x ∈ (q.popWhile p).1, p x) ∧ ∀ x, (q.popWhile p).2.top = some x → p x = false := by
  refine popWhile_induction (motive := fun _ r => (∀ x ∈ r.1, p x) ∧ ∀ x, r.2.top = some x → p x = false) ?_ ?_ q
  · exact fun q hstop => ⟨fun x hx => absurd hx List.not_mem_nil, hstop⟩
  · intro q x r _ hp ih
    exact ⟨List.forall_mem_cons.mpr ⟨hp, ih.1⟩, ih.2⟩

end PriorityQueue
