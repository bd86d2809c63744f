import Mathlib.Algebra.Order.Group.Multiset
import Mathlib.Data.List.Sort
import Mathlib.Data.Multiset.Filter
import Mathlib.Logic.Relation
import Mathlib.Tactic.Abel

/-! # Mailboxes with timers

A mailbox is a line of letters. Letters are posted at the end of the line, or they wait until they are released into it,
and they are taken from its front, from where the last one may be put back. What may be done is left to rules: which
letters may be posted, delayed, released, dropped and put back. -/

/-- A letter of `τ` is one of `α` that is to wait. -/
structure Mailbox (α τ : Type) where
  line : List α
  waiting : Multiset τ
  taken : List α
  dropped : Multiset α
  delayed : List τ
  /-- What has come into the line, at once or from among the waiting, in its order. -/
  entered : List (α ⊕ τ)

namespace Mailbox

variable {α τ : Type} {content : τ → α} {lt : τ → τ → Bool}

def empty : Mailbox α τ := ⟨[], 0, [], 0, [], []⟩

def posted (m : Mailbox α τ) : List α := m.entered.filterMap Sum.getLeft?

def released (m : Mailbox α τ) : List τ := m.entered.filterMap Sum.getRight?

structure Rules (α τ : Type) where
  posts : α → Prop
  delays : τ → Prop
  ripe : τ → Prop
  drops : α → Prop
  returns : α → Prop

/-- With `lt d d'`, `d` has to let `d'` go first. -/
inductive Act (content : τ → α) (lt : τ → τ → Bool) (r : Rules α τ) (m : Mailbox α τ) : Mailbox α τ → Prop
  | post (a : α) (h : r.posts a) : Act content lt r m { m with line := m.line ++ [a], entered := m.entered ++ [.inl a] }
  | delay (d : τ) (h : r.delays d) :
    Act content lt r m { m with waiting := d ::ₘ m.waiting, delayed := m.delayed ++ [d] }
  | release (d : τ) (rest : Multiset τ) (hwaiting : m.waiting = d ::ₘ rest) (hfirst : ∀ d' ∈ rest, lt d d' = false)
      (h : r.ripe d) :
    Act content lt r m
      { m with line := m.line ++ [content d], waiting := rest, entered := m.entered ++ [.inr d] }
  | take (a : α) (rest : List α) (hline : m.line = a :: rest) :
    Act content lt r m { m with line := rest, taken := m.taken ++ [a] }
  | back (a : α) (taken : List α) (htaken : m.taken = taken ++ [a]) (h : r.returns a) :
    Act content lt r m { m with line := a :: m.line, taken := taken }
  | discard (a : α) (rest : List α) (hline : m.line = a :: rest) (h : r.drops a) :
    Act content lt r m { m with line := rest, dropped := a ::ₘ m.dropped }
  | clear (p : α → Bool) (h : ∀ a, p a → r.drops a) :
    Act content lt r m
      { m with
        line := m.line.filter fun a => !p a
        waiting := m.waiting.filter fun d => ¬ p (content d)
        dropped := m.dropped + ↑(m.line.filter p) + (m.waiting.filter fun d => p (content d)).map content }

abbrev Acts (content : τ → α) (lt : τ → τ → Bool) (r : Rules α τ) : Mailbox α τ → Mailbox α τ → Prop :=
  Relation.ReflTransGen (Act content lt r)

variable {r : Rules α τ} {m m' : Mailbox α τ}

/-- What every act keeps. -/
theorem Acts.keeps {I : Mailbox α τ → Prop} (hact : ∀ m m', I m → Act content lt r m m' → I m')
    (h : Acts content lt r m m') (hm : I m) : I m' := by
  induction h with
  | refl => exact hm
  | tail _ h ih => exact hact _ _ ih h

theorem posted_inr (m : Mailbox α τ) (d : τ) : (m.entered ++ [Sum.inr d]).filterMap Sum.getLeft? = m.posted := by
  rw [List.filterMap_append]
  exact List.append_nil _

theorem mem_posted_inl {m : Mailbox α τ} {a b : α}
    (h : b ∈ (m.entered ++ [Sum.inl a]).filterMap Sum.getLeft?) : b ∈ m.posted ∨ b = a := by
  rw [List.filterMap_append] at h
  exact (List.mem_append.mp h).imp_right List.mem_singleton.mp

theorem released_inl (m : Mailbox α τ) (a : α) :
    (m.entered ++ [Sum.inl a]).filterMap Sum.getRight? = m.released := by
  rw [List.filterMap_append]
  exact List.append_nil _

theorem released_inr (m : Mailbox α τ) (d : τ) :
    (m.entered ++ [Sum.inr d]).filterMap Sum.getRight? = m.released ++ [d] := by
  rw [List.filterMap_append]
  rfl

theorem mem_released_inr {m : Mailbox α τ} {d d' : τ}
    (h : d' ∈ (m.entered ++ [Sum.inr d]).filterMap Sum.getRight?) : d' ∈ m.released ∨ d' = d := by
  rw [released_inr] at h
  exact (List.mem_append.mp h).imp_right List.mem_singleton.mp

/-! ### Nothing is lost and nothing comes twice -/

/-- Every letter is somewhere, and once. -/
def Accounted (content : τ → α) (m : Mailbox α τ) : Prop :=
  (↑m.posted + ↑(m.delayed.map content) : Multiset α) =
    ↑m.taken + ↑m.line + m.waiting.map content + m.dropped

theorem accounted_empty : (empty : Mailbox α τ).Accounted content := rfl

theorem Accounted.act (hm : m.Accounted content) (h : Act content lt r m m') : m'.Accounted content := by
  unfold Accounted posted at hm ⊢
  cases h with
  | post a h =>
    simp only [List.filterMap_append, List.filterMap_cons, List.filterMap_nil, Sum.getLeft?_inl, ← Multiset.coe_add]
    rw [add_right_comm, hm]
    abel
  | delay d h =>
    simp only [List.map_append, List.map_cons, List.map_nil, Multiset.map_cons, ← Multiset.coe_add]
    rw [← add_assoc, hm, ← Multiset.singleton_add]
    change _ + {content d} = _
    abel
  | release d rest hwaiting hfirst h =>
    simp only [List.filterMap_append, List.filterMap_cons, List.filterMap_nil, Sum.getLeft?_inr, List.append_nil,
      ← Multiset.coe_add]
    rw [hm, hwaiting, Multiset.map_cons, ← Multiset.singleton_add]
    change _ = _ + (_ + {content d}) + _ + _
    abel
  | take a rest hline =>
    simp only [← Multiset.coe_add]
    rw [hm, hline, ← Multiset.cons_coe, ← Multiset.singleton_add]
    change _ = _ + {a} + _ + _ + _
    abel
  | back a taken htaken h =>
    rw [hm, htaken, ← Multiset.coe_add]
    change _ + {a} + _ + _ + _ = _ + (a ::ₘ ↑m.line) + _ + _
    rw [← Multiset.singleton_add]
    abel
  | discard a rest hline h =>
    rw [hm, hline, ← Multiset.cons_coe, ← Multiset.singleton_add]
    change _ = _ + _ + _ + (a ::ₘ m.dropped)
    rw [← Multiset.singleton_add]
    abel
  | clear p h =>
    have hline : (↑m.line : Multiset α) = ↑(m.line.filter p) + ↑(m.line.filter fun a => !p a) := by
      rw [Multiset.coe_add]
      exact Multiset.coe_eq_coe.mpr (List.filter_append_perm p m.line).symm
    have hwaiting : m.waiting.map content = (m.waiting.filter fun d => p (content d)).map content +
        (m.waiting.filter fun d => ¬ p (content d)).map content := by
      rw [← Multiset.map_add, Multiset.filter_add_not]
    rw [hm, hline, hwaiting]
    dsimp only
    abel

/-! ### What stays in the line stays in its order -/

/-- Letters may be missing, but never change places. -/
theorem sublist_act (hm : (m.taken ++ m.line).Sublist (m.entered.map (Sum.elim id content)))
    (h : Act content lt r m m') : (m'.taken ++ m'.line).Sublist (m'.entered.map (Sum.elim id content)) := by
  cases h with
  | post a h =>
    rw [List.map_append, ← List.append_assoc]
    exact hm.append (List.Sublist.refl _)
  | delay d h => exact hm
  | release d rest hwaiting hfirst h =>
    rw [List.map_append, ← List.append_assoc]
    exact hm.append (List.Sublist.refl _)
  | take a rest hline =>
    rw [hline, ← List.singleton_append, ← List.append_assoc] at hm
    exact hm
  | back a taken htaken h =>
    rw [htaken, List.append_assoc] at hm
    exact hm
  | discard a rest hline h =>
    rw [hline] at hm
    exact ((List.sublist_cons_self a rest).append_left _).trans hm
  | clear p h => exact (List.filter_sublist.append_left _).trans hm

/-- Letters that are never dropped. -/
def Stays (p : α → Bool) (r : Rules α τ) : Prop := ∀ a, p a → ¬ r.drops a

/-- The letters of a kind come out as they have come in. -/
def InOrder (content : τ → α) (p : α → Bool) (m : Mailbox α τ) : Prop :=
  (m.taken ++ m.line).filter p = (m.entered.map (Sum.elim id content)).filter p

theorem inOrder_empty (p : α → Bool) : (empty : Mailbox α τ).InOrder content p := rfl

theorem InOrder.act {p : α → Bool} (hstays : Stays p r) (hm : m.InOrder content p) (h : Act content lt r m m') :
    m'.InOrder content p := by
  unfold InOrder at hm ⊢
  cases h with
  | post a h =>
    simp only [List.map_append, List.map_cons, List.map_nil, ← List.append_assoc, List.filter_append _ [_]]
    rw [hm]
    rfl
  | delay d h => exact hm
  | release d rest hwaiting hfirst h =>
    simp only [List.map_append, List.map_cons, List.map_nil, ← List.append_assoc, List.filter_append _ [_]]
    rw [hm]
    rfl
  | take a rest hline =>
    rw [← hm, hline, List.append_assoc]
    rfl
  | back a taken htaken h =>
    rw [← hm, htaken, List.append_assoc]
    rfl
  | discard a rest hline h =>
    have ha : ¬ p a := fun hp => hstays a hp h
    rw [← hm, hline, List.filter_append, List.filter_append, List.filter_cons_of_neg ha]
  | clear q h =>
    have hline : (m.line.filter fun a => !q a).filter p = m.line.filter p := by
      rw [List.filter_filter]
      refine List.filter_congr fun a _ => ?_
      cases hq : q a with
      | false => exact Bool.and_true _
      | true => exact (Bool.and_false _).trans (Bool.eq_false_iff.mpr fun hp => hstays a hp (h a hq)).symm
    rw [← hm, List.filter_append, List.filter_append, hline]

/-- What waits of a kind is what has been delayed and not been released. -/
def Patient (content : τ → α) (p : α → Bool) (m : Mailbox α τ) : Prop :=
  ((↑m.delayed : Multiset τ).filter fun d => p (content d)) =
    ((↑m.released : Multiset τ).filter fun d => p (content d)) + m.waiting.filter fun d => p (content d)

theorem patient_empty (p : α → Bool) : (empty : Mailbox α τ).Patient content p := rfl

theorem Patient.act {p : α → Bool} (hstays : Stays p r) (hm : m.Patient content p) (h : Act content lt r m m') :
    m'.Patient content p := by
  unfold Patient released at hm ⊢
  cases h with
  | post a h =>
    simp only [List.filterMap_append, List.filterMap_cons, List.filterMap_nil, Sum.getRight?_inl, List.append_nil]
    exact hm
  | delay d h =>
    rw [← Multiset.coe_add, Multiset.filter_add, hm, ← Multiset.singleton_add, Multiset.filter_add, Multiset.coe_singleton]
    abel
  | release d rest hwaiting hfirst h =>
    simp only [List.filterMap_append, List.filterMap_cons, List.filterMap_nil, Sum.getRight?_inr]
    rw [hm, hwaiting, ← Multiset.singleton_add, ← Multiset.coe_add, Multiset.filter_add, Multiset.filter_add,
      Multiset.coe_singleton]
    abel
  | take a rest hline => exact hm
  | back a taken htaken h => exact hm
  | discard a rest hline h => exact hm
  | clear q h =>
    have hwaiting : ((m.waiting.filter fun d => ¬ q (content d)).filter fun d => p (content d)) =
        m.waiting.filter fun d => p (content d) := by
      rw [Multiset.filter_filter]
      exact Multiset.filter_congr fun d _ => and_iff_left_of_imp fun hp hq => hstays _ hp (h _ hq)
    rw [hm, hwaiting]

/-- What has been released, and what waits, has been delayed. -/
theorem mem_delayed_act (hm : (∀ d ∈ m.released, d ∈ m.delayed) ∧ ∀ d ∈ m.waiting, d ∈ m.delayed)
    (h : Act content lt r m m') : (∀ d ∈ m'.released, d ∈ m'.delayed) ∧ ∀ d ∈ m'.waiting, d ∈ m'.delayed := by
  obtain ⟨hreleased, hwaits⟩ := hm
  cases h with
  | post a h => exact ⟨fun d hd => hreleased d (released_inl m a ▸ hd), hwaits⟩
  | delay d h =>
    refine ⟨fun d' hd' => List.mem_append_left _ (hreleased d' hd'), fun d' hd' => ?_⟩
    rcases Multiset.mem_cons.mp hd' with rfl | hd'
    · exact List.mem_append_right _ List.mem_cons_self
    · exact List.mem_append_left _ (hwaits d' hd')
  | release d rest hwaiting hfirst h =>
    refine ⟨fun d' hd' => ?_, fun d' hd' => hwaits d' (hwaiting ▸ Multiset.mem_cons_of_mem hd')⟩
    rcases mem_released_inr hd' with hd' | rfl
    · exact hreleased d' hd'
    · exact hwaits d' (hwaiting ▸ Multiset.mem_cons_self d' rest)
  | take a rest hline => exact ⟨hreleased, hwaits⟩
  | back a taken htaken h => exact ⟨hreleased, hwaits⟩
  | discard a rest hline h => exact ⟨hreleased, hwaits⟩
  | clear q h => exact ⟨hreleased, fun d hd => hwaits d (Multiset.mem_of_mem_filter hd)⟩

theorem prefix_delayed_act (h : Act content lt r m m') : m.delayed <+: m'.delayed := by
  cases h with
  | delay d h => exact List.prefix_append _ _
  | post a h => exact List.prefix_refl _
  | release d rest hwaiting hfirst h => exact List.prefix_refl _
  | take a rest hline => exact List.prefix_refl _
  | back a taken htaken h => exact List.prefix_refl _
  | discard a rest hline h => exact List.prefix_refl _
  | clear q h => exact List.prefix_refl _

/-- What holds of the letters because of the rules. -/
structure Justified (P : α → Prop) (D R : τ → Prop) (m : Mailbox α τ) : Prop where
  posted : ∀ a ∈ m.posted, P a
  delayed : ∀ d ∈ m.delayed, D d
  released : ∀ d ∈ m.released, R d

theorem Justified.act {P : α → Prop} {D R : τ → Prop} (hposts : ∀ a, r.posts a → P a) (hdelays : ∀ d, r.delays d → D d)
    (hripe : ∀ d ∈ m.waiting, r.ripe d → R d) (hm : m.Justified P D R) (h : Act content lt r m m') : m'.Justified P D R := by
  obtain ⟨hposted, hdelayed, hreleased⟩ := hm
  cases h with
  | post a h =>
    refine ⟨fun b hb => ?_, hdelayed, fun d hd => hreleased d (released_inl m a ▸ hd)⟩
    rcases mem_posted_inl hb with hb | rfl
    · exact hposted b hb
    · exact hposts b h
  | delay d h =>
    refine ⟨hposted, fun d' hd' => ?_, hreleased⟩
    rcases List.mem_append.mp hd' with hd' | hd'
    · exact hdelayed d' hd'
    · exact List.mem_singleton.mp hd' ▸ hdelays d h
  | release d rest hwaiting hfirst h =>
    refine ⟨fun b hb => hposted b (posted_inr m d ▸ hb), hdelayed, fun d' hd' => ?_⟩
    rcases mem_released_inr hd' with hd' | rfl
    · exact hreleased d' hd'
    · exact hripe d' (hwaiting ▸ Multiset.mem_cons_self d' rest) h
  | take a rest hline => exact ⟨hposted, hdelayed, hreleased⟩
  | back a taken htaken h => exact ⟨hposted, hdelayed, hreleased⟩
  | discard a rest hline h => exact ⟨hposted, hdelayed, hreleased⟩
  | clear q h => exact ⟨hposted, hdelayed, hreleased⟩

/-! ### Letters that are not there do not come out -/

/-- There is no letter of the kind. -/
structure Absent (content : τ → α) (p : α → Bool) (m : Mailbox α τ) : Prop where
  line : ∀ a ∈ m.line, ¬ p a
  waiting : ∀ d ∈ m.waiting, ¬ p (content d)

theorem Absent.act {p : α → Bool} (hposts : ∀ a, r.posts a → ¬ p a) (hdelays : ∀ d, r.delays d → ¬ p (content d))
    (hreturns : ∀ a, r.returns a → ¬ p a) (hm : m.Absent content p) (h : Act content lt r m m') :
    m'.Absent content p ∧ m'.taken.filter p = m.taken.filter p := by
  obtain ⟨hnone, hwaits⟩ := hm
  cases h with
  | post a h =>
    refine ⟨⟨fun b hb => ?_, hwaits⟩, rfl⟩
    rcases List.mem_append.mp hb with hb | hb
    · exact hnone b hb
    · exact List.mem_singleton.mp hb ▸ hposts a h
  | delay d h => exact ⟨⟨hnone, Multiset.forall_mem_cons.mpr ⟨hdelays d h, hwaits⟩⟩, rfl⟩
  | release d rest hwaiting hfirst h =>
    have hd : ¬ p (content d) := hwaits d (hwaiting ▸ Multiset.mem_cons_self d rest)
    refine ⟨⟨fun b hb => ?_, fun d' hd' => hwaits d' (hwaiting ▸ Multiset.mem_cons_of_mem hd')⟩, rfl⟩
    rcases List.mem_append.mp hb with hb | hb
    · exact hnone b hb
    · exact List.mem_singleton.mp hb ▸ hd
  | take a rest hline =>
    have ha : ¬ p a := hnone a (hline ▸ List.mem_cons_self)
    refine ⟨⟨fun b hb => hnone b (hline ▸ List.mem_cons_of_mem a hb), hwaits⟩, ?_⟩
    rw [List.filter_append, List.filter_cons_of_neg ha]
    exact List.append_nil _
  | back a taken htaken h =>
    have ha : ¬ p a := hreturns a h
    refine ⟨⟨List.forall_mem_cons.mpr ⟨ha, hnone⟩, hwaits⟩, ?_⟩
    rw [htaken, List.filter_append, List.filter_cons_of_neg ha]
    exact (List.append_nil _).symm
  | discard a rest hline h =>
    exact ⟨⟨fun b hb => hnone b (hline ▸ List.mem_cons_of_mem a hb), hwaits⟩, rfl⟩
  | clear q h =>
    exact ⟨⟨fun b hb => hnone b (List.mem_of_mem_filter hb), fun d hd => hwaits d (Multiset.mem_of_mem_filter hd)⟩, rfl⟩

/-! ### Letters that wait come out in turn -/

/-- What has been released need not let anything go first that has not. -/
structure InTurn (lt : τ → τ → Bool) (m : Mailbox α τ) : Prop where
  released : m.released.Pairwise fun d d' => lt d d' = false
  waiting : ∀ d ∈ m.released, ∀ d' ∈ m.waiting, lt d d' = false

theorem inTurn_empty : (empty : Mailbox α τ).InTurn lt := ⟨.nil, fun _ hd => absurd hd List.not_mem_nil⟩

theorem InTurn.act (hlate : ∀ d, r.delays d → ∀ d' ∈ m.released, lt d' d = false) (hm : m.InTurn lt)
    (h : Act content lt r m m') : m'.InTurn lt := by
  obtain ⟨hreleased, hwaits⟩ := hm
  cases h with
  | post a h =>
    refine ⟨?_, fun d hd => hwaits d (released_inl m a ▸ hd)⟩
    change ((m.entered ++ [Sum.inl a]).filterMap Sum.getRight?).Pairwise _
    rwa [released_inl]
  | delay d h =>
    refine ⟨hreleased, fun d₁ hd₁ d₂ hd₂ => ?_⟩
    rcases Multiset.mem_cons.mp hd₂ with rfl | hd₂
    · exact hlate _ h d₁ hd₁
    · exact hwaits d₁ hd₁ d₂ hd₂
  | release d rest hwaiting hfirst h =>
    have hd : d ∈ m.waiting := hwaiting ▸ Multiset.mem_cons_self d rest
    constructor
    · change ((m.entered ++ [Sum.inr d]).filterMap Sum.getRight?).Pairwise _
      rw [released_inr, List.pairwise_append]
      refine ⟨hreleased, List.pairwise_singleton _ _, fun d₁ hd₁ d₂ hd₂ => ?_⟩
      obtain rfl := List.mem_singleton.mp hd₂
      exact hwaits d₁ hd₁ d₂ hd
    · intro d₁ hd₁ d₂ hd₂
      rcases mem_released_inr hd₁ with hd₁ | rfl
      · exact hwaits d₁ hd₁ d₂ (hwaiting ▸ Multiset.mem_cons_of_mem hd₂)
      · exact hfirst d₂ hd₂
  | take a rest hline => exact ⟨hreleased, hwaits⟩
  | back a taken htaken h => exact ⟨hreleased, hwaits⟩
  | discard a rest hline h => exact ⟨hreleased, hwaits⟩
  | clear q h => exact ⟨hreleased, fun d hd d' hd' => hwaits d hd d' (Multiset.mem_of_mem_filter hd')⟩

/-- When a kind of letter is only delayed, what has come in of it has been released. -/
theorem entered_eq_released {p : α → Bool} {entered : List (α ⊕ τ)}
    (hposted : ∀ a ∈ entered.filterMap Sum.getLeft?, ¬ p a) : (entered.map (Sum.elim id content)).filter p =
      ((entered.filterMap Sum.getRight?).filter fun d => p (content d)).map content := by
  induction entered with
  | nil => rfl
  | cons x entered ih =>
    cases x with
    | inl a =>
      have ha : ¬ p a := hposted a List.mem_cons_self
      rw [List.map_cons, Sum.elim_inl, id, List.filter_cons_of_neg ha]
      exact ih fun b hb => hposted b (List.mem_cons_of_mem _ hb)
    | inr d =>
      have hrest := ih hposted
      rw [List.map_cons, Sum.elim_inr, List.filter_cons, hrest, List.filterMap_cons, Sum.getRight?_inr, List.filter_cons]
      split <;> rfl

/-- When a kind of letter is only posted, what has come in of it has been posted. -/
theorem entered_eq_posted {p : α → Bool} {entered : List (α ⊕ τ)}
    (hreleased : ∀ d ∈ entered.filterMap Sum.getRight?, ¬ p (content d)) :
    (entered.map (Sum.elim id content)).filter p = (entered.filterMap Sum.getLeft?).filter p := by
  induction entered with
  | nil => rfl
  | cons x entered ih =>
    cases x with
    | inl a =>
      have hrest := ih hreleased
      rw [List.map_cons, Sum.elim_inl, id, List.filter_cons, hrest, List.filterMap_cons, Sum.getLeft?_inl,
        List.filter_cons]
    | inr d =>
      have hd : ¬ p (content d) := hreleased d List.mem_cons_self
      rw [List.map_cons, Sum.elim_inr, List.filter_cons_of_neg hd]
      exact ih fun b hb => hreleased b (List.mem_cons_of_mem _ hb)

/-- When a kind of letter is only delayed, and never dropped, it comes out in the order of the comparison. -/
theorem exists_order {p : α → Bool} (htotal : ∀ a b, lt a b = false ∨ lt b a = false)
    (htrans : ∀ a b c, lt a b = false → lt b c = false → lt a c = false) (hinOrder : m.InOrder content p)
    (hpatient : m.Patient content p) (hturn : m.InTurn lt) (hposted : ∀ a ∈ m.posted, ¬ p a) :
    ∃ order : List τ, order.Perm (m.delayed.filter fun d => p (content d)) ∧
      (order.Pairwise fun d d' => lt d d' = false) ∧ (m.taken ++ m.line).filter p <+: order.map content := by
  have : Std.Total fun a b => lt a b = false := ⟨htotal⟩
  have : IsTrans τ fun a b => lt a b = false := ⟨htrans⟩
  obtain ⟨waiting, hwaiting⟩ := Quot.exists_rep (m.waiting.filter fun d => p (content d))
  let rest := waiting.insertionSort fun a b => lt a b = false
  have hrest : (↑rest : Multiset τ) = m.waiting.filter fun d => p (content d) :=
    (Multiset.coe_eq_coe.mpr (List.perm_insertionSort _ _)).trans hwaiting
  refine ⟨(m.released.filter fun d => p (content d)) ++ rest, ?_, ?_, ?_⟩
  · have hfilter (l : List τ) : ((↑l : Multiset τ).filter fun d => p (content d)) = ↑(l.filter fun d => p (content d)) := by
      simp
    unfold Patient at hpatient
    rw [hfilter, hfilter] at hpatient
    rw [← Multiset.coe_eq_coe, ← Multiset.coe_add, hrest]
    exact hpatient.symm
  · refine List.pairwise_append.mpr ⟨hturn.released.sublist List.filter_sublist, List.pairwise_insertionSort _ _, ?_⟩
    intro d hd d' hd'
    have hd' : d' ∈ m.waiting := Multiset.mem_of_mem_filter (hrest ▸ (Multiset.mem_coe.mpr hd'))
    exact hturn.waiting d (List.mem_of_mem_filter hd) d' hd'
  · rw [hinOrder, entered_eq_released hposted, List.map_append]
    exact List.prefix_append _ _

end Mailbox
