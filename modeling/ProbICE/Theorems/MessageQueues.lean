import ProbICE.Lib.Mailbox
import ProbICE.MessageQueue

/-! # A message queue is a mailbox

The message that has been peeked at stands in front of the line, the heap holds what waits, and a call of `Get` that has
to wait changes nothing. `Get` takes a message as soon as it has it in its hands, and `Peek` puts it back. -/

namespace ProbICE.TalkBase

variable {heaps : PriorityQueue.Heaps DelayedMessage.lt}

/-! ### The comparison of delayed messages -/

theorem DelayedMessage.lt_eq_false_iff {d d' : DelayedMessage} : d.lt d' = false ↔
    d.msTrigger_.toNat ≤ d'.msTrigger_.toNat ∧ (d'.msTrigger_ = d.msTrigger_ → d.num_.toNat ≤ d'.num_.toNat) := by
  unfold DelayedMessage.lt
  rw [decide_eq_false_iff_not, not_or, not_and]
  simp only [UInt32.lt_iff_toNat_lt, Nat.not_lt]

theorem DelayedMessage.lt_total (d d' : DelayedMessage) : d.lt d' = false ∨ d'.lt d = false := by
  rw [lt_eq_false_iff, lt_eq_false_iff, ← UInt32.toNat_inj, ← UInt32.toNat_inj]
  omega

theorem DelayedMessage.lt_trans (d₁ d₂ d₃ : DelayedMessage) (h : d₁.lt d₂ = false) (h' : d₂.lt d₃ = false) :
    d₁.lt d₃ = false := by
  rw [lt_eq_false_iff, ← UInt32.toNat_inj] at h h' ⊢
  omega

/-! ### What an event may do to the mailbox -/

/-- The posting that begins. -/
def Event.calls (e : Event) : Option Posting :=
  match e.action with
  | .post phandler id pdata time_sensitive => some (.post phandler id pdata time_sensitive)
  | .postDelayed cmsDelay phandler id pdata =>
    some (.doDelayPost cmsDelay (TimeAfter (Time e.time) cmsDelay) phandler id pdata)
  | .postAt tstamp phandler id pdata => some (.doDelayPost (TimeUntil (Time e.time) tstamp) tstamp phandler id pdata)
  | _ => none

/-- The posting that is done. -/
def Event.pushed (e : Event) : Option Posting :=
  match e.action with
  | .push p => some p
  | _ => none

def Event.Posts (e : Event) (a : Message) : Prop :=
  ∃ phandler id pdata time_sensitive, e.action = .push (.post phandler id pdata time_sensitive) ∧
    a = MessageQueue.message (Time e.time) phandler id pdata time_sensitive

def Event.Pushes (e : Event) (d : DelayedMessage) : Prop :=
  ∃ phandler id pdata, e.action = .push (.doDelayPost d.cmsDelay_ d.msTrigger_ phandler id pdata) ∧
    d.msg_ = ⟨phandler, id, pdata, 0⟩

/-- With a delay, or for a time stamp. -/
inductive Event.Delays (e : Event) (d : DelayedMessage) : Prop
  | delayed (phandler : Option Nat) (id : UInt32) (pdata : Option Nat)
      (haction : e.action = .postDelayed d.cmsDelay_ phandler id pdata)
      (htrigger : d.msTrigger_ = TimeAfter (Time e.time) d.cmsDelay_) (hmsg : d.msg_ = ⟨phandler, id, pdata, 0⟩)
  | timed (phandler : Option Nat) (id : UInt32) (pdata : Option Nat)
      (haction : e.action = .postAt d.msTrigger_ phandler id pdata) (hmsg : d.msg_ = ⟨phandler, id, pdata, 0⟩)

/-- The clock is read. -/
def Event.Reads (e : Event) : Prop :=
  (∃ cmsWait, e.action = .get cmsWait) ∨ (∃ cmsWait, e.action = .peek cmsWait) ∨ ∃ ok, e.action = .woke ok

def Event.Clears (e : Event) (a : Message) : Prop :=
  ∃ phandler id removed, e.action = .clear phandler id removed ∧ a.Match phandler id

/-- `Get` is about to return the message that is kept. -/
def Control.taking : Control → Bool
  | kept false _ => true
  | _ => false

/-- Neither at rest nor with a message that is kept. -/
def Control.searching : Control → Bool
  | idle => false
  | kept _ _ => false
  | _ => true

namespace MessageLoop

variable {s s' : MessageLoop heaps} {e : Event} {m m' : Mailbox Message DelayedMessage}

def rules (s : MessageLoop heaps) (e : Event) : Mailbox.Rules Message DelayedMessage where
  posts := e.Posts
  delays d := e.Pushes d ∧ (∃ p ∈ s.passed, e.action = .push p) ∧ d.num_ = s.queue.dmsgq_next_num_
  ripe d := ∃ g, s.control = .checking g ∧ TimeIsLater g.msCurrent d.msTrigger_ = false
  drops a := a.message_id = MQID_DISPOSE ∨ e.Clears a
  returns a := s.control = .popped true a

structure Refines (s : MessageLoop heaps) (m : Mailbox Message DelayedMessage) : Prop where
  line : m.line = s.front ++ s.queue.msgq_
  waiting : m.waiting = ↑s.queue.dmsgq_.container
  taken : m.taken = s.got ++ s.control.hand
  dropped : m.dropped + ↑s.torn = ↑s.deleted + ↑s.removed
  posted : m.posted = s.posted
  delayed : m.delayed = s.delayed
  searched : s.control.searching → s.queue.msgPeek_ = none
  kept : ∀ peek a, s.control = .kept peek a → ∀ b, s.queue.msgPeek_ = some b → b = a

theorem refines_new : (new : MessageLoop heaps).Refines .empty := by
  have hempty : (PriorityQueue.reheap heaps []).container = [] :=
    List.Perm.eq_nil (PriorityQueue.perm_reheap [])
  refine ⟨rfl, ?_, rfl, rfl, rfl, rfl, nofun, nofun⟩
  change (0 : Multiset DelayedMessage) = ↑(PriorityQueue.reheap heaps []).container
  rw [hempty]
  rfl

/-! ### The critical section -/

abbrev Acts (r : Mailbox.Rules Message DelayedMessage) (m m' : Mailbox Message DelayedMessage) : Prop :=
  Mailbox.Acts DelayedMessage.msg_ DelayedMessage.lt r m m'

variable {r : Mailbox.Rules Message DelayedMessage}

/-- The messages that the heap gives out are released one after the other. -/
theorem acts_release {p : DelayedMessage → Bool} (hripe : ∀ d, p d → r.ripe d) (q : PriorityQueue heaps)
    (m : Mailbox Message DelayedMessage) (hm : m.waiting = ↑q.container) :
    Acts r m
      { m with
        line := m.line ++ (q.popWhile p).1.map DelayedMessage.msg_
        waiting := ↑(q.popWhile p).2.container
        entered := m.entered ++ (q.popWhile p).1.map .inr } := by
  refine PriorityQueue.popWhile_induction (p := p) (motive := fun q r' => ∀ m : Mailbox Message DelayedMessage,
    m.waiting = ↑q.container → Acts r m
      { m with
        line := m.line ++ r'.1.map DelayedMessage.msg_
        waiting := ↑r'.2.container
        entered := m.entered ++ r'.1.map .inr }) ?_ ?_ q m hm
  · intro q _ m hm
    rw [List.map_nil, List.append_nil, List.map_nil, List.append_nil, ← hm]
  · intro q d r' htop hp ih m hm
    obtain ⟨hperm, hfirst⟩ := PriorityQueue.perm_pop htop
    have hwaiting : m.waiting = d ::ₘ ↑q.pop.container := hm.trans (Multiset.coe_eq_coe.mpr hperm.symm)
    have hrest := ih { m with line := m.line ++ [d.msg_], waiting := ↑q.pop.container, entered := m.entered ++ [.inr d] } rfl
    rw [List.append_assoc, List.append_assoc] at hrest
    exact hrest.head (.release d _ hwaiting hfirst (hripe d hp))

/-- What stands in front to be disposed of is discarded. -/
theorem acts_discard {p : Message → Bool} (hdrops : ∀ a, p a → r.drops a) (m : Mailbox Message DelayedMessage) :
    Acts r m { m with line := m.line.dropWhile p, dropped := m.dropped + ↑(m.line.takeWhile p) } := by
  induction hline : m.line generalizing m with
  | nil => rw [List.dropWhile_nil, List.takeWhile_nil, Multiset.coe_nil, add_zero, ← hline]
  | cons a line ih =>
    rw [List.dropWhile_cons, List.takeWhile_cons]
    split
    · rename_i hp
      have hrest := ih { m with line := line, dropped := a ::ₘ m.dropped } rfl
      have hdropped : a ::ₘ m.dropped + ↑(line.takeWhile p) = m.dropped + ↑(a :: line.takeWhile p) := by
        rw [← Multiset.cons_coe, Multiset.add_cons, Multiset.cons_add]
      dsimp only at hrest
      rw [hdropped] at hrest
      exact hrest.head (.discard a line hline (hdrops a hp))
    · rw [Multiset.coe_nil, add_zero, ← hline]

/-! ### Each step -/

theorem refines_post (h : s.Refines m) {a : Message} (ha : r.posts a) : ∃ m', Acts r m m' ∧ (s.Post a).Refines m' := by
  refine ⟨_, .single (.post a ha), ⟨?_, h.waiting, h.taken, h.dropped, ?_, h.delayed, h.searched, h.kept⟩⟩
  · rw [h.line, List.append_assoc]
    rfl
  · change (m.entered ++ [Sum.inl a]).filterMap Sum.getLeft? = s.posted ++ [a]
    rw [List.filterMap_append, ← h.posted]
    rfl

theorem refines_doDelayPost (h : s.Refines m) {d : DelayedMessage} (hd : r.delays d) :
    ∃ m', Acts r m m' ∧ (s.DoDelayPost d).Refines m' := by
  refine ⟨_, .single (.delay d hd), ⟨h.line, ?_, h.taken, h.dropped, h.posted, ?_, h.searched, h.kept⟩⟩
  · rw [h.waiting]
    exact Multiset.coe_eq_coe.mpr (PriorityQueue.perm_push _ d).symm
  · rw [h.delayed]
    rfl

theorem toList_filter {α : Type} (p : α → Bool) (o : Option α) : (o.filter p).toList = o.toList.filter p := by
  cases o with
  | none => rfl
  | some a =>
    rw [Option.filter_some, Option.toList_some, List.filter_cons, List.filter_nil]
    split <;> rfl

/-- The heap is in pieces while `Clear` is at work. -/
theorem coe_container_clear (q : MessageQueue heaps) (phandler : Option Nat) (id : UInt32) :
    (↑(q.Clear phandler id).dmsgq_.container : Multiset DelayedMessage) =
      (↑q.dmsgq_.container : Multiset DelayedMessage).filter fun d => ¬ d.msg_.Match phandler id := by
  have hperm : (q.Clear phandler id).dmsgq_.container.Perm
      (q.dmsgq_.container.filter fun d => !d.msg_.Match phandler id) := PriorityQueue.perm_reheap _
  rw [Multiset.coe_eq_coe.mpr hperm]
  simp

theorem front_clear (s : MessageLoop heaps) (phandler : Option Nat) (id : UInt32) (removed : Bool) :
    (s.Clear phandler id removed).front = s.front.filter fun a => !a.Match phandler id := by
  unfold front Clear MessageQueue.Clear
  dsimp only
  split
  · rfl
  · exact toList_filter _ _

/-- What `Clear` takes out has been kept for the next call, or it is torn from a call. -/
theorem front_append_tearing (s : MessageLoop heaps) (phandler : Option Nat) (id : UInt32) :
    s.front.filter (·.Match phandler id) ++ s.tearing phandler id =
      s.queue.msgPeek_.toList.filter (·.Match phandler id) := by
  unfold front tearing
  split
  · rfl
  · exact List.append_nil _

theorem coe_cleared (s : MessageLoop heaps) (phandler : Option Nat) (id : UInt32) :
    (↑(s.queue.cleared phandler id) : Multiset Message) =
      ↑((s.front ++ s.queue.msgq_).filter (·.Match phandler id)) +
        ((↑s.queue.dmsgq_.container : Multiset DelayedMessage).filter fun d => d.msg_.Match phandler id).map
          DelayedMessage.msg_ + ↑(s.tearing phandler id) := by
  have hheap : ((↑s.queue.dmsgq_.container : Multiset DelayedMessage).filter fun d => d.msg_.Match phandler id).map
      DelayedMessage.msg_ = ↑((s.queue.dmsgq_.container.map DelayedMessage.msg_).filter (·.Match phandler id)) := by
    rw [List.filter_map, ← Multiset.map_coe]
    simp [Function.comp_def]
  unfold MessageQueue.cleared
  rw [hheap, List.filter_append, List.filter_append, ← front_append_tearing, List.filter_append]
  simp only [← Multiset.coe_add]
  abel

/-- Whoever asks for them, the messages that `Clear` takes out are dropped. -/
theorem refines_clear (h : s.Refines m) {phandler : Option Nat} {id : UInt32} (removed : Bool)
    (hdrops : ∀ a : Message, a.Match phandler id → r.drops a) :
    ∃ m', Acts r m m' ∧ (s.Clear phandler id removed).Refines m' := by
  have hcleared := coe_cleared s phandler id
  rw [← h.line, ← h.waiting] at hcleared
  have hpeeked {b : Message} (hb : (s.Clear phandler id removed).queue.msgPeek_ = some b) : s.queue.msgPeek_ = some b :=
    (Option.filter_eq_some_iff.mp hb).1
  refine ⟨_, .single (.clear (·.Match phandler id) hdrops), ?_, ?_, h.taken, ?_, h.posted, h.delayed, fun hcontrol => ?_,
    fun peek a hcontrol b hb => h.kept peek a hcontrol b (hpeeked hb)⟩
  · rw [front_clear, h.line, List.filter_append]
    rfl
  · rw [h.waiting]
    exact (coe_container_clear s.queue phandler id).symm
  · have hout : m.dropped + ↑(m.line.filter (·.Match phandler id)) +
        (m.waiting.filter fun d => d.msg_.Match phandler id).map DelayedMessage.msg_ +
        (↑s.torn + ↑(s.tearing phandler id)) = ↑s.deleted + ↑s.removed + ↑(s.queue.cleared phandler id) := by
      rw [hcleared, ← h.dropped]
      abel
    unfold Clear
    cases removed with
    | true =>
      simp only [↓reduceIte, ← Multiset.coe_add]
      rw [hout, add_assoc]
    | false =>
      simp only [Bool.false_eq_true, ↓reduceIte, ← Multiset.coe_add]
      rw [hout, add_right_comm]
  · change s.queue.msgPeek_.filter _ = none
    rw [h.searched hcontrol]
    rfl

/-- Only what `Get` returns is taken. -/
theorem got_leave (s : MessageLoop heaps) (peek : Bool) (result : Option Message) :
    (s.leave peek result).got = s.got ++ if peek then [] else result.toList := by
  unfold leave got
  rw [List.filter_append, List.filterMap_append]
  cases peek with
  | true => rfl
  | false =>
    cases result with
    | none => rfl
    | some a => rfl

/-- The end of a call, with what it has in its hands. -/
theorem refines_leave (h : s.Refines m) {peek : Bool} {result : Option Message} (hfront : s.front = s.queue.msgPeek_.toList)
    (hhand : s.control.hand = if peek then [] else result.toList) : (s.leave peek result).Refines m := by
  refine ⟨?_, h.waiting, ?_, h.dropped, h.posted, h.delayed, nofun, nofun⟩
  · rw [h.line, hfront]
    rfl
  · rw [got_leave, ← hhand, h.taken]
    exact (List.append_nil _).symm

theorem front_eq (hcontrol : s.control.taking = false) : s.front = s.queue.msgPeek_.toList := by
  unfold front
  split
  · rename_i a h
    rw [h] at hcontrol
    cases hcontrol
  · rfl

/-- The owner goes on, with the same in its hands. -/
theorem refines_go (h : s.Refines m) {control : Control} (hhand : control.hand = s.control.hand)
    (hcontrol : s.control.taking = false) (hcontrol' : control.taking = false)
    (hsearched : control.searching → s.queue.msgPeek_ = none)
    (hkept : ∀ peek a, control = .kept peek a → s.queue.msgPeek_ = some a) : Refines { s with control } m := by
  have hfront : front { s with control } = s.front :=
    (front_eq (s := { s with control }) hcontrol').trans (front_eq hcontrol).symm
  refine ⟨?_, h.waiting, ?_, h.dropped, h.posted, h.delayed, hsearched, fun peek a hcontrol b hb => ?_⟩
  · rw [hfront]
    exact h.line
  · rw [h.taken, ← hhand]
    rfl
  · exact Option.some.inj (hb.symm.trans (hkept peek a hcontrol))

/-- `Get` takes the message that has been kept for it. -/
theorem refines_kept (h : s.Refines m) (hidle : s.control = .idle) {peek : Bool} {a : Message}
    (hpeek : s.queue.msgPeek_ = some a) : ∃ m', Acts r m m' ∧ Refines { s with control := .kept peek a } m' := by
  have hkept (peek' : Bool) (b : Message) (hcontrol : Control.kept peek a = .kept peek' b) : s.queue.msgPeek_ = some b := by
    obtain ⟨-, rfl⟩ := Control.kept.inj hcontrol
    exact hpeek
  cases peek with
  | true => exact ⟨m, .refl, refines_go h (hidle ▸ rfl) (hidle ▸ rfl) rfl nofun hkept⟩
  | false =>
    have hline := h.line
    have htaken := h.taken
    rw [front_eq (hidle ▸ rfl), hpeek] at hline
    rw [hidle] at htaken
    refine ⟨_, .single (.take a _ hline), rfl, h.waiting, ?_, h.dropped, h.posted, h.delayed, nofun,
      fun peek' b hcontrol c hc => Option.some.inj (hc.symm.trans (hkept peek' b hcontrol))⟩
    rw [htaken]
    exact congrArg (· ++ [a]) (List.append_nil s.got)

/-- The queue of a critical section before anything is taken from the line. -/
def opened (s : MessageLoop heaps) (msCurrent : UInt32) : MessageLoop heaps :=
  let popped := s.queue.dmsgq_.popWhile fun d => !TimeIsLater msCurrent d.msTrigger_
  let msgq := s.queue.msgq_ ++ popped.1.map DelayedMessage.msg_
  { s with
    queue := { s.queue with msgq_ := msgq.dropWhile (·.message_id = MQID_DISPOSE), dmsgq_ := popped.2 }
    deleted := s.deleted ++ msgq.takeWhile (·.message_id = MQID_DISPOSE) }

theorem check_eq (s : MessageLoop heaps) (g : Getting) : s.check g =
    match (s.opened g.msCurrent).queue.msgq_ with
    | [] => { s.opened g.msCurrent with control := .checked g (s.queue.check g.msCurrent).cmsDelayNext }
    | a :: rest =>
      { s.opened g.msCurrent with
        queue := { (s.opened g.msCurrent).queue with msgq_ := rest }
        control := .popped g.peek a } := by
  unfold check opened MessageQueue.check
  dsimp only
  cases hrest : (s.queue.msgq_ ++ (s.queue.dmsgq_.popWhile fun d => !TimeIsLater g.msCurrent d.msTrigger_).1.map
    DelayedMessage.msg_).dropWhile (·.message_id = MQID_DISPOSE) with
  | nil => rfl
  | cons a rest => rfl

theorem refines_opened (h : s.Refines m) {g : Getting} (hcontrol : s.control = .checking g) {msCurrent : UInt32}
    (hripe : ∀ d : DelayedMessage, TimeIsLater msCurrent d.msTrigger_ = false → r.ripe d)
    (hdrops : ∀ a : Message, a.message_id = MQID_DISPOSE → r.drops a) :
    ∃ m', Acts r m m' ∧ (s.opened msCurrent).Refines m' := by
  have hrelease := acts_release (r := r) (p := fun d => !TimeIsLater msCurrent d.msTrigger_)
    (fun d hd => hripe d (Bool.not_eq_true' _ ▸ hd)) s.queue.dmsgq_ m h.waiting
  have hfront : s.front = [] := by
    rw [front_eq (hcontrol ▸ rfl), h.searched (hcontrol ▸ rfl)]
    rfl
  have hline : m.line = s.queue.msgq_ := by
    rw [h.line, hfront]
    rfl
  have hdropped := h.dropped
  have hfront' : (s.opened msCurrent).front = [] := hfront
  unfold opened at hfront' ⊢
  generalize s.queue.dmsgq_.popWhile (fun d => !TimeIsLater msCurrent d.msTrigger_) = popped at hrelease hfront' ⊢
  have hdiscard := acts_discard (r := r) (p := fun a => a.message_id = MQID_DISPOSE)
    (fun a ha => hdrops a (of_decide_eq_true ha))
    { m with
      line := m.line ++ popped.1.map DelayedMessage.msg_
      waiting := ↑popped.2.container
      entered := m.entered ++ popped.1.map .inr }
  have hnone : (popped.1.map (Sum.inr (α := Message))).filterMap Sum.getLeft? = [] := by
    rw [List.filterMap_map]
    exact List.filterMap_eq_nil_iff.mpr fun _ _ => rfl
  refine ⟨_, hrelease.trans hdiscard, ⟨?_, rfl, h.taken, ?_, ?_, h.delayed, h.searched, h.kept⟩⟩
  · rw [hfront', hline]
    rfl
  · dsimp only
    rw [hline, ← Multiset.coe_add, add_right_comm, hdropped]
    abel
  · change (m.entered ++ _).filterMap Sum.getLeft? = s.posted
    rw [List.filterMap_append, hnone, List.append_nil, ← h.posted]
    rfl

theorem refines_check (h : s.Refines m) {g : Getting} (hcontrol : s.control = .checking g)
    (hripe : ∀ d : DelayedMessage, TimeIsLater g.msCurrent d.msTrigger_ = false → r.ripe d)
    (hdrops : ∀ a : Message, a.message_id = MQID_DISPOSE → r.drops a) :
    ∃ m', Acts r m m' ∧ (s.check g).Refines m' := by
  have hpeek : s.queue.msgPeek_ = none := h.searched (hcontrol ▸ rfl)
  obtain ⟨m₁, hacts, h₁⟩ := refines_opened h hcontrol hripe hdrops
  have hcontrol₁ : (s.opened g.msCurrent).control = .checking g := hcontrol
  have hpeek₁ : (s.opened g.msCurrent).queue.msgPeek_ = none := hpeek
  have hline := h₁.line
  have htaken := h₁.taken
  unfold front at hline
  rw [hcontrol₁] at hline htaken
  rw [check_eq]
  cases hmsgq : (s.opened g.msCurrent).queue.msgq_ with
  | nil =>
    refine ⟨m₁, hacts, ?_, h₁.waiting, htaken, h₁.dropped, h₁.posted, h₁.delayed, fun _ => hpeek, nofun⟩
    exact hline
  | cons a rest =>
    rw [hpeek₁, hmsgq] at hline
    refine ⟨_, hacts.tail (.take a rest hline), ?_, h₁.waiting, ?_, h₁.dropped, h₁.posted, h₁.delayed, fun _ => hpeek,
      nofun⟩
    · unfold front
      dsimp only
      rw [hpeek₁]
      rfl
    · rw [htaken]
      exact congrArg (· ++ [a]) (List.append_nil s.got)

/-- `Peek` puts the message back in front of the line. -/
theorem refines_keep (h : s.Refines m) {a : Message} (hcontrol : s.control = .popped true a) (hreturns : r.returns a) :
    ∃ m', Acts r m m' ∧ (s.keep a).Refines m' := by
  have hline := h.line
  have htaken := h.taken
  unfold front at hline
  rw [hcontrol, h.searched (hcontrol ▸ rfl)] at hline
  rw [hcontrol] at htaken
  refine ⟨_, .single (.back a s.got htaken hreturns), ?_, h.waiting, (List.append_nil _).symm, h.dropped, h.posted,
    h.delayed, nofun, fun peek b hb c hc => ?_⟩
  · rw [hline]
    rfl
  · obtain ⟨-, rfl⟩ := Control.kept.inj hb
    exact (Option.some.inj hc).symm

/-- `Get` has taken the message before. -/
theorem refines_unkeep (h : s.Refines m) {a : Message} (hcontrol : s.control = .kept false a) : (s.unkeep a).Refines m := by
  have hline := h.line
  have htaken := h.taken
  unfold front at hline
  rw [hcontrol] at hline htaken
  exact ⟨hline, h.waiting, htaken, h.dropped, h.posted, h.delayed, fun _ => rfl, nofun⟩

/-- What an event does to a state. -/
inductive Does (s : MessageLoop heaps) (e : Event) : MessageLoop heaps → Prop
  | call (p : Posting) (h : e.calls = some p) : Does s e (s.call p)
  | test (p : Posting) (hp : p ∈ s.called) (h : e.action = .test p) : Does s e (s.test p)
  | post (p : Posting) (a : Message) (hp : p ∈ s.passed) (haction : e.action = .push p) (h : e.Posts a) :
    Does s e (Post { s with passed := s.passed.erase p } a)
  | delay (p : Posting) (d : DelayedMessage) (hp : p ∈ s.passed) (haction : e.action = .push p) (h : e.Pushes d)
      (hnum : d.num_ = s.queue.dmsgq_next_num_) : Does s e (DoDelayPost { s with passed := s.passed.erase p } d)
  | clear (phandler : Option Nat) (id : UInt32) (removed : Bool) (h : e.action = .clear phandler id removed) :
    Does s e (s.Clear phandler id removed)
  | quit (h : e.action = .quit) : Does s e { s with queue := s.queue.Quit }
  | restart (h : e.action = .restart) : Does s e { s with queue := s.queue.Restart }
  | kept (peek : Bool) (a : Message) (hcontrol : s.control = .idle) (hpeek : s.queue.msgPeek_ = some a) (h : e.Reads) :
    Does s e { s with control := .kept peek a }
  | enter (peek : Bool) (cmsWait : Int32) (hcontrol : s.control = .idle) (hpeek : s.queue.msgPeek_ = none) (h : e.Reads) :
    Does s e { s with control := .checking ⟨peek, cmsWait, 0, Time e.time, Time e.time⟩ }
  | check (g : Getting) (hcontrol : s.control = .checking g) (h : e.action = .check) : Does s e (s.check g)
  | stop (g : Getting) (cmsDelayNext : Int32) (hcontrol : s.control = .checked g cmsDelayNext) (h : e.action = .stop) :
    Does s e (s.leave g.peek none)
  | wait (g : Getting) (cmsDelayNext : Int32) (hcontrol : s.control = .checked g cmsDelayNext)
      (hgoes : ¬ s.queue.fStop_) (h : e.action = .stop) :
    Does s e { s with control := .waiting g (g.cmsNext cmsDelayNext) }
  | woke (g g' : Getting) (cmsNext : Int32) (hcontrol : s.control = .waiting g cmsNext)
      (hcurrent : g'.msCurrent = Time e.time) (h : e.Reads) : Does s e { s with control := .checking g' }
  | expire (g : Getting) (cmsNext : Int32) (hcontrol : s.control = .waiting g cmsNext) (h : e.Reads) :
    Does s e (s.leave g.peek none)
  | keep (a : Message) (hcontrol : s.control = .popped true a) (h : e.action = .keep) : Does s e (s.keep a)
  | unkeep (a : Message) (hcontrol : s.control = .kept false a) (h : e.action = .unkeep) : Does s e (s.unkeep a)
  | peeked (a : Message) (hcontrol : s.control = .kept true a) (h : e.action = .leave) : Does s e (s.leave true (some a))
  | gotten (a : Message) (hcontrol : s.control = .popped false a) (h : e.action = .leave) : Does s e (s.leave false (some a))

theorem does_of_push {p : Posting} (hp : p ∈ s.passed) (haction : e.action = .push p) :
    Does s e (s.push p (Time e.time)) := by
  cases p with
  | post phandler id pdata time_sensitive => exact .post _ _ hp haction ⟨_, _, _, _, haction, rfl⟩
  | doDelayPost cmsDelay tstamp phandler id pdata => exact .delay _ _ hp haction ⟨_, _, _, haction, rfl⟩ rfl

theorem does_of_enter {peek : Bool} {cmsWait : Int32} (hcontrol : s.control = .idle) (h : e.Reads) :
    Does s e (s.enter peek cmsWait (Time e.time)) := by
  unfold enter
  split
  · rename_i a hpeek
    exact .kept peek a hcontrol hpeek h
  · rename_i hpeek
    exact .enter peek cmsWait hcontrol hpeek h

theorem does_of_stop {g : Getting} {cmsDelayNext : Int32} (hcontrol : s.control = .checked g cmsDelayNext)
    (h : e.action = .stop) : Does s e (s.stop g cmsDelayNext) := by
  unfold stop
  split
  · exact .stop g cmsDelayNext hcontrol h
  · rename_i hgoes
    exact .wait g cmsDelayNext hcontrol hgoes h

theorem does_of_woke {g : Getting} {cmsNext : Int32} {ok : Bool} (hcontrol : s.control = .waiting g cmsNext)
    (h : e.Reads) : Does s e (s.woke g ok (Time e.time)) := by
  unfold woke
  split
  · dsimp only
    split
    · exact .expire g cmsNext hcontrol h
    · exact .woke g _ cmsNext hcontrol rfl h
  · exact .expire g cmsNext hcontrol h

theorem does_of_step (hstep : s.step e = some s') : Does s e s' := by
  obtain ⟨time, action⟩ := e
  unfold step at hstep
  dsimp only at hstep
  split at hstep
  · obtain rfl := Option.some.inj hstep
    exact .call _ rfl
  · obtain rfl := Option.some.inj hstep
    exact .call _ rfl
  · obtain rfl := Option.some.inj hstep
    exact .call _ rfl
  · obtain ⟨hp, hs'⟩ := Option.ite_none_right_eq_some.mp hstep
    obtain rfl := Option.some.inj hs'
    exact .test _ hp rfl
  · obtain ⟨hp, hs'⟩ := Option.ite_none_right_eq_some.mp hstep
    obtain rfl := Option.some.inj hs'
    exact does_of_push (e := ⟨time, _⟩) hp rfl
  · obtain rfl := Option.some.inj hstep
    exact .clear _ _ _ rfl
  · obtain rfl := Option.some.inj hstep
    exact .quit rfl
  · obtain rfl := Option.some.inj hstep
    exact .restart rfl
  · rename_i hcontrol
    obtain rfl := Option.some.inj hstep
    exact does_of_enter (e := ⟨time, _⟩) hcontrol (Or.inl ⟨_, rfl⟩)
  · rename_i hcontrol
    obtain rfl := Option.some.inj hstep
    exact does_of_enter (e := ⟨time, _⟩) hcontrol (Or.inr (Or.inl ⟨_, rfl⟩))
  · rename_i hcontrol
    obtain rfl := Option.some.inj hstep
    exact .check _ hcontrol rfl
  · rename_i hcontrol
    obtain rfl := Option.some.inj hstep
    exact does_of_stop hcontrol rfl
  · rename_i hcontrol
    obtain rfl := Option.some.inj hstep
    exact does_of_woke (e := ⟨time, _⟩) hcontrol (Or.inr (Or.inr ⟨_, rfl⟩))
  · rename_i hcontrol
    obtain rfl := Option.some.inj hstep
    exact .keep _ hcontrol rfl
  · rename_i hcontrol
    obtain rfl := Option.some.inj hstep
    exact .unkeep _ hcontrol rfl
  · rename_i hcontrol
    obtain rfl := Option.some.inj hstep
    exact .peeked _ hcontrol rfl
  · rename_i hcontrol
    obtain rfl := Option.some.inj hstep
    exact .gotten _ hcontrol rfl
  · cases hstep

theorem push_of_step {p : Posting} (hstep : s.step e = some s') (hpushed : e.pushed = some p) :
    p ∈ s.passed ∧ s' = s.push p (Time e.time) := by
  have haction : e.action = .push p := by
    unfold Event.pushed at hpushed
    split at hpushed
    · rename_i haction
      rw [haction, Option.some.inj hpushed]
    · cases hpushed
  unfold step at hstep
  rw [haction] at hstep
  obtain ⟨hp, hs'⟩ := Option.ite_none_right_eq_some.mp hstep
  exact ⟨hp, (Option.some.inj hs').symm⟩

/-- Only postings put something in, and none passes its test when the queue is stopped. -/
theorem frame_of_step (hstep : s.step e = some s') (hpushed : e.pushed = none) : s'.posted = s.posted ∧
    s'.delayed = s.delayed ∧ s'.queue.dmsgq_next_num_ = s.queue.dmsgq_next_num_ ∧
      (s.queue.fStop_ → s'.passed = s.passed) := by
  have hpush {p : Posting} (haction : e.action = .push p) : False := by
    unfold Event.pushed at hpushed
    rw [haction] at hpushed
    cases hpushed
  cases does_of_step hstep with
  | test p _ _ => exact ⟨rfl, rfl, rfl, fun hstop => if_pos hstop⟩
  | post p a _ haction _ => exact absurd haction hpush
  | delay p d _ haction _ _ => exact absurd haction hpush
  | _ => exact ⟨rfl, rfl, rfl, fun _ => rfl⟩

/-- Postings that are still under way have put nothing in. -/
theorem Refines.passing (h : s.Refines m) (passed : List Posting) : Refines { s with passed } m :=
  ⟨h.line, h.waiting, h.taken, h.dropped, h.posted, h.delayed, h.searched, h.kept⟩

/-- Each step is a sequence of acts that the event allows. -/
theorem refines_step (h : s.Refines m) (hstep : s.step e = some s') : ∃ m', Acts (s.rules e) m m' ∧ s'.Refines m' := by
  have hsame {t : MessageLoop heaps} (ht : t.Refines m) : ∃ m', Acts (s.rules e) m m' ∧ t.Refines m' := ⟨m, .refl, ht⟩
  have hleave {peek : Bool} (hcontrol : s.control.taking = false) (hhand : s.control.hand = []) :
      (s.leave peek none).Refines m := refines_leave h (front_eq hcontrol) (hhand.trans (ite_self _).symm)
  cases does_of_step hstep with
  | call p _ => exact hsame ⟨h.line, h.waiting, h.taken, h.dropped, h.posted, h.delayed, h.searched, h.kept⟩
  | test p _ _ => exact hsame ⟨h.line, h.waiting, h.taken, h.dropped, h.posted, h.delayed, h.searched, h.kept⟩
  | post p a hp haction ha =>
    exact refines_post (r := s.rules e) (h.passing _) ha
  | delay p d hp haction hd hnum =>
    exact refines_doDelayPost (r := s.rules e) (h.passing _) ⟨hd, ⟨p, hp, haction⟩, hnum⟩
  | clear phandler id removed haction =>
    exact refines_clear h removed fun a ha => Or.inr ⟨phandler, id, removed, haction, ha⟩
  | quit _ => exact hsame ⟨h.line, h.waiting, h.taken, h.dropped, h.posted, h.delayed, h.searched, h.kept⟩
  | restart _ => exact hsame ⟨h.line, h.waiting, h.taken, h.dropped, h.posted, h.delayed, h.searched, h.kept⟩
  | kept peek a hcontrol hpeek _ => exact refines_kept h hcontrol hpeek
  | enter peek cmsWait hcontrol hpeek _ =>
    exact hsame (refines_go h (hcontrol ▸ rfl) (hcontrol ▸ rfl) rfl (fun _ => hpeek) nofun)
  | check g hcontrol haction => exact refines_check h hcontrol (fun d hd => ⟨g, hcontrol, hd⟩) fun a ha => Or.inl ha
  | stop g cmsDelayNext hcontrol _ => exact hsame (hleave (hcontrol ▸ rfl) (hcontrol ▸ rfl))
  | wait g cmsDelayNext hcontrol _ _ =>
    exact hsame (refines_go h (hcontrol ▸ rfl) (hcontrol ▸ rfl) rfl (fun _ => h.searched (hcontrol ▸ rfl)) nofun)
  | woke g g' cmsNext hcontrol _ _ =>
    exact hsame (refines_go h (hcontrol ▸ rfl) (hcontrol ▸ rfl) rfl (fun _ => h.searched (hcontrol ▸ rfl)) nofun)
  | expire g cmsNext hcontrol _ => exact hsame (hleave (hcontrol ▸ rfl) (hcontrol ▸ rfl))
  | keep a hcontrol _ => exact refines_keep h hcontrol hcontrol
  | unkeep a hcontrol _ => exact hsame (refines_unkeep h hcontrol)
  | peeked a hcontrol _ => exact hsame (refines_leave h (front_eq (hcontrol ▸ rfl)) (hcontrol ▸ rfl))
  | gotten a hcontrol _ => exact hsame (refines_leave h (front_eq (hcontrol ▸ rfl)) (hcontrol ▸ rfl))

/-- What holds of the state and of the mailbox, given the past, if each step keeps it. -/
theorem exists_mailbox_of_run {J : List Event → MessageLoop heaps → Mailbox Message DelayedMessage → Prop}
    (hnew : J [] new .empty) {es : List Event}
    (hkeep : ∀ past e later s s' m m', es = past ++ e :: later → J past s m → s.Refines m → s.step e = some s' →
      Acts (s.rules e) m m' → s'.Refines m' → J (past ++ [e]) s' m') {s : MessageLoop heaps}
    (hrun : run new es = some s) : ∃ m, s.Refines m ∧ J es s m :=
  Machine.run_keeps_front (J := fun past (s : MessageLoop heaps) => ∃ m, s.Refines m ∧ J past s m)
    (fun past e later s s' hes ⟨m, hm, hJ⟩ hstep => by
      obtain ⟨m', hacts, hm'⟩ := refines_step hm hstep
      exact ⟨m', hm', hkeep past e later s s' m m' hes hJ hm hstep hacts hm'⟩) ⟨.empty, refines_new, hnew⟩ hrun

theorem exists_refines {es : List Event} {s : MessageLoop heaps} (hrun : run new es = some s) : ∃ m, s.Refines m := by
  obtain ⟨m, hm, -⟩ := exists_mailbox_of_run (J := fun _ _ _ => True) trivial (fun _ _ _ _ _ _ _ _ _ _ _ _ _ => trivial) hrun
  exact ⟨m, hm⟩

/-! ### What becomes of the messages -/

/-- A heap to try it with. -/
def sortedHeaps : PriorityQueue.Heaps DelayedMessage.lt :=
  .sorted DelayedMessage.lt DelayedMessage.lt_total DelayedMessage.lt_trans

def seven : Posting := .post (some 1) 7 none false

def eight : Posting := .doDelayPost 50 1050 (some 2) 8 none

/-- A message that is posted at once, and one that `Peek` has to wait for. -/
def twoMessages : List Event :=
  [⟨1000, .post (some 1) 7 none false⟩, ⟨1000, .postDelayed 50 (some 2) 8 none⟩, ⟨1000, .test eight⟩, ⟨1000, .test seven⟩,
    ⟨1000, .push seven⟩, ⟨1000, .get kForever⟩, ⟨1001, .check⟩, ⟨1001, .push eight⟩, ⟨1001, .leave⟩, ⟨1002, .peek 100⟩,
    ⟨1002, .check⟩, ⟨1002, .stop⟩, ⟨1050, .woke true⟩, ⟨1050, .check⟩, ⟨1050, .keep⟩, ⟨1051, .leave⟩]

theorem isSome_twoMessages : ((new : MessageLoop sortedHeaps).run twoMessages).isSome := by decide

def afterTwoMessages : MessageLoop sortedHeaps := ((new : MessageLoop sortedHeaps).run twoMessages).get isSome_twoMessages

theorem run_twoMessages : (new : MessageLoop sortedHeaps).run twoMessages = some afterTwoMessages :=
  (Option.some_get isSome_twoMessages).symm

example : afterTwoMessages.calls = [⟨false, some ⟨some 1, 7, none, 0⟩⟩, ⟨true, some ⟨some 2, 8, none, 0⟩⟩] := by decide

/-- `Clear` leaves the message alone that `Get` is about to return. -/
def Untorn (s : MessageLoop heaps) (e : Event) : Prop := ∀ a, s.control = .kept false a → ¬ e.Clears a

theorem torn_of_step (h : s.Refines m) (huntorn : s.Untorn e) (hstep : s.step e = some s') : s'.torn = s.torn := by
  cases does_of_step hstep with
  | clear phandler id removed haction =>
    have hnone : s.tearing phandler id = [] := by
      unfold tearing
      split
      · rename_i a hcontrol
        refine List.filter_eq_nil_iff.mpr fun b hb hmatch => ?_
        obtain rfl := h.kept false a hcontrol b (Option.mem_toList.mp hb)
        exact huntorn b hcontrol ⟨phandler, id, removed, haction, hmatch⟩
      · rfl
    unfold Clear
    dsimp only
    rw [hnone, List.append_nil]
  | _ => rfl

/-- Whatever is put in, at once or with a delay, is sooner or later returned by `Get` or thrown away, or it is still there
    or on its way out, and never twice, unless `Clear` tears it out of the hands of `Get`. -/
theorem accounted_of_run {es : List Event} {s : MessageLoop heaps} (hrun : run new es = some s) :
    (s.posted ++ s.delayed.map DelayedMessage.msg_ ++ s.torn).Perm
        (s.got ++ s.control.hand ++ s.front ++ s.queue.msgq_ ++ s.queue.dmsgq_.container.map DelayedMessage.msg_ ++
          s.deleted ++ s.removed) ∧
      (Machine.Along step Untorn (new : MessageLoop heaps) es → s.torn = []) := by
  constructor
  · obtain ⟨m, hm, haccounted⟩ := exists_mailbox_of_run (J := fun _ _ m => m.Accounted DelayedMessage.msg_)
      Mailbox.accounted_empty
      (fun _ _ _ _ _ _ _ _ hm _ _ hacts _ => Mailbox.Acts.keeps (fun _ _ => .act) hacts hm) hrun
    unfold Mailbox.Accounted at haccounted
    have hall : (↑m.posted + ↑(m.delayed.map DelayedMessage.msg_) + ↑s.torn : Multiset Message) =
        ↑m.taken + ↑m.line + m.waiting.map DelayedMessage.msg_ + (↑s.deleted + ↑s.removed) := by
      rw [haccounted, add_assoc, hm.dropped]
    rw [hm.line, hm.waiting, hm.taken, hm.posted, hm.delayed, Multiset.map_coe] at hall
    simp only [Multiset.coe_add] at hall
    have hperm := Multiset.coe_eq_coe.mp hall
    simp only [List.append_assoc] at hperm ⊢
    exact hperm
  · intro halong
    obtain ⟨-, -, hnone⟩ := Machine.along_keeps (I := fun s : MessageLoop heaps => ∃ m, s.Refines m ∧ s.torn = [])
      (fun s e t ⟨m, hm, hnone⟩ huntorn hstep => by
        obtain ⟨m', -, hm'⟩ := refines_step hm hstep
        exact ⟨m', hm', (torn_of_step hm huntorn hstep).trans hnone⟩) ⟨.empty, refines_new, rfl⟩ halong hrun
    exact hnone

theorem accounted_twoMessages :
    (afterTwoMessages.posted ++ afterTwoMessages.delayed.map DelayedMessage.msg_ ++ afterTwoMessages.torn).Perm
        (afterTwoMessages.got ++ afterTwoMessages.control.hand ++ afterTwoMessages.front ++ afterTwoMessages.queue.msgq_ ++
          afterTwoMessages.queue.dmsgq_.container.map DelayedMessage.msg_ ++ afterTwoMessages.deleted ++
          afterTwoMessages.removed) ∧
      (Machine.Along step Untorn (new : MessageLoop sortedHeaps) twoMessages → afterTwoMessages.torn = []) :=
  accounted_of_run run_twoMessages

example : (afterTwoMessages.run [⟨1052, .get 0⟩, ⟨1052, .clear (some 2) MQID_ANY false⟩, ⟨1052, .unkeep⟩, ⟨1052, .leave⟩]).map
    (fun s => (s.deleted, s.torn, s.got.length)) = some ([⟨some 2, 8, none, 0⟩], [⟨some 2, 8, none, 0⟩], 2) := by decide

/-- The kinds of message that a run does not throw away. -/
structure Stays (p : Message → Bool) (es : List Event) : Prop where
  dispose : ∀ a, p a → a.message_id ≠ MQID_DISPOSE
  clear : ∀ e ∈ es, ∀ a, p a → ¬ e.Clears a

theorem Stays.rules {p : Message → Bool} {es : List Event} (h : Stays p es) (he : e ∈ es) :
    Mailbox.Stays p (s.rules e) := by
  rintro a ha (hid | hclears)
  · exact h.dispose a ha hid
  · exact h.clear e he a ha hclears

theorem ordered_of_run {p : Message → Bool} {es : List Event} (hstays : Stays p es) {s : MessageLoop heaps}
    (hrun : run new es = some s) :
    ∃ m, s.Refines m ∧ m.InOrder DelayedMessage.msg_ p ∧ m.Patient DelayedMessage.msg_ p :=
  exists_mailbox_of_run (J := fun _ _ m => m.InOrder DelayedMessage.msg_ p ∧ m.Patient DelayedMessage.msg_ p)
    ⟨Mailbox.inOrder_empty p, Mailbox.patient_empty p⟩
    (fun _ _ _ _ _ _ _ hes hJ _ _ hacts _ =>
      have hrules := hstays.rules (hes ▸ List.mem_append_right _ List.mem_cons_self)
      ⟨Mailbox.Acts.keeps (fun _ _ => .act hrules) hacts hJ.1, Mailbox.Acts.keeps (fun _ _ => .act hrules) hacts hJ.2⟩) hrun

/-- What is on its way out, and what stands in the line behind it. -/
theorem Refines.line_eq (h : s.Refines m) : m.taken ++ m.line = s.got ++ s.control.hand ++ s.front ++ s.queue.msgq_ := by
  rw [h.taken, h.line, ← List.append_assoc]

/-- The messages of a kind that is only posted at once come out in the order in which they went in: none is missing and
    none comes twice. -/
theorem inOrder_of_run {p : Message → Bool} {es : List Event} (hstays : Stays p es) {s : MessageLoop heaps}
    (hrun : run new es = some s) (hdelayed : ∀ d ∈ s.delayed, ¬ p d.msg_) :
    (s.got ++ s.control.hand ++ s.front ++ s.queue.msgq_).filter p = s.posted.filter p := by
  obtain ⟨m, hm, hinOrder, hpatient⟩ := ordered_of_run hstays hrun
  have hreleased : ∀ d ∈ m.released, ¬ p d.msg_ := by
    intro d hd hp
    have hmem : d ∈ (↑m.delayed : Multiset DelayedMessage).filter fun d => p d.msg_ := by
      rw [hpatient]
      exact Multiset.mem_add.mpr (Or.inl (Multiset.mem_filter.mpr ⟨hd, hp⟩))
    exact hdelayed d (hm.delayed ▸ Multiset.mem_of_mem_filter hmem) hp
  have horder := hinOrder.trans (Mailbox.entered_eq_posted hreleased)
  rw [hm.line_eq] at horder
  rw [horder, ← hm.posted]
  rfl

theorem inOrder_twoMessages :
    (afterTwoMessages.got ++ afterTwoMessages.control.hand ++ afterTwoMessages.front ++ afterTwoMessages.queue.msgq_).filter
        (·.message_id = 7) = afterTwoMessages.posted.filter (·.message_id = 7) := by
  refine inOrder_of_run ⟨fun a ha hid => ?_, ?_⟩ run_twoMessages (by decide)
  · have h : (7 : UInt32) = MQID_DISPOSE := (of_decide_eq_true ha).symm.trans hid
    exact absurd h (by decide)
  · simp [twoMessages, Event.Clears]

end MessageLoop

end ProbICE.TalkBase
