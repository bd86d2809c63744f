import ProbICE.Theorems.MessageQueues

/-! # Message queues that have been cleared or stopped

A handler that is about to go clears its messages, and a thread that is about to end stops its queue. -/

namespace ProbICE.TalkBase

variable {heaps : PriorityQueue.Heaps DelayedMessage.lt}

/-- Behind the critical section of a call that has found nothing. -/
def Control.behind : Control → Bool
  | checked _ _ => true
  | waiting _ _ => true
  | _ => false

namespace MessageLoop

variable {s s' s₁ : MessageLoop heaps} {e : Event} {m m' : Mailbox Message DelayedMessage}

/-! ### After `Clear` -/

/-- A call returns what it has in its hands. -/
theorem calls_of_step (hstep : s.step e = some s') : s'.calls = s.calls ∨
    ∃ c, s'.calls = s.calls ++ [c] ∧ ∀ a, c.result = some a → s.control.pmsg = some a := by
  have hnone (peek : Bool) : ∃ c, (s.leave peek none).calls = s.calls ++ [c] ∧
      ∀ a, c.result = some a → s.control.pmsg = some a := ⟨_, rfl, nofun⟩
  have hsome (peek : Bool) (a : Message) (ha : s.control.pmsg = some a) : ∃ c, (s.leave peek (some a)).calls = s.calls ++ [c] ∧
      ∀ b, c.result = some b → s.control.pmsg = some b := by
    refine ⟨_, rfl, fun b hb => ?_⟩
    obtain rfl := Option.some.inj hb
    exact ha
  cases does_of_step hstep with
  | stop g _ _ _ => exact Or.inr (hnone g.peek)
  | expire g _ _ _ => exact Or.inr (hnone g.peek)
  | peeked a hcontrol _ => exact Or.inr (hsome true a (hcontrol ▸ rfl))
  | gotten a hcontrol _ => exact Or.inr (hsome false a (hcontrol ▸ rfl))
  | _ => exact Or.inl rfl

/-- What a call has in its hands it had there before, or it has been kept for it, or it has just been taken from the
    line. -/
theorem pmsg_of_step (hm : s.Refines m) (hstep : s.step e = some s') (hm' : s'.Refines m') {a : Message}
    (ha : s'.control.pmsg = some a) : s.control.pmsg = some a ∨ a ∈ m.line ∨ m'.taken = m.taken ++ [a] := by
  cases does_of_step hstep with
  | kept peek b hidle hpeek _ =>
    obtain rfl := Option.some.inj ha
    refine Or.inr (Or.inl ?_)
    rw [hm.line, front_eq (hidle ▸ rfl), hpeek]
    exact List.mem_cons_self
  | enter peek cmsWait _ _ _ => cases ha
  | check g hcontrol _ =>
    have htaken := hm.taken
    have htaken' := hm'.taken
    rw [hcontrol] at htaken
    rw [check_eq] at ha htaken'
    split at ha
    · cases ha
    · rename_i b rest hmsgq
      obtain rfl := Option.some.inj ha
      rw [hmsgq] at htaken'
      refine Or.inr (Or.inr (htaken'.trans ?_))
      rw [htaken]
      exact congrArg (· ++ [b]) (List.append_nil s.got).symm
  | stop g _ _ _ => cases ha
  | wait g _ _ _ _ => cases ha
  | woke g g' _ _ _ _ => cases ha
  | expire g _ _ _ => cases ha
  | keep b hcontrol _ =>
    rw [hcontrol]
    exact Or.inl ha
  | unkeep b hcontrol _ =>
    rw [hcontrol]
    exact Or.inl ha
  | peeked b _ _ => cases ha
  | gotten b _ _ => cases ha
  | _ => exact Or.inl ha

/-- A kind of message that is neither in the mailbox nor in the hands of a call. -/
structure Purged (p : Message → Bool) (s : MessageLoop heaps) (m : Mailbox Message DelayedMessage) : Prop where
  absent : m.Absent DelayedMessage.msg_ p
  pmsg : ∀ a, s.control.pmsg = some a → ¬ p a

theorem purged_clear {phandler : Option Nat} {id : UInt32} {removed : Bool} (hm : (s.Clear phandler id removed).Refines m)
    (hpmsg : ∀ a, s.control.pmsg = some a → ¬ a.Match phandler id) :
    Purged (·.Match phandler id) (s.Clear phandler id removed) m := by
  refine ⟨⟨fun a ha => ?_, fun d hd => ?_⟩, hpmsg⟩
  · rw [hm.line, front_clear] at ha
    change a ∈ _ ++ s.queue.msgq_.filter _ at ha
    rw [← List.filter_append] at ha
    exact Bool.not_eq_true _ ▸ (Bool.not_eq_true' _ ▸ (List.mem_filter.mp ha).2)
  · rw [hm.waiting] at hd
    change d ∈ (↑(s.queue.Clear phandler id).dmsgq_.container : Multiset DelayedMessage) at hd
    rw [coe_container_clear] at hd
    exact (Multiset.mem_filter.mp hd).2

theorem Purged.step {p : Message → Bool} (hposts : ∀ a, e.Posts a → ¬ p a) (hpushes : ∀ d, e.Pushes d → ¬ p d.msg_)
    (hm : s.Refines m) (h : s.Purged p m) (hstep : s.step e = some s') (hacts : Acts (s.rules e) m m')
    (hm' : s'.Refines m') : s'.Purged p m' := by
  have hkept : m'.Absent DelayedMessage.msg_ p ∧ m'.taken.filter p = m.taken.filter p :=
    Mailbox.Acts.keeps (I := fun m' => m'.Absent DelayedMessage.msg_ p ∧ m'.taken.filter p = m.taken.filter p)
      (fun m₁ m₂ hm₁ hact => by
        have hreturns : ∀ a, (s.rules e).returns a → ¬ p a := fun a ha => h.pmsg a (congrArg Control.pmsg ha)
        have hkeeps := hm₁.1.act (r := s.rules e) hposts (fun d hd => hpushes d hd.1) hreturns hact
        exact ⟨hkeeps.1, hkeeps.2.trans hm₁.2⟩) hacts ⟨h.absent, rfl⟩
  refine ⟨hkept.1, fun a ha => ?_⟩
  rcases pmsg_of_step hm hstep hm' ha with hold | hkeptFor | htaken
  · exact h.pmsg a hold
  · exact h.absent.line a hkeptFor
  · intro hp
    have hlength := congrArg List.length hkept.2
    rw [htaken, List.filter_append, List.filter_cons_of_pos hp, List.length_append, List.length_cons] at hlength
    omega

/-- After `Clear`, neither `Get` nor `Peek` returns a message that it has taken out, unless a call has one in its hands
    while the queue is cleared: not before such a message is put in again. -/
theorem cleared_of_run {phandler : Option Nat} {id : UInt32} {removed : Bool} {time : Nat} {es₁ es₂ : List Event}
    {s₁ s₂ s₃ : MessageLoop heaps} (h₁ : run new es₁ = some s₁)
    (hpmsg : ∀ a, s₁.control.pmsg = some a → ¬ a.Match phandler id)
    (h₂ : s₁.step ⟨time, .clear phandler id removed⟩ = some s₂) (h₃ : run s₂ es₂ = some s₃)
    (hposts : ∀ e ∈ es₂, ∀ a, e.Posts a → ¬ a.Match phandler id)
    (hpushes : ∀ e ∈ es₂, ∀ d, e.Pushes d → ¬ d.msg_.Match phandler id) :
    ∃ cs, s₃.calls = s₁.calls ++ cs ∧ ∀ c ∈ cs, ∀ a, c.result = some a → ¬ a.Match phandler id := by
  obtain rfl := Option.some.inj h₂
  have hrun : run new (es₁ ++ [⟨time, .clear phandler id removed⟩]) = some (s₁.Clear phandler id removed) := by
    unfold run
    rw [Machine.run_append]
    exact Option.bind_eq_some_iff.mpr ⟨s₁, h₁, Machine.run_cons_eq_some.mpr ⟨_, h₂, rfl⟩⟩
  obtain ⟨m, hm⟩ := exists_refines hrun
  have hend := Machine.run_keeps (I := fun s : MessageLoop heaps =>
      (∃ m, s.Refines m ∧ s.Purged (·.Match phandler id) m) ∧
        ∃ cs, s.calls = s₁.calls ++ cs ∧ ∀ c ∈ cs, ∀ a, c.result = some a → ¬ a.Match phandler id)
    (fun s s' e he ⟨⟨m, hm, hpurged⟩, cs, hcs, hresults⟩ hstep => by
      obtain ⟨m', hacts, hm'⟩ := refines_step hm hstep
      refine ⟨⟨m', hm', hpurged.step (hposts e he) (hpushes e he) hm hstep hacts hm'⟩, ?_⟩
      rcases calls_of_step hstep with hsame | ⟨c, hmore, hresult⟩
      · exact ⟨cs, hsame.trans hcs, hresults⟩
      · refine ⟨cs ++ [c], by rw [hmore, hcs, List.append_assoc], fun c' hc' a ha => ?_⟩
        rcases List.mem_append.mp hc' with hc' | hc'
        · exact hresults c' hc' a ha
        · obtain rfl := List.mem_singleton.mp hc'
          exact hpurged.pmsg a (hresult a ha))
    ⟨⟨m, hm, purged_clear hm hpmsg⟩, [], (List.append_nil _).symm, fun _ hc => absurd hc List.not_mem_nil⟩ h₃
  exact hend.2

/-- Nobody posts any more. -/
def getNothing : List Event := [⟨1061, .get 0⟩, ⟨1061, .check⟩, ⟨1061, .stop⟩, ⟨1061, .woke true⟩]

theorem isSome_getNothing :
    ((afterTwoMessages.Clear (some 2) MQID_ANY false).run getNothing).isSome := by decide

theorem cleared_getNothing :
    ∃ cs, (((afterTwoMessages.Clear (some 2) MQID_ANY false).run getNothing).get isSome_getNothing).calls =
      afterTwoMessages.calls ++ cs ∧ ∀ c ∈ cs, ∀ a, c.result = some a → ¬ a.Match (some 2) MQID_ANY := by
  have hidle : afterTwoMessages.control = .idle := by decide
  have hclear : afterTwoMessages.step ⟨1060, .clear (some 2) MQID_ANY false⟩ =
      some (afterTwoMessages.Clear (some 2) MQID_ANY false) := rfl
  refine cleared_of_run run_twoMessages ?_ hclear (Option.some_get isSome_getNothing).symm ?_ ?_
  · rw [hidle]
    nofun
  · simp [getNothing, Event.Posts]
  · simp [getNothing, Event.Pushes]

/-! ### After `Quit` -/

/-- What may have been put in. -/
def Since (es : List Event) (a : Message) : Prop := ∃ e ∈ es, e.Posts a

/-- The lock has been taken by a call of `Get`. -/
def Checked (es : List Event) : Prop := ∃ e ∈ es, e.action = .check

/-- A queue that was stopped at `s₁`, with the events and the calls since then. -/
structure Stopped (s₁ : MessageLoop heaps) (es : List Event) (s : MessageLoop heaps) (cs : List Call) : Prop where
  fStop_ : s.queue.fStop_
  passed : (es.filterMap Event.pushed ++ s.passed).Perm s₁.passed
  put : s.posted.length + s.delayed.length =
    s₁.posted.length + s₁.delayed.length + (es.filterMap Event.pushed).length
  calls : s.calls = s₁.calls ++ cs
  waiting : ∀ g cmsNext, s.control = .waiting g cmsNext → s₁.control = .waiting g cmsNext ∧ cs = [] ∧ ¬ Checked es
  checked : ∀ g cmsDelayNext, s.control = .checked g cmsDelayNext →
    (s₁.control.behind ∧ cs = [] ∧ ¬ Checked es) ∨ ∀ a ∈ s.queue.msgq_, Since es a
  drained : s.control = .idle → ∀ c, cs.getLast? = some c → c.result = none →
    (s₁.control.behind ∧ cs.length = 1 ∧ ¬ Checked es) ∨ (s.queue.msgPeek_ = none ∧ ∀ a ∈ s.queue.msgq_, Since es a)

variable {es : List Event} {cs : List Call}

theorem Since.concat {a : Message} (h : Since es a) (e : Event) : Since (es ++ [e]) a :=
  h.imp fun _ ⟨he, hposts⟩ => ⟨List.mem_append_left _ he, hposts⟩

theorem not_checked_concat (h : ¬ Checked es) (he : e.action ≠ .check) : ¬ Checked (es ++ [e]) := by
  rintro ⟨e', he', haction⟩
  rcases List.mem_append.mp he' with he' | he'
  · exact h ⟨e', he', haction⟩
  · obtain rfl := List.mem_singleton.mp he'
    exact he haction

/-- The lock is taken only from in front of the critical section. -/
theorem not_check_of_step (hstep : s.step e = some s') (hcontrol : ∀ g, s.control ≠ .checking g) : e.action ≠ .check := by
  intro haction
  unfold step at hstep
  rw [haction] at hstep
  split at hstep <;> simp_all

theorem filterMap_pushed_concat (es : List Event) (e : Event) :
    (es ++ [e]).filterMap Event.pushed = es.filterMap Event.pushed ++ e.pushed.toList := by
  rw [List.filterMap_append]
  cases hpushed : e.pushed with
  | none => rw [List.filterMap_cons_none hpushed]; rfl
  | some p => rw [List.filterMap_cons_some hpushed]; rfl

/-- What is put in has passed its test before. -/
theorem passed_of_step (hstop : s.queue.fStop_) (hstep : s.step e = some s') :
    (e.pushed.toList ++ s'.passed).Perm s.passed ∧
      s'.posted.length + s'.delayed.length = s.posted.length + s.delayed.length + e.pushed.toList.length := by
  cases hpushed : e.pushed with
  | none =>
    obtain ⟨hposted, hdelayed, -, hpassed⟩ := frame_of_step hstep hpushed
    rw [hpassed hstop, hposted, hdelayed]
    exact ⟨List.Perm.refl _, rfl⟩
  | some p =>
    obtain ⟨hp, rfl⟩ := push_of_step hstep hpushed
    cases p with
    | post phandler id pdata time_sensitive =>
      refine ⟨(List.perm_cons_erase hp).symm, ?_⟩
      change (s.posted ++ [_]).length + s.delayed.length = _
      rw [List.length_append]
      exact Nat.add_right_comm _ _ _
    | doDelayPost cmsDelay tstamp phandler id pdata =>
      refine ⟨(List.perm_cons_erase hp).symm, ?_⟩
      change s.posted.length + (s.delayed ++ [_]).length = _
      rw [List.length_append]
      exact (Nat.add_assoc _ _ _).symm

/-- A step that leaves the call alone that is under way. -/
theorem Stopped.other (h : Stopped s₁ es s cs) (hstep : s.step e = some s') (haction : e.action ≠ .check)
    (hfStop : s'.queue.fStop_) (hcalls : s'.calls = s.calls) (hcontrol : s'.control = s.control)
    (hpeek : s.queue.msgPeek_ = none → s'.queue.msgPeek_ = none)
    (hmsgq : ∀ a ∈ s'.queue.msgq_, a ∈ s.queue.msgq_ ∨ e.Posts a) : Stopped s₁ (es ++ [e]) s' cs := by
  obtain ⟨hpassed, hput⟩ := passed_of_step h.fStop_ hstep
  have hsince (hall : ∀ a ∈ s.queue.msgq_, Since es a) (a : Message) (ha : a ∈ s'.queue.msgq_) : Since (es ++ [e]) a := by
    rcases hmsgq a ha with ha | ha
    · exact (hall a ha).concat e
    · exact ⟨e, List.mem_append_right _ List.mem_cons_self, ha⟩
  constructor
  · exact hfStop
  · rw [filterMap_pushed_concat, List.append_assoc]
    exact (hpassed.append_left _).trans h.passed
  · rw [filterMap_pushed_concat, List.length_append, hput, h.put, Nat.add_assoc]
  · exact hcalls.trans h.calls
  · intro g cmsNext hwaiting
    obtain ⟨hsame, hnil, hfresh⟩ := h.waiting g cmsNext (hcontrol ▸ hwaiting)
    exact ⟨hsame, hnil, not_checked_concat hfresh haction⟩
  · intro g cmsDelayNext hchecked
    exact (h.checked g cmsDelayNext (hcontrol ▸ hchecked)).imp
      (fun ⟨hbehind, hnil, hfresh⟩ => ⟨hbehind, hnil, not_checked_concat hfresh haction⟩) hsince
  · intro hidle c hlast hnone
    exact (h.drained (hcontrol ▸ hidle) c hlast hnone).imp
      (fun ⟨hbehind, hone, hfresh⟩ => ⟨hbehind, hone, not_checked_concat hfresh haction⟩)
      (fun ⟨hpeeked, hall⟩ => ⟨hpeek hpeeked, hsince hall⟩)

/-- A step of the call that is under way. -/
theorem Stopped.owner (h : Stopped s₁ es s cs) (hstep : s.step e = some s') (hpushed : e.pushed = none)
    (hfStop : s'.queue.fStop_) {cs' : List Call} (hcalls : s'.calls = s₁.calls ++ cs')
    (hwaiting : ∀ g cmsNext, s'.control ≠ .waiting g cmsNext)
    (hchecked : ∀ g cmsDelayNext, s'.control = .checked g cmsDelayNext → s'.queue.msgq_ = [])
    (hdrained : s'.control = .idle → ∀ c, cs'.getLast? = some c → c.result = none →
      (s₁.control.behind ∧ cs'.length = 1 ∧ ¬ Checked (es ++ [e])) ∨
        (s'.queue.msgPeek_ = none ∧ ∀ a ∈ s'.queue.msgq_, Since (es ++ [e]) a)) : Stopped s₁ (es ++ [e]) s' cs' := by
  obtain ⟨hpassed, hput⟩ := passed_of_step h.fStop_ hstep
  have hsame := filterMap_pushed_concat es e
  rw [hpushed] at hpassed hput hsame
  rw [Option.toList_none, List.append_nil] at hsame
  constructor
  · exact hfStop
  · rw [hsame]
    exact (hpassed.append_left _).trans h.passed
  · rw [hsame, hput]
    exact h.put
  · exact hcalls
  · exact fun g cmsNext hcontrol => absurd hcontrol (hwaiting g cmsNext)
  · intro g cmsDelayNext hcontrol
    rw [hchecked g cmsDelayNext hcontrol]
    exact Or.inr fun _ ha => absurd ha List.not_mem_nil
  · exact hdrained

theorem pushed_eq_none {action : Action} (haction : e.action = action) (hother : ∀ p, action ≠ .push p) : e.pushed = none := by
  unfold Event.pushed
  rw [haction]
  split
  · exact absurd rfl (hother _)
  · rfl

theorem pushed_of_reads (h : e.Reads) : e.pushed = none := by
  rcases h with ⟨_, h⟩ | ⟨_, h⟩ | ⟨_, h⟩ <;> exact pushed_eq_none h nofun

/-- A call that returns true. -/
theorem Stopped.returned (h : Stopped s₁ es s cs) {peek : Bool} {a : Message}
    (hstep : s.step e = some (s.leave peek (some a))) (haction : e.action = .leave) :
    ∃ cs', Stopped s₁ (es ++ [e]) (s.leave peek (some a)) cs' := by
  refine ⟨cs ++ [⟨peek, some a⟩], h.owner hstep (pushed_eq_none haction nofun) h.fStop_ ?_ nofun nofun ?_⟩
  · unfold leave
    rw [h.calls, List.append_assoc]
  · intro _ c hlast hnone
    rw [List.getLast?_concat] at hlast
    obtain rfl := Option.some.inj hlast
    cases hnone

/-- A call that returns false. -/
theorem Stopped.failed (h : Stopped s₁ es s cs) {peek : Bool} (hstep : s.step e = some (s.leave peek none))
    (hpushed : e.pushed = none)
    (hdrained : (s₁.control.behind ∧ cs = [] ∧ ¬ Checked (es ++ [e])) ∨
      (s.queue.msgPeek_ = none ∧ ∀ a ∈ s.queue.msgq_, Since (es ++ [e]) a)) :
    ∃ cs', Stopped s₁ (es ++ [e]) (s.leave peek none) cs' := by
  refine ⟨cs ++ [⟨peek, none⟩], h.owner hstep hpushed h.fStop_ ?_ nofun nofun fun _ c _ _ => ?_⟩
  · unfold leave
    rw [h.calls, List.append_assoc]
  · refine hdrained.imp_left fun ⟨hbehind, hnil, hfresh⟩ => ⟨hbehind, ?_, hfresh⟩
    rw [hnil]
    rfl

theorem Stopped.check (hm : s.Refines m) (h : Stopped s₁ es s cs) {g : Getting} (hcontrol : s.control = .checking g)
    (hstep : s.step e = some (s.check g)) (haction : e.action = .check) : Stopped s₁ (es ++ [e]) (s.check g) cs := by
  have hpeek : s.queue.msgPeek_ = none := hm.searched (hcontrol ▸ rfl)
  rw [check_eq] at hstep ⊢
  cases hmsgq : (s.opened g.msCurrent).queue.msgq_ with
  | nil =>
    rw [hmsgq] at hstep
    exact h.owner hstep (pushed_eq_none haction nofun) h.fStop_ h.calls nofun (fun _ _ _ => hmsgq) nofun
  | cons a rest =>
    rw [hmsgq] at hstep
    exact h.owner hstep (pushed_eq_none haction nofun) h.fStop_ h.calls nofun nofun nofun

/-- Behind the critical section the owner sees that it has been stopped. -/
theorem Stopped.stop (hm : s.Refines m) (h : Stopped s₁ es s cs) {g : Getting} {cmsDelayNext : Int32}
    (hcontrol : s.control = .checked g cmsDelayNext) (hstep : s.step e = some (s.leave g.peek none))
    (haction : e.action = .stop) : ∃ cs', Stopped s₁ (es ++ [e]) (s.leave g.peek none) cs' := by
  have hpeek : s.queue.msgPeek_ = none := hm.searched (hcontrol ▸ rfl)
  refine h.failed hstep (pushed_eq_none haction nofun) ?_
  refine (h.checked g cmsDelayNext hcontrol).imp (fun ⟨hbehind, hnil, hfresh⟩ => ⟨hbehind, hnil, ?_⟩)
    (fun hall => ⟨hpeek, fun a ha => (hall a ha).concat e⟩)
  exact not_checked_concat hfresh fun hcheck => by cases haction.symm.trans hcheck

/-- The wait in which the owner was stopped is over. -/
theorem Stopped.expire (h : Stopped s₁ es s cs) {g : Getting} {cmsNext : Int32} (hcontrol : s.control = .waiting g cmsNext)
    (hstep : s.step e = some (s.leave g.peek none)) (hpushed : e.pushed = none) :
    ∃ cs', Stopped s₁ (es ++ [e]) (s.leave g.peek none) cs' := by
  obtain ⟨hsame, hnil, hfresh⟩ := h.waiting g cmsNext hcontrol
  refine h.failed hstep hpushed (Or.inl ⟨hsame ▸ rfl, hnil, not_checked_concat hfresh ?_⟩)
  exact not_check_of_step hstep fun g hchecking => by cases hcontrol.symm.trans hchecking

theorem Stopped.step (hm : s.Refines m) (h : Stopped s₁ es s cs) (hstep : s.step e = some s')
    (hrestart : e.action ≠ .restart) : ∃ cs', Stopped s₁ (es ++ [e]) s' cs' := by
  have hold (a : Message) (ha : a ∈ s.queue.msgq_) : a ∈ s.queue.msgq_ ∨ e.Posts a := Or.inl ha
  have hcheck {action : Action} (haction : e.action = action) (hne : action ≠ .check) : e.action ≠ .check := haction ▸ hne
  cases does_of_step hstep with
  | call p hcalls =>
    refine ⟨cs, h.other hstep (fun haction => ?_) h.fStop_ rfl rfl id hold⟩
    unfold Event.calls at hcalls
    rw [haction] at hcalls
    cases hcalls
  | test p _ haction => exact ⟨cs, h.other hstep (hcheck haction nofun) h.fStop_ rfl rfl id hold⟩
  | post p a _ haction hposts =>
    refine ⟨cs, h.other hstep (hcheck haction nofun) h.fStop_ rfl rfl id fun b hb => ?_⟩
    rcases List.mem_append.mp hb with hb | hb
    · exact Or.inl hb
    · obtain rfl := List.mem_singleton.mp hb
      exact Or.inr hposts
  | delay p d _ haction _ _ => exact ⟨cs, h.other hstep (hcheck haction nofun) h.fStop_ rfl rfl id hold⟩
  | clear phandler id removed haction =>
    refine ⟨cs, h.other hstep (hcheck haction nofun) h.fStop_ rfl rfl (fun hpeek => ?_) fun a ha => ?_⟩
    · change s.queue.msgPeek_.filter _ = none
      rw [hpeek]
      rfl
    · exact Or.inl (List.mem_of_mem_filter ha)
  | quit haction => exact ⟨cs, h.other hstep (hcheck haction nofun) rfl rfl rfl id hold⟩
  | restart haction => exact absurd haction hrestart
  | kept peek a _ _ hreads => exact ⟨cs, h.owner hstep (pushed_of_reads hreads) h.fStop_ h.calls nofun nofun nofun⟩
  | enter peek cmsWait _ _ hreads => exact ⟨cs, h.owner hstep (pushed_of_reads hreads) h.fStop_ h.calls nofun nofun nofun⟩
  | check g hcontrol haction => exact ⟨cs, h.check hm hcontrol hstep haction⟩
  | stop g cmsDelayNext hcontrol haction => exact h.stop hm hcontrol hstep haction
  | wait g _ _ hgoes _ => exact absurd h.fStop_ hgoes
  | woke g g' _ _ _ hreads => exact ⟨cs, h.owner hstep (pushed_of_reads hreads) h.fStop_ h.calls nofun nofun nofun⟩
  | expire g cmsNext hcontrol hreads => exact h.expire hcontrol hstep (pushed_of_reads hreads)
  | keep a _ haction => exact ⟨cs, h.owner hstep (pushed_eq_none haction nofun) h.fStop_ h.calls nofun nofun nofun⟩
  | unkeep a _ haction => exact ⟨cs, h.owner hstep (pushed_eq_none haction nofun) h.fStop_ h.calls nofun nofun nofun⟩
  | peeked a _ haction => exact h.returned hstep haction
  | gotten a _ haction => exact h.returned hstep haction

/-- What is put into a queue that has been stopped had passed its test before. Its owner begins no wait, and when `Get`
    returns false all that was ready is delivered, save what has been put in since then, and save a call that was behind
    its critical section when the queue was stopped and has not been there again. -/
theorem drained_of_run {es₁ es₂ : List Event} {s₁ s₂ : MessageLoop heaps} (h₁ : run new es₁ = some s₁)
    (hstopped : s₁.queue.fStop_) (h₂ : run s₁ es₂ = some s₂) (hrestart : ∀ e ∈ es₂, e.action ≠ .restart) :
    (es₂.filterMap Event.pushed ++ s₂.passed).Perm s₁.passed ∧
      s₂.posted.length + s₂.delayed.length =
        s₁.posted.length + s₁.delayed.length + (es₂.filterMap Event.pushed).length ∧
      (∀ g cmsNext, s₂.control = .waiting g cmsNext → s₁.control = .waiting g cmsNext ∧ s₂.calls = s₁.calls) ∧
      ∃ cs, s₂.calls = s₁.calls ++ cs ∧ (s₂.control = .idle → ∀ peek, cs.getLast? = some ⟨peek, none⟩ →
        (s₁.control.behind → 2 ≤ cs.length ∨ Checked es₂) →
          s₂.queue.msgPeek_ = none ∧ ∀ a ∈ s₂.queue.msgq_, Since es₂ a) := by
  obtain ⟨m, hm⟩ := exists_refines h₁
  have hnil {e : Event} : e ∉ ([] : List Event) := List.not_mem_nil
  have hfresh : ¬ Checked [] := fun ⟨_, he, _⟩ => hnil he
  have hstart : Stopped s₁ [] s₁ [] :=
    { fStop_ := hstopped
      passed := List.Perm.refl _
      put := rfl
      calls := (List.append_nil _).symm
      waiting := fun g cmsNext hwaiting => ⟨hwaiting, rfl, hfresh⟩
      checked := fun g cmsDelayNext hchecked => Or.inl ⟨hchecked ▸ rfl, rfl, hfresh⟩
      drained := fun _ c hlast => by cases hlast }
  obtain ⟨-, cs, h⟩ := Machine.run_keeps_past (J := fun es (s : MessageLoop heaps) =>
      (∃ m, s.Refines m) ∧ ∃ cs, Stopped s₁ es s cs)
    (fun es s s' e he ⟨⟨m, hm⟩, cs, h⟩ hstep => by
      obtain ⟨m', -, hm'⟩ := refines_step hm hstep
      exact ⟨⟨m', hm'⟩, h.step hm hstep (hrestart e he)⟩) [] ⟨⟨m, hm⟩, [], hstart⟩ h₂
  rw [List.nil_append] at h
  refine ⟨h.passed, h.put, fun g cmsNext hwaiting => ?_, cs, h.calls, fun hidle peek hlast hlate => ?_⟩
  · obtain ⟨hsame, rfl, -⟩ := h.waiting g cmsNext hwaiting
    exact ⟨hsame, h.calls.trans (List.append_nil _)⟩
  · rcases h.drained hidle _ hlast rfl with ⟨hbehind, hone, hfresh⟩ | hdrained
    · rcases hlate hbehind with htwo | hchecked
      · omega
      · exact absurd hchecked hfresh
    · exact hdrained

/-- The owner waits, and a posting has passed its test. -/
def beforeQuit : List Event :=
  [⟨1000, .get kForever⟩, ⟨1000, .check⟩, ⟨1000, .stop⟩, ⟨1001, .post (some 1) 7 none false⟩, ⟨1001, .test seven⟩, ⟨1001, .quit⟩]

theorem isSome_beforeQuit : ((new : MessageLoop sortedHeaps).run beforeQuit).isSome := by decide

def stopped : MessageLoop sortedHeaps := ((new : MessageLoop sortedHeaps).run beforeQuit).get isSome_beforeQuit

/-- It is still put in and returned. -/
def afterQuit : List Event :=
  [⟨1002, .push seven⟩, ⟨1002, .woke true⟩, ⟨1002, .check⟩, ⟨1002, .leave⟩, ⟨1003, .get kForever⟩, ⟨1003, .check⟩,
    ⟨1003, .stop⟩]

theorem isSome_afterQuit : (stopped.run afterQuit).isSome := by decide

def drained : MessageLoop sortedHeaps := (stopped.run afterQuit).get isSome_afterQuit

theorem drained_afterQuit :
    (afterQuit.filterMap Event.pushed ++ drained.passed).Perm stopped.passed ∧
      drained.posted.length + drained.delayed.length =
        stopped.posted.length + stopped.delayed.length + (afterQuit.filterMap Event.pushed).length ∧
      (∀ g cmsNext, drained.control = .waiting g cmsNext →
        stopped.control = .waiting g cmsNext ∧ drained.calls = stopped.calls) ∧
      ∃ cs, drained.calls = stopped.calls ++ cs ∧ (drained.control = .idle → ∀ peek, cs.getLast? = some ⟨peek, none⟩ →
        (stopped.control.behind → 2 ≤ cs.length ∨ Checked afterQuit) →
          drained.queue.msgPeek_ = none ∧ ∀ a ∈ drained.queue.msgq_, Since afterQuit a) :=
  drained_of_run (Option.some_get isSome_beforeQuit).symm (by decide) (Option.some_get isSome_afterQuit).symm (by decide)

end MessageLoop

end ProbICE.TalkBase
