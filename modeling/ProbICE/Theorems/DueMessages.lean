import ProbICE.Lib.RankSort
import ProbICE.Theorems.MessageQueues
import ProbICE.Theorems.TimeStamps

/-! # When messages are due

`Get` reads the clock before it enters its critical section, and lets in what is not later than its reading. -/

namespace ProbICE.TalkBase

variable {heaps : PriorityQueue.Heaps DelayedMessage.lt}

theorem toNat_toUInt32 {c : Int32} (hc : 0 ≤ c) : c.toUInt32.toNat = c.toInt.toNat := by
  have h := toInt_toInt32 c.toUInt32
  have hlt := c.toUInt32.toNat_lt
  rw [Int32.le_iff_toInt_le, toInt_zero] at hc
  rw [Int32.toInt32_toUInt32] at h
  split at h <;> omega

/-- A delay leads to the time stamp of the time when it is over. -/
theorem timeAfter_time (t : Nat) {c : Int32} (hc : 0 ≤ c) : TimeAfter (Time t) c = Time (t + c.toInt.toNat) := by
  rw [← UInt32.toNat_inj]
  unfold TimeAfter
  rw [UInt32.toNat_add, toNat_toUInt32 hc, toNat_time, toNat_time]
  omega

/-- What is not later is over, or else it is too far ahead to be told from what is over. -/
theorem over_of_not_later {s t : Nat} (h : TimeIsLater (Time s) (Time t) = false) : t ≤ s ∨ s + 2147483648 ≤ t := by
  by_contra hnear
  rw [not_or, Nat.not_le, Nat.not_le] at hnear
  have hlater := (timeStamps_tell (s := s) (t := t) (by omega) (by omega)).1.mpr hnear.1
  rw [h] at hlater
  cases hlater

theorem timeIsLater_iff_timeDiff (earlier later : UInt32) :
    TimeIsLater earlier later ↔ 0 < (TimeDiff later earlier).toInt := by
  have h := (later - earlier).toNat_lt
  rw [timeIsLater_iff, toInt_timeDiff]
  split <;> omega

/-- `GetDelay` foretells what `Get` finds at the same reading of the clock: something to take or to dispose of, or how
    long there is to wait. -/
theorem getDelay_eq (q : MessageQueue heaps) (now : UInt32) :
    q.GetDelay now =
      if q.msgq_ = [] ∧ (q.dmsgq_.popWhile fun d => !TimeIsLater now d.msTrigger_).1 = [] then (q.check now).cmsDelayNext
      else 0 := by
  unfold MessageQueue.GetDelay
  cases hmsgq : q.msgq_ with
  | cons a rest => simp
  | nil =>
    rw [if_neg (fun h => h rfl)]
    cases htop : q.dmsgq_.top with
    | none =>
      have hpopped := PriorityQueue.popWhile_of_stop (q := q.dmsgq_) (p := fun d => !TimeIsLater now d.msTrigger_)
        fun d hd => absurd (htop.symm.trans hd) (Option.some_ne_none d).symm
      rw [hpopped, if_pos ⟨rfl, rfl⟩]
      unfold MessageQueue.check
      rw [hpopped]
      dsimp only
      rw [htop]
    | some d =>
      have hlater := timeIsLater_iff_timeDiff now d.msTrigger_
      cases hdue : TimeIsLater now d.msTrigger_ with
      | true =>
        have hpositive := hlater.mp hdue
        have hpopped := PriorityQueue.popWhile_of_stop (q := q.dmsgq_) (p := fun d => !TimeIsLater now d.msTrigger_)
          fun d' hd' => by
            obtain rfl := Option.some.inj (htop.symm.trans hd')
            rw [hdue]
            rfl
        rw [hpopped, if_pos ⟨rfl, rfl⟩]
        unfold MessageQueue.check TimeUntil
        rw [hpopped]
        dsimp only
        rw [htop]
        refine if_neg fun hneg => ?_
        rw [Int32.lt_iff_toInt_lt, toInt_zero] at hneg
        omega
      | false =>
        have hnotPositive : ¬ 0 < (TimeDiff d.msTrigger_ now).toInt := fun h => Bool.false_ne_true (hdue ▸ hlater.mpr h)
        have hpopped := PriorityQueue.popWhile_ne_nil (q := q.dmsgq_) (p := fun d => !TimeIsLater now d.msTrigger_) htop
          (by rw [hdue]; rfl)
        rw [if_neg fun h => hpopped h.2]
        unfold TimeUntil
        dsimp only
        split
        · rfl
        · rename_i hnonneg
          rw [Int32.lt_iff_toInt_lt, toInt_zero] at hnonneg
          rw [← Int32.toInt_inj, toInt_zero]
          omega

namespace MessageLoop

variable {s s' : MessageLoop heaps} {e : Event} {m m' : Mailbox Message DelayedMessage} {es : List Event}

/-! ### Readings of the clock -/

/-- In front of the critical section the clock has just been read. -/
theorem control_of_step (hstep : s.step e = some s') {g : Getting} (hcontrol : s'.control = .checking g) :
    s.control = .checking g ∨ (e.Reads ∧ g.msCurrent = Time e.time) := by
  cases does_of_step hstep with
  | kept peek a _ _ _ => cases hcontrol
  | enter peek cmsWait _ _ h =>
    cases hcontrol
    exact Or.inr ⟨h, rfl⟩
  | check g' _ _ =>
    rw [check_eq] at hcontrol
    split at hcontrol <;> cases hcontrol
  | stop g' _ _ _ => cases hcontrol
  | wait g' _ _ _ _ => cases hcontrol
  | woke g₁ g₂ _ _ hcurrent h =>
    cases hcontrol
    exact Or.inr ⟨h, hcurrent⟩
  | expire g' _ _ _ => cases hcontrol
  | keep a _ _ => cases hcontrol
  | unkeep a _ _ => cases hcontrol
  | peeked a _ _ => cases hcontrol
  | gotten a _ _ => cases hcontrol
  | _ => exact Or.inl hcontrol

theorem postings_of_step (hstep : s.step e = some s') {p : Posting} (hp : p ∈ s'.called ++ s'.passed) :
    p ∈ s.called ++ s.passed ∨ e.calls = some p := by
  have herase (p' : Posting) (hp : p ∈ s.called ++ s.passed.erase p') : p ∈ s.called ++ s.passed :=
    (List.mem_append.mp hp).elim (List.mem_append_left _) fun hp => List.mem_append_right _ (List.mem_of_mem_erase hp)
  cases does_of_step hstep with
  | call p' h =>
    rcases List.mem_append.mp hp with hp | hp
    · rcases List.mem_append.mp hp with hp | hp
      · exact Or.inl (List.mem_append_left _ hp)
      · obtain rfl := List.mem_singleton.mp hp
        exact Or.inr h
    · exact Or.inl (List.mem_append_right _ hp)
  | test p' hcalled _ =>
    refine Or.inl ?_
    rcases List.mem_append.mp hp with hp | hp
    · exact List.mem_append_left _ (List.mem_of_mem_erase hp)
    · change p ∈ ite _ _ _ at hp
      split at hp
      · exact List.mem_append_right _ hp
      · rcases List.mem_append.mp hp with hp | hp
        · exact List.mem_append_right _ hp
        · obtain rfl := List.mem_singleton.mp hp
          exact List.mem_append_left _ hcalled
  | post p' a _ _ _ => exact Or.inl (herase p' hp)
  | delay p' d _ _ _ _ => exact Or.inl (herase p' hp)
  | _ => exact Or.inl hp

/-- What is pushed has been called for. -/
theorem delays_of_calls {d : DelayedMessage} {phandler : Option Nat} {id : UInt32} {pdata : Option Nat}
    (h : e.calls = some (.doDelayPost d.cmsDelay_ d.msTrigger_ phandler id pdata))
    (hmsg : d.msg_ = ⟨phandler, id, pdata, 0⟩) : e.Delays d := by
  unfold Event.calls at h
  split at h
  · cases h
  · rename_i haction
    obtain ⟨hdelay, htrigger, rfl, rfl, rfl⟩ := Posting.doDelayPost.inj (Option.some.inj h)
    rw [hdelay] at haction htrigger
    exact .delayed _ _ _ haction htrigger.symm hmsg
  · rename_i haction
    obtain ⟨-, htrigger, rfl, rfl, rfl⟩ := Posting.doDelayPost.inj (Option.some.inj h)
    rw [htrigger] at haction
    exact .timed _ _ _ haction hmsg
  · cases h

/-! ### Nothing comes early -/

/-- What the past says of the mailbox. -/
structure Past (past : List Event) (s : MessageLoop heaps) (m : Mailbox Message DelayedMessage) : Prop where
  reads : ∀ g, s.control = .checking g → ∃ e ∈ past, e.Reads ∧ g.msCurrent = Time e.time
  calls : ∀ p ∈ s.called ++ s.passed, ∃ e ∈ past, e.calls = some p
  justified : m.Justified (fun a => ∃ e ∈ past, e.Posts a) (fun d => ∃ e ∈ past, e.Delays d)
    (fun d => ∃ e ∈ past, e.Reads ∧ TimeIsLater (Time e.time) d.msTrigger_ = false)
  mem : (∀ d ∈ m.released, d ∈ m.delayed) ∧ ∀ d ∈ m.waiting, d ∈ m.delayed
  sublist : (m.taken ++ m.line).Sublist (m.entered.map (Sum.elim id DelayedMessage.msg_))

theorem past_new : Past [] (new : MessageLoop heaps) .empty := by
  have hnone {α : Type} {P : α → Prop} : ∀ a ∈ ([] : List α), P a := fun _ ha => absurd ha List.not_mem_nil
  exact ⟨fun g hg => (by cases hg), hnone, ⟨hnone, hnone, hnone⟩, ⟨hnone, hnone⟩, List.Sublist.refl _⟩

/-- What is pushed was called for before. -/
theorem Past.delays {past : List Event} (h : Past past s m) {d : DelayedMessage} (hd : (s.rules e).delays d) :
    ∃ e ∈ past, e.Delays d := by
  obtain ⟨⟨phandler, id, pdata, haction, hmsg⟩, ⟨p, hp, hp'⟩, -⟩ := hd
  obtain rfl := Action.push.inj (haction.symm.trans hp')
  obtain ⟨e', he', hcalls⟩ := h.calls _ (List.mem_append_right _ hp)
  exact ⟨e', he', delays_of_calls hcalls hmsg⟩

theorem Past.step {past : List Event} (h : Past past s m) (hstep : s.step e = some s') (hacts : Acts (s.rules e) m m') :
    Past (past ++ [e]) s' m' := by
  have hlast : e ∈ past ++ [e] := List.mem_append_right _ List.mem_cons_self
  have hlater {P : Event → Prop} : (∃ e ∈ past, P e) → ∃ e' ∈ past ++ [e], P e' := by
    rintro ⟨e', he', hP⟩
    exact ⟨e', List.mem_append_left _ he', hP⟩
  refine ⟨fun g hg => ?_, fun p hp => ?_, ?_, Mailbox.Acts.keeps (fun _ _ => Mailbox.mem_delayed_act) hacts h.mem,
    Mailbox.Acts.keeps (fun _ _ => Mailbox.sublist_act) hacts h.sublist⟩
  · rcases control_of_step hstep hg with hg | hread
    · exact hlater (h.reads g hg)
    · exact ⟨e, hlast, hread⟩
  · rcases postings_of_step hstep hp with hp | hcalls
    · exact hlater (h.calls p hp)
    · exact ⟨e, hlast, hcalls⟩
  · refine Mailbox.Acts.keeps (fun _ _ => Mailbox.Justified.act ?_ ?_ ?_) hacts
      ⟨fun a ha => hlater (h.justified.posted a ha), fun d hd => hlater (h.justified.delayed d hd),
        fun d hd => hlater (h.justified.released d hd)⟩
    · exact fun a ha => ⟨e, hlast, ha⟩
    · exact fun d hd => hlater (h.delays hd)
    · rintro d - ⟨g, hg, hd⟩
      obtain ⟨e', he', hread, hcurrent⟩ := h.reads g hg
      exact ⟨e', List.mem_append_left _ he', hread, hcurrent ▸ hd⟩

theorem past_of_run (hrun : run new es = some s) : ∃ m, s.Refines m ∧ Past es s m :=
  exists_mailbox_of_run past_new (fun _ _ _ _ _ _ _ _ h _ hstep hacts _ => h.step hstep hacts) hrun

/-- How a message has come into the line: at once, after a delay, or at the time of a time stamp. -/
inductive Came (es : List Event) (a : Message) : Prop
  | posted (e : Event) (he : e ∈ es) (h : e.Posts a)
  | delayed (e e' : Event) (he : e ∈ es) (he' : e' ∈ es) (cmsDelay : Int32) (phandler : Option Nat) (id : UInt32)
      (pdata : Option Nat) (haction : e.action = .postDelayed cmsDelay phandler id pdata)
      (hmsg : a = ⟨phandler, id, pdata, 0⟩) (hread : e'.Reads)
      (hover : e.time + cmsDelay.toInt.toNat ≤ e'.time ∨ e'.time + 2147483648 ≤ e.time + cmsDelay.toInt.toNat)
  | timed (e e' : Event) (he : e ∈ es) (he' : e' ∈ es) (tstamp : UInt32) (phandler : Option Nat) (id : UInt32)
      (pdata : Option Nat) (haction : e.action = .postAt tstamp phandler id pdata)
      (hmsg : a = ⟨phandler, id, pdata, 0⟩) (hread : e'.Reads) (hover : TimeIsLater (Time e'.time) tstamp = false)

/-- A message that is posted with a delay is not let in before `Get` has read of the clock that the delay is over. (A
    reading that is older than the post by nearly half of the range does not tell.) -/
theorem notEarly_of_run (hrun : run new es = some s)
    (hdelays : ∀ e ∈ es, ∀ cmsDelay phandler id pdata, e.action = .postDelayed cmsDelay phandler id pdata → 0 ≤ cmsDelay)
    {a : Message} (ha : a ∈ s.got ++ s.control.hand ++ s.front ++ s.queue.msgq_) : Came es a := by
  obtain ⟨m, hm, -, -, hjustified, hmem, hsublist⟩ := past_of_run hrun
  rw [← hm.line_eq] at ha
  obtain ⟨x, hx, hxa⟩ := List.mem_map.mp (hsublist.subset ha)
  cases x with
  | inl b =>
    obtain rfl : b = a := hxa
    obtain ⟨e, he, h⟩ := hjustified.posted b (List.mem_filterMap.mpr ⟨_, hx, rfl⟩)
    exact .posted e he h
  | inr d =>
    obtain rfl : d.msg_ = a := hxa
    have hd : d ∈ m.released := List.mem_filterMap.mpr ⟨_, hx, rfl⟩
    obtain ⟨e, he, hdelay⟩ := hjustified.delayed d (hmem.1 d hd)
    obtain ⟨e', he', hread, hripe⟩ := hjustified.released d hd
    cases hdelay with
    | delayed phandler id pdata haction htrigger hmsg =>
      rw [htrigger, timeAfter_time _ (hdelays e he _ _ _ _ haction)] at hripe
      exact .delayed e e' he he' _ phandler id pdata haction hmsg hread (over_of_not_later hripe)
    | timed phandler id pdata haction hmsg => exact .timed e e' he he' _ phandler id pdata haction hmsg hread hripe

theorem notEarly_twoMessages : Came twoMessages ⟨some 2, 8, none, 0⟩ := by
  refine notEarly_of_run run_twoMessages ?_ (by decide)
  simp only [twoMessages, List.forall_mem_cons, Action.postDelayed.injEq, reduceCtorEq, false_implies, implies_true,
    and_imp, true_and, and_true, List.not_mem_nil]
  rintro _ _ _ _ rfl - - -
  decide

/-! ### The numbers of delayed messages -/

/-- Delayed messages are numbered in the order in which they are posted. -/
def Numbered (s : MessageLoop heaps) : Prop :=
  s.queue.dmsgq_next_num_ = UInt32.ofNat s.delayed.length ∧
    s.delayed.map DelayedMessage.num_ = (List.range s.delayed.length).map UInt32.ofNat

theorem Numbered.step (h : s.Numbered) (hstep : s.step e = some s') : s'.Numbered := by
  obtain ⟨hnext, hnums⟩ := h
  cases hpushed : e.pushed with
  | none =>
    obtain ⟨-, hdelayed, hsame, -⟩ := frame_of_step hstep hpushed
    unfold Numbered
    rw [hdelayed, hsame]
    exact ⟨hnext, hnums⟩
  | some p =>
    obtain ⟨-, rfl⟩ := push_of_step hstep hpushed
    cases p with
    | post phandler id pdata time_sensitive => exact ⟨hnext, hnums⟩
    | doDelayPost cmsDelay tstamp phandler id pdata =>
      constructor
      · change s.queue.dmsgq_next_num_ + 1 = UInt32.ofNat (s.delayed ++ [_]).length
        rw [hnext, List.length_append, List.length_singleton, UInt32.ofNat_add]
        rfl
      · change (s.delayed ++ [_]).map DelayedMessage.num_ = (List.range (s.delayed ++ [_]).length).map UInt32.ofNat
        rw [List.map_append, hnums, List.length_append, List.length_singleton, List.range_succ, List.map_append,
          List.map_cons, List.map_cons, ← hnext]
        rfl

/-- Later ones have larger numbers, as long as there are not too many. -/
theorem Numbered.pairwise (h : s.Numbered) (hcount : s.delayed.length ≤ 4294967296) :
    s.delayed.Pairwise fun d d' => d.num_.toNat < d'.num_.toNat := by
  have hnums : (s.delayed.map DelayedMessage.num_).Pairwise fun n n' : UInt32 => n.toNat < n'.toNat := by
    rw [h.2, List.pairwise_map]
    refine List.pairwise_lt_range.imp_of_mem fun {i j} hi hj hlt => ?_
    have hj := List.mem_range.mp hj
    rw [UInt32.toNat_ofNat', UInt32.toNat_ofNat']
    omega
  exact (List.pairwise_map (f := DelayedMessage.num_) (R := fun n n' : UInt32 => n.toNat < n'.toNat)).mp hnums

/-! ### Messages come when they are due -/

/-- A stretch of time in which the time stamps do not begin again, and which is short enough to compare them. -/
structure Within (begin length : Nat) (es : List Event) : Prop where
  half : length ≤ 2147483648
  unwrapped : begin % 4294967296 + length ≤ 4294967296
  clock : (es.map Event.time).Pairwise (· ≤ ·)
  time : ∀ e ∈ es, begin ≤ e.time ∧ e.time < begin + length
  due : ∀ e ∈ es, ∀ cmsDelay phandler id pdata, e.action = .postDelayed cmsDelay phandler id pdata →
    0 ≤ cmsDelay ∧ e.time + cmsDelay.toInt.toNat < begin + length
  timed : ∀ e ∈ es, ∀ tstamp phandler id pdata, e.action ≠ .postAt tstamp phandler id pdata

variable {begin length : Nat}

/-- In such a stretch the time stamps are in the order of the times. -/
theorem Within.stamp (h : Within begin length es) {t : Nat} (ht : begin ≤ t) (ht' : t < begin + length) :
    (Time t).toNat = begin % 4294967296 + (t - begin) := by
  have h₁ := h.unwrapped
  rw [toNat_time]
  omega

/-- What is let in is over at the reading. -/
theorem Within.ripe (h : Within begin length es) {e e' : Event} {d : DelayedMessage} (he : e ∈ es) (hdelays : e.Delays d)
    (he' : e' ∈ es) (hripe : TimeIsLater (Time e'.time) d.msTrigger_ = false) :
    d.msTrigger_.toNat ≤ (Time e'.time).toNat := by
  cases hdelays with
  | delayed phandler id pdata haction htrigger hmsg =>
    obtain ⟨hnonneg, hdue⟩ := h.due e he _ _ _ _ haction
    obtain ⟨hbegin, hend⟩ := h.time e he
    obtain ⟨hbegin', hend'⟩ := h.time e' he'
    have hhalf := h.half
    rw [htrigger, timeAfter_time _ hnonneg] at hripe ⊢
    rw [h.stamp hbegin' hend', h.stamp (by omega) hdue]
    have hover := over_of_not_later hripe
    omega
  | timed phandler id pdata haction hmsg => exact absurd haction (h.timed e he _ _ _ _)

/-- A delayed message is put in by the time when it is due. -/
def Prompt (es : List Event) : Prop := ∀ e ∈ es, ∀ d, e.Pushes d → (Time e.time).toNat ≤ d.msTrigger_.toNat

/-- The clock does not go back. -/
theorem Within.clock_le (h : Within begin length es) {past later : List Event} {e e' : Event}
    (hes : es = past ++ e :: later) (he' : e' ∈ past) : (Time e'.time).toNat ≤ (Time e.time).toNat := by
  have hclock := h.clock
  rw [hes, List.map_append, List.pairwise_append] at hclock
  have hle : e'.time ≤ e.time := hclock.2.2 _ (List.mem_map_of_mem he') _ List.mem_cons_self
  have he : e ∈ es := hes ▸ List.mem_append_right _ List.mem_cons_self
  have hmem : e' ∈ es := hes ▸ List.mem_append_left _ he'
  rw [h.stamp (h.time e he).1 (h.time e he).2, h.stamp (h.time e' hmem).1 (h.time e' hmem).2]
  omega

/-- Within a step, what has been released stands before what is delayed. -/
theorem inTurn_acts {r : Mailbox.Rules Message DelayedMessage} {known : DelayedMessage → Prop} {now num : Nat}
    (hdelays : ∀ d, r.delays d → known d ∧ now ≤ d.msTrigger_.toNat ∧ d.num_.toNat = num)
    (hripe : ∀ d, known d → r.ripe d → d.msTrigger_.toNat ≤ now) (hturn : m.InTurn DelayedMessage.lt)
    (hmem : (∀ d ∈ m.released, d ∈ m.delayed) ∧ ∀ d ∈ m.waiting, d ∈ m.delayed)
    (hreleased : ∀ d ∈ m.released, d.msTrigger_.toNat ≤ now) (hdelayed : ∀ d ∈ m.delayed, known d ∧ d.num_.toNat ≤ num)
    (hacts : Acts r m m') : m'.InTurn DelayedMessage.lt := by
  have hkept := Mailbox.Acts.keeps (I := fun m => m.InTurn DelayedMessage.lt ∧
      ((∀ d ∈ m.released, d ∈ m.delayed) ∧ ∀ d ∈ m.waiting, d ∈ m.delayed) ∧
      m.Justified (fun _ => True) (fun d => known d ∧ d.num_.toNat ≤ num) (fun d => d.msTrigger_.toNat ≤ now))
    (fun m m' ⟨hturn, hmem, hjustified⟩ hact => by
      refine ⟨hturn.act (fun d hd d' hd' => ?_) hact, Mailbox.mem_delayed_act hmem hact,
        hjustified.act (fun _ _ => trivial) (fun d hd => ⟨(hdelays d hd).1, (hdelays d hd).2.2.le⟩)
          (fun d hd => hripe d (hjustified.delayed d (hmem.2 d hd)).1) hact⟩
      obtain ⟨-, htrigger, hnum⟩ := hdelays d hd
      have htrigger' := hjustified.released d' hd'
      have hnum' := (hjustified.delayed d' (hmem.1 d' hd')).2
      rw [DelayedMessage.lt_eq_false_iff]
      exact ⟨by omega, fun _ => by omega⟩) hacts ⟨hturn, hmem, fun _ _ => trivial, hdelayed, hreleased⟩
  exact hkept.1

theorem inTurn_of_run {p : Message → Bool} (hwithin : Within begin length es) (hprompt : Prompt es) (hstays : Stays p es)
    {s : MessageLoop heaps} (hrun : run new es = some s) (hcount : s.delayed.length < 4294967296) :
    ∃ m, s.Refines m ∧ s.Numbered ∧ m.InOrder DelayedMessage.msg_ p ∧ m.Patient DelayedMessage.msg_ p ∧
      m.InTurn DelayedMessage.lt := by
  have hrun := exists_mailbox_of_run (J := fun past (s : MessageLoop heaps) m => Past past s m ∧ s.Numbered ∧
      m.InOrder DelayedMessage.msg_ p ∧ m.Patient DelayedMessage.msg_ p ∧
      (s.delayed.length < 4294967296 → m.InTurn DelayedMessage.lt))
    ⟨past_new, ⟨rfl, rfl⟩, Mailbox.inOrder_empty p, Mailbox.patient_empty p, fun _ => Mailbox.inTurn_empty⟩
    (fun past e later s s' m m' hes ⟨hpast, hnumbered, hinOrder, hpatient, hturn⟩ hm hstep hacts hm' => by
      have he : e ∈ es := hes ▸ List.mem_append_right _ List.mem_cons_self
      refine ⟨hpast.step hstep hacts, hnumbered.step hstep,
        Mailbox.Acts.keeps (fun _ _ => .act (hstays.rules he)) hacts hinOrder,
        Mailbox.Acts.keeps (fun _ _ => .act (hstays.rules he)) hacts hpatient, fun hcount' => ?_⟩
      have hmem {e' : Event} (he' : e' ∈ past) : e' ∈ es := hes ▸ List.mem_append_left _ he'
      have hgrown : m.delayed <+: m'.delayed := Mailbox.Acts.keeps (I := fun m' => m.delayed <+: m'.delayed)
        (fun _ _ h hact => h.trans (Mailbox.prefix_delayed_act hact)) hacts (List.prefix_refl _)
      rw [hm.delayed, hm'.delayed] at hgrown
      have hcount : s.delayed.length < 4294967296 := hgrown.length_le.trans_lt hcount'
      have hnext : s.queue.dmsgq_next_num_.toNat = s.delayed.length := by
        rw [hnumbered.1, UInt32.toNat_ofNat']
        omega
      have hdelays : ∀ d, (s.rules e).delays d → (∃ e ∈ es, e.Delays d) ∧ (Time e.time).toNat ≤ d.msTrigger_.toNat ∧
          d.num_.toNat = s.delayed.length :=
        fun d hd => ⟨(hpast.delays hd).imp fun _ ⟨he', hdelays⟩ => ⟨hmem he', hdelays⟩, hprompt e he d hd.1,
          hd.2.2 ▸ hnext⟩
      have hripe : ∀ d, (∃ e ∈ es, e.Delays d) → (s.rules e).ripe d → d.msTrigger_.toNat ≤ (Time e.time).toNat := by
        rintro d ⟨e₁, he₁, hdelays⟩ ⟨g, hg, hripe⟩
        obtain ⟨e₂, he₂, -, hcurrent⟩ := hpast.reads g hg
        exact (hwithin.ripe he₁ hdelays (hmem he₂) (hcurrent ▸ hripe)).trans (hwithin.clock_le hes he₂)
      refine inTurn_acts hdelays hripe (hturn hcount) hpast.mem (fun d hd => ?_) (fun d hd => ?_) hacts
      · obtain ⟨e₁, he₁, hdelays⟩ := hpast.justified.delayed d (hpast.mem.1 d hd)
        obtain ⟨e₂, he₂, -, hripe⟩ := hpast.justified.released d hd
        exact (hwithin.ripe (hmem he₁) hdelays (hmem he₂) hripe).trans (hwithin.clock_le hes he₂)
      · obtain ⟨e₁, he₁, hdelays⟩ := hpast.justified.delayed d hd
        refine ⟨⟨e₁, hmem he₁, hdelays⟩, ?_⟩
        have hnum : d.num_ ∈ (List.range s.delayed.length).map UInt32.ofNat :=
          hnumbered.2 ▸ List.mem_map_of_mem (hm.delayed ▸ hd)
        obtain ⟨i, hi, hnum⟩ := List.mem_map.mp hnum
        have hi := List.mem_range.mp hi
        rw [← hnum, UInt32.toNat_ofNat']
        omega) hrun
  obtain ⟨m, hm, -, hnumbered, hinOrder, hpatient, hturn⟩ := hrun
  exact ⟨m, hm, hnumbered, hinOrder, hpatient, hturn hcount⟩

/-- The order of the heap is that of the time stamps, and among equal ones that of the posts. -/
theorem eq_insertionSort {order delayed : List DelayedMessage} (hperm : order.Perm delayed)
    (horder : order.Pairwise fun d d' => d.lt d' = false)
    (hnums : delayed.Pairwise fun d d' => d.num_.toNat < d'.num_.toNat) :
    order = delayed.insertionSort fun d d' => d.msTrigger_.toNat ≤ d'.msTrigger_.toNat := by
  have : Std.Total fun d d' : DelayedMessage => d.msTrigger_.toNat ≤ d'.msTrigger_.toNat := ⟨fun _ _ => Nat.le_total _ _⟩
  have : IsTrans DelayedMessage fun d d' => d.msTrigger_.toNat ≤ d'.msTrigger_.toNat := ⟨fun _ _ _ => Nat.le_trans⟩
  have hsorted : (delayed.insertionSort fun d d' => d.msTrigger_.toNat ≤ d'.msTrigger_.toNat).Pairwise
      fun d d' => d.lt d' = false := by
    refine (RankSort.pairwise_stable hnums).imp fun {d d'} ⟨hle, hnum⟩ => ?_
    rw [DelayedMessage.lt_eq_false_iff]
    exact ⟨hle, fun heq => (hnum (heq ▸ Nat.le_refl _)).le⟩
  have hsame : ∀ d ∈ delayed, ∀ d' ∈ delayed, d.num_ = d'.num_ → d = d' := by
    have hinj : (delayed.map DelayedMessage.num_).Nodup :=
      List.pairwise_map.mpr (hnums.imp fun hlt heq => absurd (congrArg UInt32.toNat heq) hlt.ne)
    exact fun d hd d' hd' heq => List.inj_on_of_nodup_map hinj hd hd' heq
  have hperm' := hperm.trans (List.perm_insertionSort (fun d d' => d.msTrigger_.toNat ≤ d'.msTrigger_.toNat) delayed).symm
  refine hperm'.eq_of_pairwise (fun d d' hd hd' h h' => ?_) horder hsorted
  rw [DelayedMessage.lt_eq_false_iff] at h h'
  have htrigger : d'.msTrigger_ = d.msTrigger_ := UInt32.toNat_inj.mp (Nat.le_antisymm h'.1 h.1)
  have hnum : d.num_ = d'.num_ := UInt32.toNat_inj.mp (Nat.le_antisymm (h.2 htrigger) (h'.2 htrigger.symm))
  exact hsame d (hperm.mem_iff.mp hd) d' ((List.perm_insertionSort _ _).mem_iff.mp hd') hnum

/-- Delayed messages of a kind that is only posted with delays come out in the order in which they are due, and those
    that are due at the same time in the order in which they were posted. -/
theorem dueOrder_of_run {p : Message → Bool} (hwithin : Within begin length es) (hprompt : Prompt es) (hstays : Stays p es)
    {s : MessageLoop heaps} (hrun : run new es = some s) (hposted : ∀ a ∈ s.posted, ¬ p a)
    (hcount : s.delayed.length < 4294967296) :
    (s.got ++ s.control.hand ++ s.front ++ s.queue.msgq_).filter p <+:
      ((s.delayed.filter fun d => p d.msg_).insertionSort fun d d' => d.msTrigger_.toNat ≤ d'.msTrigger_.toNat).map
        DelayedMessage.msg_ := by
  obtain ⟨m, hm, hnumbered, hinOrder, hpatient, hturn⟩ := inTurn_of_run hwithin hprompt hstays hrun hcount
  obtain ⟨order, hperm, horder, hprefix⟩ := Mailbox.exists_order DelayedMessage.lt_total DelayedMessage.lt_trans hinOrder
    hpatient hturn (hm.posted ▸ hposted)
  rw [hm.delayed] at hperm
  rw [hm.line_eq] at hprefix
  have hnums := (hnumbered.pairwise hcount.le).sublist (List.filter_sublist (p := fun d => p d.msg_))
  rwa [eq_insertionSort hperm horder hnums] at hprefix

def delayPosting (cmsDelay : Int32) (tstamp : UInt32) (data : Nat) : Posting :=
  .doDelayPost cmsDelay tstamp (some 2) 8 (some data)

/-- The one that is put in second is due first. -/
def threeDelayed : List Event :=
  [⟨1000, .postDelayed 50 (some 2) 8 (some 3)⟩, ⟨1000, .postDelayed 20 (some 2) 8 (some 2)⟩,
    ⟨1000, .postDelayed 50 (some 2) 8 (some 1)⟩, ⟨1000, .test (delayPosting 50 1050 1)⟩,
    ⟨1000, .test (delayPosting 20 1020 2)⟩, ⟨1000, .test (delayPosting 50 1050 3)⟩, ⟨1000, .push (delayPosting 50 1050 1)⟩,
    ⟨1005, .push (delayPosting 20 1020 2)⟩, ⟨1010, .push (delayPosting 50 1050 3)⟩, ⟨1100, .get kForever⟩, ⟨1100, .check⟩,
    ⟨1101, .leave⟩, ⟨1101, .get kForever⟩, ⟨1101, .check⟩]

theorem isSome_threeDelayed : ((new : MessageLoop sortedHeaps).run threeDelayed).isSome := by decide

def afterThreeDelayed : MessageLoop sortedHeaps :=
  ((new : MessageLoop sortedHeaps).run threeDelayed).get isSome_threeDelayed

theorem run_threeDelayed : (new : MessageLoop sortedHeaps).run threeDelayed = some afterThreeDelayed :=
  (Option.some_get isSome_threeDelayed).symm

theorem within_threeDelayed : Within 1000 1000 threeDelayed where
  half := by decide
  unwrapped := by decide
  clock := by decide
  time := by decide
  due := by
    simp only [threeDelayed, List.forall_mem_cons, Action.postDelayed.injEq, reduceCtorEq, false_implies, implies_true,
      and_imp, and_true, List.not_mem_nil]
    refine ⟨?_, ?_, ?_⟩ <;>
    · rintro _ _ _ _ rfl - - -
      decide
  timed := by simp [threeDelayed]

theorem prompt_threeDelayed : Prompt threeDelayed := by
  simp only [Prompt, Event.Pushes, threeDelayed, delayPosting, List.forall_mem_cons, Action.push.injEq, reduceCtorEq,
    Posting.doDelayPost.injEq, false_and, exists_false, false_implies, implies_true, true_and, List.not_mem_nil, and_true]
  refine ⟨?_, ?_, ?_⟩ <;>
  · rintro d ⟨_, _, _, ⟨-, htrigger, -⟩, -⟩
    rw [← htrigger]
    decide

theorem dueOrder_threeDelayed :
    (afterThreeDelayed.got ++ afterThreeDelayed.control.hand ++ afterThreeDelayed.front ++
        afterThreeDelayed.queue.msgq_).filter (·.message_id = 8) <+:
      ((afterThreeDelayed.delayed.filter fun d => d.msg_.message_id = 8).insertionSort
        fun d d' => d.msTrigger_.toNat ≤ d'.msTrigger_.toNat).map DelayedMessage.msg_ := by
  refine dueOrder_of_run within_threeDelayed prompt_threeDelayed ⟨fun a ha hid => ?_, ?_⟩ run_threeDelayed (by decide)
    (by decide)
  · have h : (8 : UInt32) = MQID_DISPOSE := (of_decide_eq_true ha).symm.trans hid
    exact absurd h (by decide)
  · simp [threeDelayed, Event.Clears]

/-! ### Nobody oversleeps -/

/-- What is later is still to come. -/
theorem Within.later (h : Within begin length es) {e e' : Event} {d : DelayedMessage} (he : e ∈ es) (hdelays : e.Delays d)
    (he' : e' ∈ es) (hlater : TimeIsLater (Time e'.time) d.msTrigger_) :
    (Time e'.time).toNat < d.msTrigger_.toNat ∧
      (TimeDiff d.msTrigger_ (Time e'.time)).toInt = d.msTrigger_.toNat - (Time e'.time).toNat := by
  cases hdelays with
  | delayed phandler id pdata haction htrigger hmsg =>
    obtain ⟨hnonneg, hdue⟩ := h.due e he _ _ _ _ haction
    obtain ⟨hbegin, hend⟩ := h.time e he
    obtain ⟨hbegin', hend'⟩ := h.time e' he'
    have hhalf := h.half
    have htell := timeStamps_tell (s := e'.time) (t := e.time + d.cmsDelay_.toInt.toNat) (by omega) (by omega)
    rw [htrigger, timeAfter_time _ hnonneg] at hlater ⊢
    have hlt := htell.1.mp hlater
    rw [htell.2.2, h.stamp hbegin' hend', h.stamp (by omega) hdue]
    omega
  | timed phandler id pdata haction hmsg => exact absurd haction (h.timed e he _ _ _ _)

theorem toInt_kForever : kForever.toInt = -1 := rfl

theorem toInt_max_zero (a : Int32) : 0 ≤ (max 0 a).toInt := by
  have h : (0 : Int32) ≤ max 0 a := by
    change (0 : Int32) ≤ if 0 ≤ a then a else 0
    split
    · assumption
    · exact Int32.le_refl 0
  rwa [Int32.le_iff_toInt_le, toInt_zero] at h

/-- The wait that is asked for may be the shorter one. -/
theorem cmsNext_le (g : Getting) {cmsDelayNext : Int32} (hpositive : 0 < cmsDelayNext.toInt) :
    g.cmsNext cmsDelayNext ≠ kForever ∧ (g.cmsNext cmsDelayNext).toInt ≤ cmsDelayNext.toInt := by
  have hnever {a : Int32} (ha : 0 ≤ a.toInt) : a ≠ kForever := by
    rintro rfl
    rw [toInt_kForever] at ha
    omega
  have hasked := toInt_max_zero (g.cmsWait - g.cmsElapsed)
  unfold Getting.cmsNext
  split
  · exact ⟨hnever hpositive.le, Int.le_refl _⟩
  · dsimp only
    split
    · exact ⟨hnever hpositive.le, Int.le_refl _⟩
    · rename_i hshorter
      rw [not_and, Int32.lt_iff_toInt_lt, Int.not_lt] at hshorter
      exact ⟨hnever hasked, hshorter (hnever hpositive.le)⟩

/-- What is left in the heap has been delayed at some time. -/
theorem exists_delays (hrun : run new es = some s) {d : DelayedMessage} (hd : d ∈ s.queue.dmsgq_.container) :
    ∃ e ∈ es, e.Delays d := by
  obtain ⟨m, hm, hpast⟩ := past_of_run hrun
  have hwaiting : d ∈ m.waiting := by
    rw [hm.waiting]
    exact hd
  exact hpast.justified.delayed d (hpast.mem.2 d hwaiting)

/-- Whenever `Get` goes to wait, nothing that it has left in the heap is due, and it does not wait longer than until the
    first message is. -/
theorem punctual_of_run (hwithin : Within begin length es) {s : MessageLoop heaps} (hrun : run new es = some s)
    {g g' : Getting} {cmsDelayNext : Int32} (hcontrol : s.control = .checking g)
    (hchecked : (s.check g).control = .checked g' cmsDelayNext) {d : DelayedMessage}
    (hd : d ∈ (s.check g).queue.dmsgq_.container) :
    g.msCurrent.toNat < d.msTrigger_.toNat ∧ g'.cmsNext cmsDelayNext ≠ kForever ∧
      g.msCurrent.toNat + (g'.cmsNext cmsDelayNext).toInt ≤ d.msTrigger_.toNat := by
  obtain ⟨m, hm, hpast⟩ := past_of_run hrun
  obtain ⟨e', he', -, hcurrent⟩ := hpast.reads g hcontrol
  rw [check_eq] at hchecked hd
  cases hmsgq : (s.opened g.msCurrent).queue.msgq_ with
  | cons a rest =>
    rw [hmsgq] at hchecked
    cases hchecked
  | nil =>
    rw [hmsgq] at hchecked hd
    obtain ⟨rfl, rfl⟩ := Control.checked.inj hchecked
    have hperm := PriorityQueue.perm_popWhile (fun d => !TimeIsLater g.msCurrent d.msTrigger_) s.queue.dmsgq_
    obtain ⟨-, hstop⟩ := PriorityQueue.popWhile_spec (fun d => !TimeIsLater g.msCurrent d.msTrigger_) s.queue.dmsgq_
    have hd : d ∈ (s.queue.dmsgq_.popWhile fun d => !TimeIsLater g.msCurrent d.msTrigger_).2.container := hd
    cases htop : (s.queue.dmsgq_.popWhile fun d => !TimeIsLater g.msCurrent d.msTrigger_).2.top with
    | none => exact absurd hd (PriorityQueue.top_eq_none.mp htop ▸ List.not_mem_nil)
    | some t =>
      have ht : t ∈ s.queue.dmsgq_.container :=
        hperm.subset (List.mem_append_right _ (PriorityQueue.mem_of_top htop))
      obtain ⟨e, he, hdelays⟩ := exists_delays hrun ht
      have hlater : TimeIsLater (Time e'.time) t.msTrigger_ :=
        hcurrent ▸ Bool.not_eq_false' _ ▸ hstop t htop
      have hfirst : t.msTrigger_.toNat ≤ d.msTrigger_.toNat := by
        rcases PriorityQueue.top_first htop hd with rfl | hlt
        · exact Nat.le_refl _
        · exact (DelayedMessage.lt_eq_false_iff.mp hlt).1
      have hnext : (s.queue.check g.msCurrent).cmsDelayNext = TimeDiff t.msTrigger_ g.msCurrent := by
        unfold MessageQueue.check
        dsimp only
        rw [htop]
      obtain ⟨hlt, hdiff⟩ := hwithin.later he hdelays he' hlater
      rw [← hcurrent] at hlt hdiff
      rw [← hnext] at hdiff
      have hpositive : 0 < (s.queue.check g.msCurrent).cmsDelayNext.toInt := by omega
      obtain ⟨hnever, hle⟩ := cmsNext_le g hpositive
      exact ⟨by omega, hnever, by omega⟩

def ninth : Posting := .doDelayPost 70 1070 (some 2) 9 none

/-- `Peek` is about to find that nothing is due. -/
def peeking : List Event :=
  [⟨1000, .postDelayed 50 (some 2) 8 none⟩, ⟨1000, .postDelayed 70 (some 2) 9 none⟩, ⟨1000, .test eight⟩,
    ⟨1000, .test ninth⟩, ⟨1000, .push eight⟩, ⟨1001, .push ninth⟩, ⟨1002, .peek 100⟩]

theorem isSome_peeking : ((new : MessageLoop sortedHeaps).run peeking).isSome := by decide

def afterPeeking : MessageLoop sortedHeaps := ((new : MessageLoop sortedHeaps).run peeking).get isSome_peeking

theorem within_peeking : Within 1000 1000 peeking where
  half := by decide
  unwrapped := by decide
  clock := by decide
  time := by decide
  due := by
    simp only [peeking, List.forall_mem_cons, Action.postDelayed.injEq, reduceCtorEq, false_implies, implies_true,
      and_imp, and_true, List.not_mem_nil]
    refine ⟨?_, ?_⟩ <;>
    · rintro _ _ _ _ rfl - - -
      decide
  timed := by simp [peeking]

theorem punctual_peeking :
    (1002 : UInt32).toNat < (1070 : UInt32).toNat ∧ (Getting.mk true 100 0 1002 1002).cmsNext 48 ≠ kForever ∧
      (1002 : UInt32).toNat + ((Getting.mk true 100 0 1002 1002).cmsNext 48).toInt ≤ (1070 : UInt32).toNat :=
  punctual_of_run (s := afterPeeking) (g := ⟨true, 100, 0, 1002, 1002⟩) (d := ⟨70, 1070, 1, ⟨some 2, 9, none, 0⟩⟩)
    within_peeking (Option.some_get isSome_peeking).symm (by decide) (by decide) (by decide)

end MessageLoop

end ProbICE.TalkBase
