import Mathlib.Data.List.Perm.Basic
import ProbICE.Theorems.Bounds
import ProbICE.Theorems.Proxies
import ProbICE.Theorems.Startup
import ProbICE.Theorems.Transitions

/-! # What the prober posts to itself

The session is made once, a login of the other side posts one `MSG_DO_INITIATE`, and a session that takes an initiate
message for the content of the prober posts one `MSG_DO_ACCEPT`. Everything but the dispatch of these messages leaves
them, and the subscriptions of the target channel, as they are. -/

namespace ProbICE

namespace TransportProxy
variable [Host]

/-- A negotiated proxy stays negotiated until it is connected before the negotiation. -/
theorem negotiated_operation {p p' : TransportProxy} (h : p.state = .negotiated) (hop : Operation False p p') :
    p'.state = .negotiated := by
  cases hop with
  | createChannel name => exact (p.stays_CreateChannel name).1.trans h
  | connect hno => exact hno.elim
  | complete => exact p.state_CompleteNegotiation
  | _ => exact h

end TransportProxy

/-! ### Sessions -/

/-- How many of the effects post `MSG_DO_ACCEPT`. -/
def accepts (own : CString) (es : List SessionEffect) : Nat := (es.filterMap (IceProber.taskOf own)).count .doAccept

theorem accepts_append (own : CString) (es es' : List SessionEffect) :
    accepts own (es ++ es') = accepts own es + accepts own es' := by
  rw [accepts, List.filterMap_append, List.count_append, accepts, accepts]

theorem taskOf_eq_doAccept {own : CString} {e : SessionEffect} (h : IceProber.taskOf own e = some .doAccept) :
    e = .stateChanged .receivedInitiate own := by
  cases e with
  | stateChanged state name =>
    cases state with
    | receivedInitiate =>
      obtain ⟨rfl, -⟩ := Option.ite_none_right_eq_some.mp h
      rfl
    | _ => cases h
  | _ => cases h

theorem accepts_eq_zero {own : CString} {es : List SessionEffect} (h : .stateChanged .receivedInitiate own ∉ es) :
    accepts own es = 0 := by
  refine List.count_eq_zero.mpr fun hmem => h ?_
  obtain ⟨e, he, htask⟩ := List.mem_filterMap.mp hmem
  exact taskOf_eq_doAccept htask ▸ he

section
variable [Host]

namespace PPSession

/-- Only signals of the session post `MSG_DO_ACCEPT`. -/
theorem accepts_signals (own : CString) (s : PPSession) : accepts own s.signals = accepts own s.out := by
  have hone : ∀ e : SessionEffect, e.isSignal = false → accepts own [e] = 0 := by
    intro e he
    refine accepts_eq_zero fun hmem => ?_
    obtain rfl := List.mem_singleton.mp hmem
    cases he
  rw [signals]
  induction s.out with
  | nil => rfl
  | cons e es ih =>
    rw [List.filter_cons, ← List.singleton_append (l := es), accepts_append, ← ih]
    split
    · rw [← List.singleton_append, accepts_append]
    · rename_i he
      rw [hone e (Bool.not_eq_true _ ▸ he), Nat.zero_add]

/-- The way of a session while it is neither initiating nor accepting: it stays where it is, takes an initiate message,
    or goes on from an answer. `offer` is the content that is offered to it. -/
inductive Way (own : CString) (offer : Option CString) (posted : Nat) (s t : PPSession) : Prop where
  | stays (hstate : t.state = s.state) (hname : t.content_name = s.content_name) (hposted : posted = 0)
    (hoffer : s.state = .init → offer = none)
  | takes (hinit : s.state = .init) (hstate : t.state = .receivedInitiate) (hoffer : offer = some t.content_name)
    (hposted : posted = if t.content_name = own then 1 else 0)
  | goesOn (hbefore : s.state ≠ .init ∧ s.state ≠ .receivedInitiate) (hafter : t.state ≠ .init ∧ t.state ≠ .receivedInitiate)
    (hname : t.content_name = s.content_name) (hposted : posted = 0)

/-- What a function other than `Initiate` and `Accept` does to a session, when `posted` messages `MSG_DO_ACCEPT` follow
    from it. -/
structure Proceeds (own : CString) (offer : Option CString) (posted : Nat) (s t : PPSession) : Prop where
  way : Way own offer posted s t
  operates : s.Operates False t
  /-- A content that is taken is negotiated. -/
  negotiated : s.state = .init → t.state = .receivedInitiate →
    ∃ p, t.transports[t.content_name]? = some p ∧ p.state = .negotiated

section proceeds
variable {own : CString} {offer : Option CString} {posted : Nat} {s t : PPSession}

theorem proceeds_of_same (hstate : t.state = s.state) (hname : t.content_name = s.content_name)
    (hoperates : s.Operates False t) (hoffer : s.state = .init → offer = none) : Proceeds own offer 0 s t where
  way := .stays hstate hname rfl hoffer
  operates := hoperates
  negotiated hinit hreceived := by
    rw [hstate, hinit] at hreceived
    cases hreceived

theorem Proceeds.trans {offer' : Option CString} {posted' : Nat} {u : PPSession} (h : Proceeds own offer posted s t)
    (h' : Proceeds own offer' posted' t u) : Proceeds own (offer.or offer') (posted + posted') s u where
  way := by
    obtain ⟨hstate, hname, rfl, hoffer⟩ | ⟨hinit, hstate, rfl, hposted⟩ | ⟨hbefore, hafter, hname, rfl⟩ := h.way
    · obtain ⟨hstate', hname', rfl, hoffer'⟩ | ⟨hinit', hstate', rfl, hposted'⟩ | ⟨hbefore', hafter', hname', rfl⟩ := h'.way
      · refine .stays (hstate'.trans hstate) (hname'.trans hname) rfl fun hinit => ?_
        rw [hoffer hinit, hoffer' (hstate.trans hinit), Option.or_none]
      · have hinit := hstate.symm.trans hinit'
        exact .takes hinit hstate' (by rw [hoffer hinit, Option.none_or]) (by rw [Nat.zero_add, hposted'])
      · exact .goesOn (hstate ▸ hbefore') hafter' (hname'.trans hname) rfl
    · obtain ⟨hstate', hname', rfl, -⟩ | ⟨hinit', -, -, -⟩ | ⟨hbefore', -, -, -⟩ := h'.way
      · exact .takes hinit (hstate'.trans hstate) (by rw [hname', Option.some_or]) (by rw [hname', Nat.add_zero, hposted])
      · rw [hstate] at hinit'
        cases hinit'
      · exact absurd hstate hbefore'.2
    · obtain ⟨hstate', hname', rfl, -⟩ | ⟨hinit', -, -, -⟩ | ⟨-, hafter', hname', rfl⟩ := h'.way
      · exact .goesOn hbefore (hstate' ▸ hafter) (hname'.trans hname) rfl
      · exact absurd hinit' hafter.1
      · exact .goesOn hbefore hafter' (hname'.trans hname) rfl
  operates := h.operates.trans h'.operates
  negotiated hinit hreceived := by
    obtain ⟨hstate', hname', -, -⟩ | ⟨hinit', -, -, -⟩ | ⟨-, hafter', -, -⟩ := h'.way
    · obtain ⟨p, hp, hnegotiated⟩ := h.negotiated hinit (hstate'.symm.trans hreceived)
      obtain ⟨p', hp', hlives⟩ := h'.operates.kept _ p hp
      rw [hname']
      exact ⟨p', hp', TransportProxy.Lives.keeps (fun _ _ => TransportProxy.negotiated_operation) hlives hnegotiated⟩
    · exact h'.negotiated hinit' hreceived
    · exact absurd hreceived hafter'.2

/-- The state does not change, so nothing is posted. -/
theorem Unmoved.proceeds (h : s.Unmoved t) (hout : s.out = []) (hoperates : s.Operates False t)
    (hoffer : s.state = .init → offer = none) : Proceeds own offer (accepts own t.out) s t := by
  obtain ⟨es, hes, hall⟩ := h.out
  have hnone : accepts own t.out = 0 := by
    refine accepts_eq_zero fun hmem => ?_
    rw [hes, hout, List.nil_append] at hmem
    simpa [SessionEffect.isChange] using hall _ hmem
  rw [hnone]
  exact proceeds_of_same h.state h.content_name hoperates hoffer

/-- A change from one answer to another. -/
theorem proceeds_of_answer (hbefore : s.state ≠ .init ∧ s.state ≠ .receivedInitiate)
    (hafter : t.state ≠ .init ∧ t.state ≠ .receivedInitiate) (hname : t.content_name = s.content_name)
    (hoperates : s.Operates False t) (hposted : accepts own t.out = 0) : Proceeds own offer (accepts own t.out) s t where
  way := .goesOn hbefore hafter hname hposted
  operates := hoperates
  negotiated hinit := absurd hinit hbefore.1

end proceeds

/-- The content that a message offers to a session. -/
def offerOf (msg : PPMessage) : Option CString := if msg.type = .sessionInitiate then msg.argvs.head? else none

section functions
variable {own : CString} {s : PPSession} (hout : s.out = [])
include hout

theorem proceeds_OnIncomingMessage {msg : PPMessage}
    (htype : msg.type = .sessionInitiate ∨ msg.type = .sessionAccept ∨ msg.type = .transportInfo) :
    Proceeds own (offerOf msg) (accepts own (s.OnIncomingMessage id msg).out) s (s.OnIncomingMessage id msg) := by
  have hreport : ∀ r : PPSession × Bool, Proceeds own (offerOf msg) (accepts own r.1.out) s r.1 →
      Proceeds own (offerOf msg) (accepts own (if r.2 then r.1 else r.1.emit (.errorMessage msg)).out) s
        (if r.2 then r.1 else r.1.emit (.errorMessage msg)) := by
    intro r hr
    split
    · exact hr
    · have herror : accepts own [.errorMessage msg] = 0 := rfl
      have hreported : Proceeds own none 0 r.1 (r.1.emit (.errorMessage msg)) :=
        proceeds_of_same rfl rfl (operates_of_same rfl) fun _ => rfl
      have hemit := hr.trans hreported
      rwa [Option.or_none, Nat.add_zero, ← Nat.add_zero (accepts own r.1.out), ← herror, ← accepts_append] at hemit
  rw [OnIncomingMessage_eq]
  refine hreport _ ?_
  obtain ⟨type, argvs⟩ := msg
  dsimp only at htype
  rcases htype with rfl | rfl | rfl
  · have hhandled : s.handled { type := .sessionInitiate, argvs } = s.OnInitiateMessage id { type := .sessionInitiate, argvs } :=
      rfl
    have hoperates : s.Operates False (s.OnInitiateMessage id { type := .sessionInitiate, argvs }).1 :=
      s.operates_OnInitiateMessage listener_id.answers _
    rw [hhandled]
    by_cases hinit : s.state = .init
    · rcases argvs with _ | ⟨content, rest⟩
      · have hshort : s.OnInitiateMessage id { type := .sessionInitiate, argvs := [] } = (s.emit .outOfRange, true) :=
          s.OnInitiateMessage_short hinit rfl
        rw [hshort]
        exact (s.unmoved_emit rfl).proceeds hout (operates_of_same rfl) fun _ => rfl
      · have hargvs : ({ type := .sessionInitiate, argvs := content :: rest } : PPMessage).argvs = content :: rest := rfl
        obtain ⟨-, hstate, hname, -, -, hsignals, htransports⟩ := s.OnInitiateMessage_init hinit hargvs
        refine ⟨.takes hinit hstate (by rw [hname]; rfl) ?_, hoperates, fun _ _ => ?_⟩
        · rw [← accepts_signals, hsignals, accepts_append, accepts_signals, hout, hname]
          simp only [accepts, IceProber.taskOf, List.filterMap_nil, List.count_nil, Nat.zero_add]
          by_cases hown : content = own
          · simp [hown, IceProber.taskOf]
          · simp [hown, IceProber.taskOf]
        · rw [hname, htransports, if_pos rfl]
          refine ⟨_, rfl, ?_⟩
          unfold takeCandidates
          dsimp only
          split
          · exact TransportProxy.state_CompleteNegotiation _
          · exact TransportProxy.state_CompleteNegotiation _
    · rw [s.OnInitiateMessage_refused hinit]
      exact (s.unmoved_emit rfl).proceeds hout (operates_of_same rfl) fun h => absurd h hinit
  · have hhandled : s.handled { type := .sessionAccept, argvs } = s.OnAcceptMessage id { type := .sessionAccept, argvs } := rfl
    have hoperates : s.Operates False (s.OnAcceptMessage id { type := .sessionAccept, argvs }).1 :=
      s.operates_OnAcceptMessage listener_id.answers _
    rw [hhandled]
    by_cases hsent : s.state = .sentInitiate
    · rcases argvs with _ | ⟨content, rest⟩
      · have hshort : s.OnAcceptMessage id { type := .sessionAccept, argvs := [] } = (s.emit .outOfRange, true) :=
          s.OnAcceptMessage_short hsent rfl
        rw [hshort]
        exact (s.unmoved_emit rfl).proceeds hout (operates_of_same rfl) fun _ => rfl
      · have hargvs : ({ type := .sessionAccept, argvs := content :: rest } : PPMessage).argvs = content :: rest := rfl
        obtain ⟨-, hstate, hname, -, -, hsignals, -⟩ := s.OnAcceptMessage_sentInitiate hsent hargvs
        refine proceeds_of_answer (by simp [hsent]) (by simp [hstate]) hname hoperates ?_
        rw [← accepts_signals, hsignals]
        refine accepts_eq_zero fun hmem => ?_
        simp [signals, hout] at hmem
    · rw [s.OnAcceptMessage_refused hsent]
      exact (s.unmoved_emit rfl).proceeds hout (operates_of_same rfl) fun _ => rfl
  · exact (s.unmoved_OnTransportInfoMessage _).proceeds hout (s.operates_OnTransportInfoMessage _) fun _ => rfl

theorem proceeds_OnStateMessage :
    Proceeds own none (accepts own (s.OnStateMessage id).out) s (s.OnStateMessage id) := by
  have hoperates : s.Operates False (s.OnStateMessage id) := s.operates_OnStateMessage listener_id.answers
  by_cases hstate : s.state = .sentAccept ∨ s.state = .receivedAccept
  · have hrun : s.OnStateMessage id = s.SetState id .inProgress := by
      rcases hstate with hstate | hstate
      · simp [OnStateMessage, hstate]
      · simp [OnStateMessage, hstate]
    have hne : SessionState.inProgress ≠ s.state := by
      rcases hstate with hstate | hstate
      · simp [hstate]
      · simp [hstate]
    rw [hrun] at hoperates ⊢
    obtain ⟨hafter, -, hname, -, -⟩ := s.SetState_frame .inProgress
    refine proceeds_of_answer ?_ (by simp [hafter]) hname hoperates ?_
    · rcases hstate with hstate | hstate
      · simp [hstate]
      · simp [hstate]
    · rw [SetState_ne s hne, hout]
      exact accepts_eq_zero (by simp [stateSignals])
  · have hsame : s.OnStateMessage id = s := by
      rw [not_or] at hstate
      unfold OnStateMessage
      split
      · rename_i h
        exact absurd h hstate.1
      · rename_i h
        exact absurd h hstate.2
      · rfl
    rw [hsame]
    exact (Unmoved.refl s).proceeds hout (.refl False s) fun _ => rfl

end functions

end PPSession

/-! ### The prober -/

/-- The output belongs to the subscription of the target channel. -/
def Output.isSubscription : Output → Bool
  | connectTarget | startMonitor => true
  | _ => false

namespace IceProber

def subscriptions (p : IceProber) : List Output := p.log.filter Output.isSubscription

theorem subscriptions_record (p : IceProber) {o : Output} (h : o.isSubscription = false) :
    (p.record o).subscriptions = p.subscriptions := by
  simp [subscriptions, record, h]

theorem subscriptions_foldl {α : Type} {f : IceProber → α → IceProber}
    (hf : ∀ (p : IceProber) a, (f p a).subscriptions = p.subscriptions) (as : List α) (p : IceProber) :
    (as.foldl f p).subscriptions = p.subscriptions := by
  induction as generalizing p with
  | nil => rfl
  | cons a as ih => exact (ih (f p a)).trans (hf p a)

theorem subscriptions_onSessionEffect (p : IceProber) (e : SessionEffect) :
    (p.onSessionEffect e).subscriptions = p.subscriptions := by
  have hpeer : ∀ (p : IceProber) (sig : Signal), (p.onPeerOutput sig).subscriptions = p.subscriptions := by
    intro p sig
    cases sig with
    | printString msg => exact p.subscriptions_record rfl
    | nullSocket => exact p.subscriptions_record rfl
    | _ => rfl
  cases e with
  | outgoingMessage msg =>
    rw [onSessionEffect, onOutgoingMessage]
    cases msgType msg.type with
    | none => rfl
    | some word => exact subscriptions_foldl hpeer _ _
  | stateChanged state k =>
    cases state with
    | receivedInitiate =>
      rw [onSessionEffect, onStateChanged]
      split <;> rfl
    | inProgress => exact p.subscriptions_record rfl
    | _ => rfl
  | requestSignaling =>
    rw [onSessionEffect, onSignalRequest]
    cases p.session with
    | none => exact p.subscriptions_record rfl
    | some session => rfl
  | timeout => exact (subscriptions_record _ rfl).trans (p.subscriptions_record rfl)
  | assertFailed a => exact p.subscriptions_record rfl
  | outOfRange => exact p.subscriptions_record rfl
  | _ => rfl

theorem subscriptions_afterSession (p : IceProber) (session : PPSession) :
    (p.afterSession session).subscriptions = p.subscriptions :=
  subscriptions_foldl subscriptions_onSessionEffect session.out _

/-- The content that some signals offer to a session in `init`: the first one counts. -/
def firstOffer : List Signal → Option CString
  | [] => none
  | sig :: sigs => ((incoming sig).bind PPSession.offerOf).or (firstOffer sigs)

omit [Host] in
theorem firstOffer_none {sigs : List Signal} (h : ∀ sig ∈ sigs, incoming sig = none) : firstOffer sigs = none := by
  induction sigs with
  | nil => rfl
  | cons sig sigs ih =>
    rw [firstOffer, h sig List.mem_cons_self, ih fun x hx => h x (List.mem_cons_of_mem _ hx)]
    rfl

/-- What everything does but the dispatch of `MSG_CREATE_SESSION`, `MSG_DO_INITIATE` and `MSG_DO_ACCEPT`. -/
structure Works (offer : Option CString) (p q : IceProber) : Prop where
  content_name : q.content_name = p.content_name
  channel_name : q.channel_name = p.channel_name
  subscriptions : q.subscriptions = p.subscriptions
  creates : q.tasks.count .createSession = p.tasks.count .createSession
  initiates : q.tasks.count .doInitiate + p.remote_online.toNat = p.tasks.count .doInitiate + q.remote_online.toNat
  session : p.Settled → q.Settled ∧
    ((p.session = none ∧ q.session = none ∧ q.tasks.count .doAccept = p.tasks.count .doAccept) ∨
      ∃ s t posted, p.session = some s ∧ q.session = some t ∧
        q.tasks.count .doAccept = p.tasks.count .doAccept + posted ∧
        PPSession.Proceeds p.content_name offer posted s t)

section works
variable {offer offer' : Option CString} {p q r : IceProber}

theorem session_of_same (hsession : q.session = p.session) (haccepts : q.tasks.count .doAccept = p.tasks.count .doAccept)
    (hsettled : p.Settled) : q.Settled ∧
      ((p.session = none ∧ q.session = none ∧ q.tasks.count .doAccept = p.tasks.count .doAccept) ∨
        ∃ s t posted, p.session = some s ∧ q.session = some t ∧
          q.tasks.count .doAccept = p.tasks.count .doAccept + posted ∧ PPSession.Proceeds p.content_name none posted s t) := by
  refine ⟨fun s hs => hsettled s (hsession ▸ hs), ?_⟩
  rcases hs : p.session with _ | s
  · exact .inl ⟨rfl, hsession.trans hs, haccepts⟩
  · refine .inr ⟨s, s, 0, rfl, hsession.trans hs, haccepts, ?_⟩
    exact PPSession.proceeds_of_same rfl rfl (.refl False s) fun _ => rfl

/-- A step that touches neither `session_` nor the messages of the signaling thread. -/
theorem works_of_same (hcontent : q.content_name = p.content_name) (hchannel : q.channel_name = p.channel_name)
    (hsubscriptions : q.subscriptions = p.subscriptions) (htasks : q.tasks = p.tasks)
    (honline : q.remote_online = p.remote_online) (hsession : q.session = p.session) : Works none p q where
  content_name := hcontent
  channel_name := hchannel
  subscriptions := hsubscriptions
  creates := by rw [htasks]
  initiates := by rw [htasks, honline]
  session := session_of_same hsession (by rw [htasks])

theorem Works.refl (p : IceProber) : Works none p p := works_of_same rfl rfl rfl rfl rfl rfl

theorem works_record (p : IceProber) {o : Output} (h : o.isSubscription = false) : Works none p (p.record o) :=
  works_of_same rfl rfl (p.subscriptions_record h) rfl rfl rfl

theorem Works.trans (h : Works offer p q) (h' : Works offer' q r) : Works (offer.or offer') p r where
  content_name := h'.content_name.trans h.content_name
  channel_name := h'.channel_name.trans h.channel_name
  subscriptions := h'.subscriptions.trans h.subscriptions
  creates := h'.creates.trans h.creates
  initiates := by
    have := h.initiates
    have := h'.initiates
    omega
  session hsettled := by
    obtain ⟨hsettled', hfirst⟩ := h.session hsettled
    obtain ⟨hsettled'', hsecond⟩ := h'.session hsettled'
    refine ⟨hsettled'', ?_⟩
    obtain ⟨hp, hq, hcount⟩ | ⟨s, t, posted, hp, hq, hcount, hproceeds⟩ := hfirst
    · obtain ⟨-, hr, hcount'⟩ | ⟨s, -, -, hq', -⟩ := hsecond
      · exact .inl ⟨hp, hr, hcount'.trans hcount⟩
      · rw [hq] at hq'
        cases hq'
    · obtain ⟨hq', -, -⟩ | ⟨t', u, posted', hq', hr, hcount', hproceeds'⟩ := hsecond
      · rw [hq] at hq'
        cases hq'
      · obtain rfl := Option.some.inj (hq.symm.trans hq')
        rw [h.content_name] at hproceeds'
        refine .inr ⟨s, u, posted + posted', hp, hr, ?_, hproceeds.trans hproceeds'⟩
        rw [hcount', hcount, Nat.add_assoc]

theorem Works.before (h : Works none p q) (h' : Works offer q r) : Works offer p r :=
  Option.none_or (o := offer) ▸ h.trans h'

theorem Works.after (h : Works offer p q) (h' : Works none q r) : Works offer p r :=
  Option.or_none (o := offer) ▸ h.trans h'

end works

omit [Host] in
theorem count_taskOf {own : CString} {es : List SessionEffect} {task : Task} (h : task = .createSession ∨ task = .doInitiate) :
    (es.filterMap (taskOf own)).count task = 0 := by
  refine List.count_eq_zero.mpr fun hmem => ?_
  obtain ⟨e, -, he⟩ := List.mem_filterMap.mp hmem
  cases e with
  | stateChanged state k =>
    cases state with
    | receivedInitiate =>
      obtain ⟨-, hsome⟩ := Option.ite_none_right_eq_some.mp he
      obtain rfl := Option.some.inj hsome
      simp at h
    | _ => cases he
  | postState =>
    obtain rfl := Option.some.inj he
    simp at h
  | postTransport k task =>
    obtain rfl := Option.some.inj he
    simp at h
  | _ => cases he

/-- What is posted when a session function has returned. -/
theorem tasks_afterSession (p : IceProber) (u : PPSession) :
    (p.afterSession u).tasks.count .createSession = p.tasks.count .createSession ∧
      (p.afterSession u).tasks.count .doInitiate = p.tasks.count .doInitiate ∧
      (p.afterSession u).tasks.count .doAccept = p.tasks.count .doAccept + accepts p.content_name u.out := by
  obtain ⟨-, -, -, htasks, -⟩ := p.afterSession_spec u
  rw [htasks, List.count_append, List.count_append, List.count_append, count_taskOf (.inl rfl), count_taskOf (.inr rfl)]
  exact ⟨rfl, rfl, rfl⟩

/-- A session function has returned. -/
theorem works_afterSession {p : IceProber} {s u : PPSession} (hs : p.session = some s) {offer : Option CString}
    (hu : s.out = [] → PPSession.Proceeds p.content_name offer (accepts p.content_name u.out) s u) :
    Works offer p (p.afterSession u) := by
  obtain ⟨hsetup, -⟩ := p.afterSession_spec u
  obtain ⟨hcreates, hinitiates, haccepts⟩ := p.tasks_afterSession u
  have hready (v : PPSession) : PPSession.Proceeds p.content_name none 0 v v.OnSignalingReady :=
    PPSession.proceeds_of_same rfl rfl v.operates_OnSignalingReady fun _ => rfl
  obtain ⟨t, ht, hproceeds⟩ := session_afterSession (P := PPSession.Proceeds p.content_name none 0 u) u
    (PPSession.proceeds_of_same rfl rfl (PPSession.operates_of_same rfl) fun _ => rfl) (fun v hv => hv.trans (hready v)) p
  refine ⟨hsetup.content_name.symm, hsetup.channel_name.symm, p.subscriptions_afterSession u, hcreates, ?_, fun hsettled => ?_⟩
  · rw [hinitiates, hsetup.remote_online]
  · refine ⟨(p.steady_afterSession u).settled, .inr ⟨s, t, accepts p.content_name u.out, hs, ht, haccepts, ?_⟩⟩
    have htrans := (hu (hsettled s hs)).trans hproceeds
    rwa [Option.or_none, Nat.add_zero] at htrans

theorem works_callSession (p : IceProber) {f : PPSession → PPSession} {offer : Option CString}
    (hf : ∀ s : PPSession, s.out = [] → PPSession.Proceeds p.content_name offer (accepts p.content_name (f s).out) s (f s)) :
    Works offer p (p.callSession f) := by
  unfold callSession
  rcases hs : p.session with _ | s
  · have hrecord := p.works_record (o := .nullSession) rfl
    refine ⟨rfl, rfl, hrecord.subscriptions, rfl, rfl, fun hsettled => ⟨hsettled, .inl ⟨hs, hs, rfl⟩⟩⟩
  · exact works_afterSession hs (hf s)

/-- A call that does not change the state of the session. -/
theorem works_unmoved (p : IceProber) {f : PPSession → PPSession} (hmoved : ∀ s : PPSession, s.Unmoved (f s))
    (hoperates : ∀ s : PPSession, s.Operates False (f s)) : Works none p (p.callSession f) :=
  p.works_callSession fun s hout => (hmoved s).proceeds hout (hoperates s) fun _ => rfl

theorem works_onSignal (p : IceProber) (sig : Signal) :
    Works ((incoming sig).bind PPSession.offerOf) p (p.onSignal sig) := by
  rcases hincoming : incoming sig with _ | msg
  · rw [Option.bind_none]
    cases sig with
    | online isOk =>
      cases isOk with
      | true => exact p.works_record rfl
      | false => exact (p.works_record rfl).before (works_record _ rfl)
    | offline => exact (p.works_record rfl).before (works_record _ rfl)
    | remoteOffline remote => exact (p.works_record rfl).before (works_record _ rfl)
    | remoteOnline remote => exact .refl p
    | remoteLogin remote =>
      rw [onSignal, onRemoteLogin]
      split
      · rename_i hfirst
        refine ⟨rfl, rfl, rfl, ?_, ?_, session_of_same rfl ?_⟩
        · simp [post]
        · simp [post, hfirst.2]
        · simp [post]
      · exact .refl p
    | remoteMessage remote msgBody =>
      cases msgBody with
      | nil => exact p.works_record rfl
      | cons word argvs =>
        have htype : messageType word = none := Option.map_eq_none_iff.mp hincoming
        rw [onSignal, onRemoteMessage, htype]
        exact .refl p
    | printString msg => exact p.works_record rfl
    | nullSocket => exact p.works_record rfl
    | outOfRange => exact p.works_record rfl
  · rw [onSignal_incoming hincoming, Option.bind_some]
    refine p.works_callSession fun s hout => PPSession.proceeds_OnIncomingMessage hout ?_
    cases sig with
    | remoteMessage remote msgBody =>
      cases msgBody with
      | nil => cases hincoming
      | cons word argvs =>
        obtain ⟨type, htype, rfl⟩ := Option.map_eq_some_iff.mp hincoming
        exact type_of_messageType htype
    | _ => cases hincoming

theorem works_foldl (p : IceProber) (sigs : List Signal) : Works (firstOffer sigs) p (sigs.foldl onSignal p) := by
  induction sigs generalizing p with
  | nil => exact .refl p
  | cons sig sigs ih => exact (p.works_onSignal sig).trans (ih (p.onSignal sig))

theorem works_callPeer (p : IceProber) (f : Peer → Peer × List Signal) :
    Works (firstOffer (f p.peer).2) p (p.callPeer f) := by
  have hpeer : Works none p { p with peer := (f p.peer).1 } := works_of_same rfl rfl rfl rfl rfl rfl
  exact hpeer.before (works_foldl _ _)

/-- The signals are about the server. -/
theorem works_aboutServer (p : IceProber) {f : Peer → Peer × List Signal} (h : (f p.peer).2.all aboutServer = true) :
    Works none p (p.callPeer f) := by
  have hnone : firstOffer (f p.peer).2 = none := by
    refine firstOffer_none fun sig hsig => ?_
    have habout := List.all_eq_true.mp h sig hsig
    cases sig with
    | remoteMessage remote msgBody => cases habout
    | _ => rfl
  exact hnone ▸ p.works_callPeer f

/-- Any event but the dispatch of a message. -/
theorem works_step {p q : IceProber} {e : Event} (he : ∀ i connectFails, e ≠ .dispatch i connectFails)
    (h : p.step e = some q) : Works (firstOffer (p.heard e)) p q := by
  cases e with
  | dispatch i connectFails => exact absurd rfl (he i connectFails)
  | connect =>
    obtain rfl := Option.some.inj (Option.ite_none_right_eq_some.mp h).2
    have hsock : Works none p (p.setSockState .connected) := works_of_same rfl rfl rfl rfl rfl rfl
    exact hsock.before (works_aboutServer _ (aboutServer_onConnectEvent _))
  | close =>
    obtain rfl := Option.some.inj (Option.ite_none_right_eq_some.mp h).2
    exact p.works_aboutServer (aboutServer_onCloseEvent _)
  | read temp =>
    obtain ⟨⟨hsock, htemp, -⟩, h⟩ := Option.ite_none_right_eq_some.mp h
    obtain rfl := Option.some.inj h
    obtain ⟨msg, hsigs⟩ := Peer.onReadEvent_signals hsock htemp
    have hworks := p.works_callPeer fun peer => peer.onReadEvent temp
    rw [hsigs] at hworks
    exact hworks
  | worker k w =>
    obtain rfl := Option.some.inj (Option.ite_none_right_eq_some.mp h).2
    exact p.works_unmoved (fun s => s.unmoved_onProxy k _) fun s => s.operates_onProxy k fun p => p.lives_onWorkerEvent False w
  | channelWriteable =>
    obtain rfl := Option.some.inj (Option.ite_none_right_eq_some.mp h).2
    exact (p.works_record rfl).before (works_of_same rfl rfl rfl rfl rfl rfl)
  | timeout =>
    obtain rfl := Option.some.inj (Option.ite_none_right_eq_some.mp h).2
    have htimer : Works none p { p with timeouts := p.timeouts - 1 } := works_of_same rfl rfl rfl rfl rfl rfl
    exact htimer.before (works_unmoved _ (fun s => ⟨rfl, rfl, [.timeout], rfl, by simp [SessionEffect.isChange]⟩)
      fun s => PPSession.operates_of_same rfl)
  | doData =>
    obtain rfl := Option.some.inj (Option.ite_none_right_eq_some.mp h).2
    have htimer : Works none p { p with dataTimers := p.dataTimers - 1 } := works_of_same rfl rfl rfl rfl rfl rfl
    exact (htimer.before (works_record _ rfl)).before (works_of_same rfl rfl rfl rfl rfl rfl)

/-- The dispatch of a message other than the three. -/
theorem works_dispatch (p : IceProber) (connectFails : Bool) {task : Task} (hcreate : task ≠ .createSession)
    (hinitiate : task ≠ .doInitiate) (haccept : task ≠ .doAccept) : Works none p (p.dispatch connectFails task) := by
  cases task with
  | start => exact p.works_aboutServer (f := fun peer => peer.onStart_w connectFails) (aboutServer_onStart_w _ connectFails)
  | createSession => exact absurd rfl hcreate
  | doInitiate => exact absurd rfl hinitiate
  | doAccept => exact absurd rfl haccept
  | state => exact p.works_callSession fun s hout => PPSession.proceeds_OnStateMessage hout
  | transport k task =>
    exact p.works_unmoved (fun s => s.unmoved_OnTransportMessage k task) fun s => s.operates_OnTransportMessage k task

/-- The prober without the message that is dispatched. -/
def without (p : IceProber) (i : Nat) : IceProber := { p with tasks := p.tasks.eraseIdx i }

theorem count_without {p : IceProber} {i : Nat} {task : Task} (h : p.tasks[i]? = some task) (task' : Task) :
    (p.without i).tasks.count task' + (if task = task' then 1 else 0) = p.tasks.count task' := by
  obtain ⟨hi, rfl⟩ := List.getElem?_eq_some_iff.mp h
  have hperm := (List.getElem_cons_eraseIdx_perm hi).count_eq task'
  rw [List.count_cons] at hperm
  simpa [without] using hperm

/-- The events of a prober: one of the three messages is dispatched, or something else happens. -/
theorem step_cases {p q : IceProber} {e : Event} (h : p.step e = some q) :
    (∃ i connectFails task, e = .dispatch i connectFails ∧ p.tasks[i]? = some task ∧
      (task = .createSession ∨ task = .doInitiate ∨ task = .doAccept) ∧ q = (p.without i).dispatch connectFails task) ∨
    (Works (firstOffer (p.heard e)) p q ∧ ∀ i connectFails, e = .dispatch i connectFails →
      ∀ task, p.tasks[i]? = some task → task ≠ .createSession ∧ task ≠ .doInitiate ∧ task ≠ .doAccept) := by
  by_cases he : ∀ i connectFails, e ≠ .dispatch i connectFails
  · exact .inr ⟨works_step he h, fun i connectFails heq => absurd heq (he i connectFails)⟩
  · push Not at he
    obtain ⟨i, connectFails, rfl⟩ := he
    obtain ⟨task, htask, rfl⟩ := Option.map_eq_some_iff.mp h
    by_cases hthree : task = .createSession ∨ task = .doInitiate ∨ task = .doAccept
    · exact .inl ⟨i, connectFails, task, rfl, htask, hthree, rfl⟩
    · obtain ⟨hcreate, hinitiate, haccept⟩ := not_or.mp hthree |>.imp_right not_or.mp
      have hcreates := count_without htask .createSession
      have hinitiates := count_without htask .doInitiate
      have haccepts := count_without htask .doAccept
      rw [if_neg hcreate, Nat.add_zero] at hcreates
      rw [if_neg hinitiate, Nat.add_zero] at hinitiates
      rw [if_neg haccept, Nat.add_zero] at haccepts
      have hwithout : Works none p (p.without i) :=
        ⟨rfl, rfl, rfl, hcreates, by rw [hinitiates]; rfl, session_of_same rfl haccepts⟩
      refine .inr ⟨hwithout.before (works_dispatch _ connectFails hcreate hinitiate haccept), ?_⟩
      rintro i' connectFails' heq task' htask'
      cases heq
      obtain rfl := Option.some.inj (htask.symm.trans htask')
      exact ⟨hcreate, hinitiate, haccept⟩

/-! ### The three messages -/

/-- What the dispatch of the three messages leaves as it is. -/
structure SameTasks (p q : IceProber) : Prop where
  content_name : q.content_name = p.content_name
  channel_name : q.channel_name = p.channel_name
  remote_online : q.remote_online = p.remote_online
  creates : q.tasks.count .createSession = p.tasks.count .createSession
  initiates : q.tasks.count .doInitiate = p.tasks.count .doInitiate
  accepts : q.tasks.count .doAccept = p.tasks.count .doAccept

theorem SameTasks.trans {p q r : IceProber} (h : p.SameTasks q) (h' : q.SameTasks r) : p.SameTasks r where
  content_name := h'.content_name.trans h.content_name
  channel_name := h'.channel_name.trans h.channel_name
  remote_online := h'.remote_online.trans h.remote_online
  creates := h'.creates.trans h.creates
  initiates := h'.initiates.trans h.initiates
  accepts := h'.accepts.trans h.accepts

theorem sameTasks_record (p : IceProber) (o : Output) : p.SameTasks (p.record o) := ⟨rfl, rfl, rfl, rfl, rfl, rfl⟩

/-- A session function has returned and has not taken an initiate message. -/
theorem sameTasks_afterSession (p : IceProber) {u : PPSession} (h : accepts p.content_name u.out = 0) :
    p.SameTasks (p.afterSession u) := by
  obtain ⟨hsetup, -⟩ := p.afterSession_spec u
  obtain ⟨hcreates, hinitiates, haccepts⟩ := p.tasks_afterSession u
  rw [h, Nat.add_zero] at haccepts
  exact ⟨hsetup.content_name.symm, hsetup.channel_name.symm, hsetup.remote_online.symm, hcreates, hinitiates, haccepts⟩

/-- The session behind the handling of its effects. -/
theorem session_afterSession_like (p : IceProber) (u : PPSession) : ∃ t, (p.afterSession u).session = some t ∧ t.out = [] ∧
    t.state = u.state ∧ t.content_name = u.content_name ∧ u.Operates False t :=
  session_afterSession
    (P := fun t => t.out = [] ∧ t.state = u.state ∧ t.content_name = u.content_name ∧ u.Operates False t)
    u ⟨rfl, rfl, rfl, PPSession.operates_of_same rfl⟩
    (fun v ⟨hout, hstate, hname, hoperates⟩ =>
      ⟨hout, hstate, hname, hoperates.trans v.operates_OnSignalingReady⟩) p

/-- The target channel is there. -/
def HasTarget (p : IceProber) : Prop :=
  ∃ s t, p.session = some s ∧ s.GetTransport p.content_name = some t ∧ t.HasChannel p.channel_name = true

theorem setupTarget_spec (p : IceProber) :
    p.SameTasks p.setupTarget ∧ p.setupTarget.session = p.session ∧
      ∃ os, p.setupTarget.subscriptions = p.subscriptions ++ os ∧ os.count .connectTarget ≤ 1 ∧ os.count .startMonitor ≤ 1 ∧
        (p.HasTarget → os.count .connectTarget = 1) := by
  unfold setupTarget
  split
  · rename_i hnone
    refine ⟨p.sameTasks_record _, rfl, [], ?_, Nat.zero_le _, Nat.zero_le _, fun ⟨s, t, hs, ht, _⟩ => ?_⟩
    · exact (p.subscriptions_record rfl).trans (List.append_nil _).symm
    · simp [hs, ht] at hnone
  · rename_i targetTransport htransport
    split
    · rename_i hchannel
      refine ⟨⟨rfl, rfl, rfl, rfl, rfl, rfl⟩, rfl, [], (List.append_nil _).symm, Nat.zero_le _, Nat.zero_le _, ?_⟩
      rintro ⟨s, t, hs, ht, hhas⟩
      rw [hs, Option.bind_some, ht] at htransport
      obtain rfl := Option.some.inj htransport
      rw [Transport.HasChannel, hchannel] at hhas
      cases hhas
    · dsimp only
      split
      · refine ⟨⟨rfl, rfl, rfl, rfl, rfl, rfl⟩, rfl, [.connectTarget, .startMonitor], ?_, ?_, ?_, fun _ => ?_⟩
        · simp [subscriptions, record, Output.isSubscription]
        all_goals decide
      · refine ⟨⟨rfl, rfl, rfl, rfl, rfl, rfl⟩, rfl, [.connectTarget], ?_, ?_, ?_, fun _ => ?_⟩
        · simp [subscriptions, record, Output.isSubscription]
        all_goals decide

/-- The session that `createSession_s` makes. -/
def newSession (p : IceProber) : PPSession :=
  ((PPSession.new false).set_allow_local_ips true).CreateChannel p.content_name p.channel_name

theorem createSession_spec (p : IceProber) :
    p.SameTasks p.createSession_s ∧ p.createSession_s.subscriptions = p.subscriptions ∧ p.createSession_s.Settled ∧
      ∃ t, p.createSession_s.session = some t ∧ t.state = .init ∧ p.newSession.Operates False t := by
  have hunmoved := ((PPSession.new false).set_allow_local_ips true).unmoved_CreateChannel p.content_name p.channel_name
  have haccepts : accepts p.content_name p.newSession.out = 0 := by
    obtain ⟨es, hes, hall⟩ := hunmoved.out
    refine accepts_eq_zero fun hmem => ?_
    rw [newSession, hes] at hmem
    have hchange := hall _ ((List.mem_append.mp hmem).resolve_left List.not_mem_nil)
    simp [SessionEffect.isChange] at hchange
  obtain ⟨t, ht, -, hstate, -, hoperates⟩ := p.session_afterSession_like p.newSession
  exact ⟨p.sameTasks_afterSession haccepts, p.subscriptions_afterSession _, (p.steady_afterSession _).settled, t, ht,
    hstate.trans hunmoved.state, hoperates⟩

/-- `MSG_DO_INITIATE` is dispatched. What comes last is `setupTarget`. -/
theorem doInitiate_spec {p : IceProber} (hsettled : p.Settled) {s : PPSession} (hs : p.session = some s) :
    ∃ r t, p.doInitiate_s = r.setupTarget ∧ p.SameTasks r ∧ r.subscriptions = p.subscriptions ∧ r.Settled ∧
      r.session = some t ∧
      ((s.state = .init ∧ t.state = .sentInitiate) ∨
        (s.state ≠ .init ∧ t.state = s.state ∧ t.content_name = s.content_name ∧ s.Operates False t)) := by
  have hrun : p.doInitiate_s = (p.afterSession (s.Initiate id p.content_name).1).setupTarget := by rw [doInitiate_s, hs]
  obtain ⟨t, ht, -, hstate, hname, hoperates⟩ := p.session_afterSession_like (s.Initiate id p.content_name).1
  have haccepts : accepts p.content_name (s.Initiate id p.content_name).1.out = 0 := by
    by_cases hinit : s.state = .init
    · obtain ⟨-, -, -, -, hsignals, -⟩ := s.Initiate_init hinit p.content_name
      rw [← PPSession.accepts_signals, hsignals]
      exact accepts_eq_zero (by simp [PPSession.signals, hsettled s hs])
    · rw [s.Initiate_refused hinit, hsettled s hs]
      rfl
  refine ⟨_, t, hrun, p.sameTasks_afterSession haccepts, p.subscriptions_afterSession _, (p.steady_afterSession _).settled,
    ht, ?_⟩
  by_cases hinit : s.state = .init
  · exact .inl ⟨hinit, hstate.trans (s.Initiate_init hinit p.content_name).1⟩
  · rw [s.Initiate_refused hinit] at hstate hname hoperates
    exact .inr ⟨hinit, hstate, hname, hoperates⟩

/-- `MSG_DO_ACCEPT` is dispatched. -/
theorem doAccept_spec {p : IceProber} (hsettled : p.Settled) {s : PPSession} (hs : p.session = some s) :
    ∃ r t, p.doAccept_s = r.setupTarget ∧ p.SameTasks r ∧ r.subscriptions = p.subscriptions ∧ r.Settled ∧
      r.session = some t ∧ t.state = (if s.state = .receivedInitiate then .sentAccept else s.state) ∧
      t.content_name = s.content_name ∧ s.Operates False t := by
  have hrun : p.doAccept_s = (p.afterSession (s.Accept id).1).setupTarget := by rw [doAccept_s, hs]
  obtain ⟨t, ht, -, hstate, hname, hoperates⟩ := p.session_afterSession_like (s.Accept id).1
  have haccept : accepts p.content_name (s.Accept id).1.out = 0 ∧
      (s.Accept id).1.state = (if s.state = .receivedInitiate then .sentAccept else s.state) ∧
      (s.Accept id).1.content_name = s.content_name ∧ s.Operates False (s.Accept id).1 := by
    by_cases hreceived : s.state = .receivedInitiate
    · obtain ⟨hstate, hname, -, -, hsignals, -⟩ := s.Accept_receivedInitiate hreceived
      refine ⟨?_, by rw [hstate, if_pos hreceived], hname,
        (PPSession.carries_Accept PPSession.listener_id.answers (by simp [hreceived])).operates⟩
      rw [← PPSession.accepts_signals, hsignals]
      exact accepts_eq_zero (by simp [PPSession.signals, hsettled s hs])
    · rw [s.Accept_refused hreceived, hsettled s hs, if_neg hreceived]
      exact ⟨rfl, rfl, rfl, .refl False s⟩
  refine ⟨_, t, hrun, p.sameTasks_afterSession haccept.1, p.subscriptions_afterSession _, (p.steady_afterSession _).settled,
    ht, hstate.trans haccept.2.1, hname.trans haccept.2.2.1, haccept.2.2.2.trans hoperates⟩

end IceProber

end

end ProbICE
