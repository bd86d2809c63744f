import ProbICE.Theorems.Acceptance
import ProbICE.Theorems.Answers

/-! # The subscription of the target channel

`MSG_DO_INITIATE` and `MSG_DO_ACCEPT` both end in `setupTarget`, whether the session has taken the call or not. Each of
them is posted once at most, but nothing keeps a prober from posting both. -/

namespace ProbICE

section
variable [Host]

/-! ### The channel outlasts the negotiation -/

namespace TransportProxy

/-- The transport has the channel, or the negotiation is going to make it. -/
structure Offers (p : TransportProxy) (name : CString) : Prop where
  made : p.Made
  channel : (p.GetChannel name).isSome = true
  kept : ¬ p.Lost name

section offers
variable {p : TransportProxy} {name : CString}

theorem Offers.hasChannel (h : p.Offers name) (hstate : p.state = .negotiated) : p.transport.HasChannel name = true := by
  have hkept := h.kept
  rwa [Lost, if_pos hstate, Bool.not_eq_false] at hkept

theorem Offers.of_channels (h : p.Offers name) {p' : TransportProxy} (hmade : p'.Made) (hstate : p'.state = p.state)
    (hchannels : p'.channels = p.channels) (htransport : p'.transport.HasChannel name = p.transport.HasChannel name) :
    p'.Offers name where
  made := hmade
  channel := by
    rw [GetChannel, hchannels]
    exact h.channel
  kept := by
    rw [Lost, hstate, htransport, GetChannel, hchannels]
    exact h.kept

theorem Offers.CreateChannel (h : p.Offers name) (j : CString) : (p.CreateChannel j).1.Offers name := by
  refine ⟨h.made.CreateChannel j, (p.wires_CreateChannel j).channels name h.channel, ?_⟩
  have hget : ({ p with channels := p.channels.insert j { impl := false } } : TransportProxy).GetChannel name =
      if name = j then some { impl := false } else p.GetChannel name := by
    simp only [GetChannel, Std.ExtTreeMap.getElem?_insert, Std.compare_eq_iff_eq]
    by_cases hj : j = name
    · simp [hj]
    · simp [hj, Ne.symm hj]
  rw [Lost, (p.stays_CreateChannel j).1]
  by_cases hstate : p.state = .negotiated
  · rw [if_pos hstate, Bool.not_eq_false]
    have hrun : (p.CreateChannel j).1 =
        (SetProxyImpl { p with channels := p.channels.insert j { impl := false } } j).1 := by
      unfold TransportProxy.CreateChannel Emit.andThen
      simp only [hstate]
    obtain ⟨-, hhas, -⟩ := single_SetProxyImpl (p := { p with channels := p.channels.insert j { impl := false } })
      h.made.single j
    rw [hrun, hhas]
    split
    · rename_i hj
      subst hj
      simp [GetChannel]
    · exact h.hasChannel hstate
  · rw [if_neg hstate]
    have hrun : (p.CreateChannel j).1.channels = p.channels.insert j { impl := false } := by
      unfold TransportProxy.CreateChannel Emit.andThen
      dsimp only
      split
      · rename_i hnegotiated
        exact absurd hnegotiated hstate
      · exact (GetOrCreateImpl_frame _ j).1
      · rfl
    have hkept := h.kept
    rw [Lost, if_neg hstate] at hkept
    have hget' : (p.CreateChannel j).1.GetChannel name =
        if name = j then some { impl := false } else p.GetChannel name := by
      rw [← hget, GetChannel, hrun, GetChannel]
    rw [hget']
    split
    · simp
    · exact hkept

/-- It is kept until the proxy is connected before the negotiation. -/
theorem Offers.operation {p' : TransportProxy} (h : p.Offers name) (hop : Operation False p p') : p'.Offers name := by
  have hmade := h.made.operation hop
  cases hop with
  | createChannel j => exact h.CreateChannel j
  | connect hno => exact hno.elim
  | complete =>
    refine ⟨hmade, p.wires_CompleteNegotiation.channels name h.channel, ?_⟩
    rw [Lost, if_pos p.state_CompleteNegotiation, Bool.not_eq_false]
    exact (h.made.CompleteNegotiation.2 name).mpr ⟨h.channel, h.kept⟩
  | remoteCandidates candidates =>
    refine h.of_channels hmade rfl rfl ?_
    rw [Transport.HasChannel, Transport.GetChannel, (p.transport.OnRemoteCandidates_frame candidates).1]
    rfl
  | unsent candidates => exact h.of_channels hmade rfl rfl rfl
  | signalingReady =>
    refine h.of_channels hmade rfl rfl ?_
    unfold Transport.OnSignalingReady
    split <;> rfl
  | candidatesReady => exact h.of_channels hmade rfl rfl rfl
  | writeState => exact h.of_channels hmade rfl rfl rfl
  | candidateReady candidate => exact h.of_channels hmade rfl rfl rfl
  | writableState j writable =>
    exact h.of_channels hmade rfl rfl (p.transport.HasChannel_OnChannelWritableState j writable name)

theorem offers_new (content_name : CString) (allow_local_ips : Bool) (name : CString) :
    ((new content_name (.new allow_local_ips)).CreateChannel name).1.Offers name := by
  refine ⟨(made_new content_name allow_local_ips).CreateChannel name, ?_, ?_⟩
  · simp [TransportProxy.CreateChannel, Emit.andThen, new, GetChannel]
  · rw [Lost, (stays_CreateChannel _ name).1]
    simp [TransportProxy.CreateChannel, Emit.andThen, new, GetChannel]

end offers

end TransportProxy

namespace PPSession

/-- The proxy of a content offers a channel. -/
def Offers (s : PPSession) (k name : CString) : Prop := ∃ p, s.transports[k]? = some p ∧ p.Offers name

/-- The proxy of a content has been negotiated and offers a channel. -/
def Provides (s : PPSession) (k name : CString) : Prop :=
  ∃ p, s.transports[k]? = some p ∧ p.Offers name ∧ p.state = .negotiated

section
variable {s t : PPSession} {k name : CString}

theorem Offers.operates (h : s.Offers k name) (hst : s.Operates False t) : t.Offers k name := by
  obtain ⟨p, hp, hoffers⟩ := h
  obtain ⟨p', hp', hlives⟩ := hst.kept k p hp
  exact ⟨p', hp', TransportProxy.Lives.keeps (fun _ _ => TransportProxy.Offers.operation) hlives hoffers⟩

theorem Provides.operates (h : s.Provides k name) (hst : s.Operates False t) : t.Provides k name := by
  obtain ⟨p, hp, hoffers, hstate⟩ := h
  obtain ⟨p', hp', hlives⟩ := hst.kept k p hp
  exact ⟨p', hp', TransportProxy.Lives.keeps (fun _ _ => TransportProxy.Offers.operation) hlives hoffers,
    TransportProxy.Lives.keeps (fun _ _ => TransportProxy.negotiated_operation) hlives hstate⟩

end

end PPSession

namespace IceProber

theorem newSession_offers (p : IceProber) : p.newSession.Offers p.content_name p.channel_name := by
  have hnone : ((PPSession.new false).set_allow_local_ips true).transports[p.content_name]? = none := by
    simp [PPSession.new, PPSession.set_allow_local_ips]
  refine ⟨_, ?_, TransportProxy.offers_new p.content_name true p.channel_name⟩
  rw [newSession, PPSession.CreateChannel, PPSession.transports_onProxy, if_pos rfl,
    PPSession.transports_GetOrCreateTransportProxy, if_pos rfl, PPSession.proxyOrNew, hnone]
  rfl

/-! ### What the target channel is subscribed by -/

/-- How often the handlers of the target channel have been connected. A signal calls each connection, so it prints a
    packet and handles a change as often. -/
def connections (p : IceProber) : Nat := p.log.count .connectTarget

/-- The monitors, numbered in the order in which they were started. All of them call `onMonitorCallback`. -/
def monitors (p : IceProber) : List Nat := List.range (p.log.count .startMonitor)

/-- The monitor stored in `monitor_`: the one that was started last. -/
def monitor_ (p : IceProber) : Option Nat := p.monitors.getLast?

structure SubscribedOnce (p : IceProber) : Prop where
  connections : p.connections ≤ 1
  monitors : p.monitors.length ≤ 1
  callback : ∀ m ∈ p.monitors, p.monitor_ = some m

/-- The message that an event dispatches while there is a session. -/
def dispatched (p : IceProber) : Event → Option Task
  | .dispatch i _ => if p.session.isSome then p.tasks[i]? else none
  | _ => none

/-- The messages that a run dispatches while there is a session. -/
def dispatchedIn : IceProber → List Event → List Task
  | _, [] => []
  | p, e :: es =>
    (p.dispatched e).toList ++
      match p.step e with
      | none => []
      | some q => q.dispatchedIn es

/-! ### Counting the messages -/

/-- What the prober has done when the messages `served` have been dispatched while there was a session. -/
structure Counted (served : List Task) (p : IceProber) : Prop extends p.Orderly where
  initiates : served.count .doInitiate + p.tasks.count .doInitiate ≤ p.remote_online.toNat
  accepts : served.count .doAccept + p.tasks.count .doAccept ≤ 1
  fresh : (∀ s, p.session = some s → s.state = .init) → served.count .doInitiate = 0 ∧ served.count .doAccept = 0
  offers : ∀ s, p.session = some s → s.state = .init → s.Offers p.content_name p.channel_name
  provides : 0 < served.count .doAccept + p.tasks.count .doAccept →
    ∃ s, p.session = some s ∧ s.Provides p.content_name p.channel_name
  connects_le : p.subscriptions.count .connectTarget ≤ served.count .doInitiate + served.count .doAccept
  monitors_le : p.subscriptions.count .startMonitor ≤ served.count .doInitiate + served.count .doAccept
  connects : 0 < served.count .doAccept + p.tasks.count .doAccept →
    p.subscriptions.count .connectTarget = served.count .doInitiate + served.count .doAccept

section counted
variable {served : List Task} {p q : IceProber}

theorem counted_Login (output : Bool) (myName remoteName : CString) : Counted [] (Login output myName remoteName) where
  toOrderly := orderly_Login output myName remoteName
  initiates := by simp [Login]
  accepts := by simp [Login]
  fresh _ := ⟨rfl, rfl⟩
  offers s hs := by cases hs
  provides hpos := by simp [Login] at hpos
  connects_le := by simp [Login, subscriptions]
  monitors_le := by simp [Login, subscriptions]
  connects hpos := by simp [Login] at hpos

/-- Before the session leaves `init` no `MSG_DO_ACCEPT` has been posted. -/
theorem Counted.unasked_fresh (h : Counted served p) (hinit : ∀ s, p.session = some s → s.state = .init) :
    served.count .doInitiate = 0 ∧ served.count .doAccept = 0 ∧ p.tasks.count .doAccept = 0 :=
  ⟨(h.fresh hinit).1, (h.fresh hinit).2, h.unasked hinit⟩

/-- Only the numbers of the two messages matter. -/
theorem Counted.of_counts {served' : List Task} (h : Counted served p)
    (hinitiate : served'.count .doInitiate = served.count .doInitiate)
    (haccept : served'.count .doAccept = served.count .doAccept) : Counted served' p where
  toOrderly := h.toOrderly
  initiates := hinitiate ▸ h.initiates
  accepts := haccept ▸ h.accepts
  fresh hinit := by
    rw [hinitiate, haccept]
    exact h.fresh hinit
  offers := h.offers
  provides := haccept ▸ h.provides
  connects_le := by
    rw [hinitiate, haccept]
    exact h.connects_le
  monitors_le := by
    rw [hinitiate, haccept]
    exact h.monitors_le
  connects := by
    rw [hinitiate, haccept]
    exact h.connects

/-- As long as there is no session nothing has been dispatched to it. -/
theorem Counted.unserved (h : Counted served p) (hp : p.session = none) (horderly : q.Orderly)
    (hinitiates : q.tasks.count .doInitiate ≤ q.remote_online.toNat) (haccepts : q.tasks.count .doAccept = 0)
    (hoffers : ∀ s, q.session = some s → s.Offers q.content_name q.channel_name)
    (hsubscriptions : q.subscriptions = p.subscriptions) : Counted served q := by
  obtain ⟨hzero, hzero', -⟩ := h.unasked_fresh fun s hs => by simp [hp] at hs
  refine ⟨horderly, by omega, by omega, fun _ => ⟨hzero, hzero'⟩, fun s hs _ => hoffers s hs, fun hpos => by omega, ?_, ?_,
    fun hpos => by omega⟩
  · rw [hsubscriptions]
    exact h.connects_le
  · rw [hsubscriptions]
    exact h.monitors_le

/-- Anything but the dispatch of the three messages. -/
theorem Counted.works {offer : Option CString} (h : Counted served p) (horderly : q.Orderly) (hworks : Works offer p q) :
    Counted served q := by
  have hinitiates := h.initiates
  have hmore := hworks.initiates
  obtain ⟨-, hp, hq, haccepts⟩ | ⟨-, s, t, posted, hp, hq, haccepts, hproceeds⟩ :=
    and_or_left.mp (hworks.session h.settled)
  · obtain ⟨hzero, -, hzero'⟩ := h.unasked_fresh fun s hs => by simp [hp] at hs
    exact h.unserved hp horderly (by omega) (haccepts.trans hzero') (fun s hs => by simp [hq] at hs) hworks.subscriptions
  · have hsame (hposted : posted = 0) (hnoinit : t.state = .init → s.state = .init) : Counted served q := by
      refine ⟨horderly, by omega, ?_, fun hinit => ?_, fun u hu hinit => ?_, fun hpos => ?_, ?_, ?_, fun hpos => ?_⟩
      · rw [haccepts, hposted]
        exact h.accepts
      · refine h.fresh fun s' hs' => ?_
        obtain rfl := Option.some.inj (hp.symm.trans hs')
        exact hnoinit (hinit t hq)
      · obtain rfl := Option.some.inj (hq.symm.trans hu)
        rw [hworks.content_name, hworks.channel_name]
        exact (h.offers s hp (hnoinit hinit)).operates hproceeds.operates
      · obtain ⟨s', hs', hprovides⟩ := h.provides (by omega)
        obtain rfl := Option.some.inj (hp.symm.trans hs')
        rw [hworks.content_name, hworks.channel_name]
        exact ⟨t, hq, hprovides.operates hproceeds.operates⟩
      · rw [hworks.subscriptions]
        exact h.connects_le
      · rw [hworks.subscriptions]
        exact h.monitors_le
      · rw [hworks.subscriptions]
        exact h.connects (by omega)
    obtain ⟨hstate, -, hposted, -⟩ | ⟨hinit, hstate, -, hposted⟩ | ⟨-, hafter, -, hposted⟩ := hproceeds.way
    · exact hsame hposted fun hinit => hstate ▸ hinit
    · -- the session takes an initiate message
      obtain ⟨hzero, hzero', hzero''⟩ := h.unasked_fresh fun s' hs' => by
        obtain rfl := Option.some.inj (hp.symm.trans hs')
        exact hinit
      have hconnects := h.connects_le
      have hone : posted ≤ 1 := by
        rw [hposted]
        split <;> omega
      refine ⟨horderly, by omega, by omega, fun _ => ⟨hzero, hzero'⟩, fun u hu hinit' => ?_, fun hpos => ?_, ?_, ?_,
        fun _ => ?_⟩
      · obtain rfl := Option.some.inj (hq.symm.trans hu)
        rw [hstate] at hinit'
        cases hinit'
      · have hown : t.content_name = p.content_name := by
          by_contra hne
          rw [if_neg hne] at hposted
          omega
        obtain ⟨pr, hpr, hnegotiated⟩ := hproceeds.negotiated hinit hstate
        obtain ⟨pr', hpr', hoffers⟩ := (h.offers s hp hinit).operates hproceeds.operates
        rw [hown] at hpr
        obtain rfl := Option.some.inj (hpr.symm.trans hpr')
        rw [hworks.content_name, hworks.channel_name]
        exact ⟨t, hq, pr, hpr, hoffers, hnegotiated⟩
      · rw [hworks.subscriptions]
        exact hconnects
      · rw [hworks.subscriptions]
        exact h.monitors_le
      · rw [hworks.subscriptions]
        omega
    · exact hsame hposted fun hinit => absurd hinit hafter.1

/-- A negotiated channel is there when the target is set up. -/
theorem hasTarget {s : PPSession} (hs : p.session = some s) (h : s.Provides p.content_name p.channel_name) : p.HasTarget := by
  obtain ⟨pr, hpr, hoffers, hstate⟩ := h
  refine ⟨s, pr.transport, hs, ?_, hoffers.hasChannel hstate⟩
  rw [PPSession.GetTransport, PPSession.GetTransportProxy, hpr, Option.map_some]

/-- A dispatch that ends in `setupTarget`, which subscribes once at most, and once if the target is there. -/
theorem Counted.setupTarget {served' : List Task} {r : IceProber} {t : PPSession} (h : Counted served p)
    (hcontent : r.content_name = p.content_name) (hchannel : r.channel_name = p.channel_name)
    (hsubscriptions : r.subscriptions = p.subscriptions) (ht : r.session = some t) (hstate : t.state ≠ .init)
    (hprovides : 0 < served.count .doAccept + p.tasks.count .doAccept → t.Provides p.content_name p.channel_name)
    (hinitiates : served'.count .doInitiate + r.tasks.count .doInitiate ≤ r.remote_online.toNat)
    (haccepts : served'.count .doAccept + r.tasks.count .doAccept = served.count .doAccept + p.tasks.count .doAccept)
    (hmore : served'.count .doInitiate + served'.count .doAccept = served.count .doInitiate + served.count .doAccept + 1)
    (horderly : r.setupTarget.Orderly) : Counted served' r.setupTarget := by
  obtain ⟨hsame, hsession, os, hos, hone, hone', hexact⟩ := r.setupTarget_spec
  have hsome : r.setupTarget.session = some t := hsession.trans ht
  have hbefore := h.accepts
  have hconnects := h.connects_le
  have hmonitors := h.monitors_le
  refine ⟨horderly, ?_, ?_, fun hinit => absurd (hinit t hsome) hstate, fun u hu hinit => ?_, fun hpos => ?_, ?_, ?_,
    fun hpos => ?_⟩
  · rw [hsame.initiates, hsame.remote_online]
    exact hinitiates
  · rw [hsame.accepts, haccepts]
    exact hbefore
  · obtain rfl := Option.some.inj (hsome.symm.trans hu)
    exact absurd hinit hstate
  · rw [hsame.accepts, haccepts] at hpos
    rw [hsame.content_name, hsame.channel_name, hcontent, hchannel]
    exact ⟨t, hsome, hprovides hpos⟩
  · rw [hos, hsubscriptions, List.count_append]
    omega
  · rw [hos, hsubscriptions, List.count_append]
    omega
  · rw [hsame.accepts, haccepts] at hpos
    have htarget : r.HasTarget := hasTarget ht (by rw [hcontent, hchannel]; exact hprovides hpos)
    have hnow := hexact htarget
    have hpast := h.connects hpos
    rw [hos, hsubscriptions, List.count_append]
    omega

/-- The dispatch of one of the three messages. -/
theorem Counted.serves {i : Nat} {task : Task} (h : Counted served p) (horderly : q.Orderly)
    (htask : p.tasks[i]? = some task) (hserves : Serves (p.without i) q task) :
    Counted (served ++ (if p.session.isSome then some task else none).toList) q := by
  have hinitiates := h.initiates
  have haccepts := h.accepts
  have hless := count_without htask .doInitiate
  have hless' := count_without htask .doAccept
  cases hserves with
  | create hnone haccepts' hsame hsubscriptions t ht hinit hoperates =>
    have hp : p.session = none := hnone
    rw [if_neg (by decide), Nat.add_zero] at hless
    rw [hp, Option.isSome_none, if_neg (by decide), Option.toList_none, List.append_nil]
    refine h.unserved hp horderly ?_ (hsame.accepts.trans haccepts') (fun u hu => ?_) hsubscriptions
    · rw [hsame.initiates, hless, hsame.remote_online]
      exact (Nat.le_add_left _ _).trans hinitiates
    · obtain rfl := Option.some.inj (ht.symm.trans hu)
      rw [hsame.content_name, hsame.channel_name]
      exact (p.without i).newSession_offers.operates hoperates
  | early hnone hq =>
    subst hq
    have hp : p.session = none := hnone
    obtain ⟨-, -, hzero⟩ := h.unasked_fresh fun s hs => by simp [hp] at hs
    have hsubscriptions : ((p.without i).record .nullSession).subscriptions = p.subscriptions :=
      (p.without i).subscriptions_record rfl
    have hsame := (p.without i).sameTasks_record .nullSession
    rw [if_pos rfl] at hless
    rw [if_neg (by decide), Nat.add_zero] at hless'
    rw [hp, Option.isSome_none, if_neg (by decide), Option.toList_none, List.append_nil]
    refine h.unserved hp horderly ?_ (hsame.accepts.trans (hless'.trans hzero)) (fun u hu => ?_) hsubscriptions
    · have honline : ((p.without i).record .nullSession).remote_online = p.remote_online := rfl
      rw [hsame.initiates, honline]
      omega
    · have hsession : ((p.without i).record .nullSession).session = none := hnone
      rw [hsession] at hu
      cases hu
  | initiate s hs r t hq hsame hsubscriptions ht hcases =>
    subst hq
    have hp : p.session = some s := hs
    have honline : r.remote_online = p.remote_online := hsame.remote_online
    have hafter : t.state ≠ .init := by
      obtain ⟨-, hsent⟩ | ⟨hne, hstate, -⟩ := hcases
      · rw [hsent]
        decide
      · rw [hstate]
        exact hne
    have hprovides (hpos : 0 < served.count .doAccept + p.tasks.count .doAccept) :
        t.Provides p.content_name p.channel_name := by
      obtain ⟨s', hs', hprovides⟩ := h.provides hpos
      obtain rfl := Option.some.inj (hp.symm.trans hs')
      obtain ⟨hinit, -⟩ | ⟨-, -, -, hoperates⟩ := hcases
      · obtain ⟨-, hzero, hzero'⟩ := h.unasked_fresh fun s' hs' => by
          obtain rfl := Option.some.inj (hp.symm.trans hs')
          exact hinit
        omega
      · exact hprovides.operates hoperates
    rw [if_pos rfl] at hless
    rw [if_neg (by decide), Nat.add_zero] at hless'
    rw [hp, Option.isSome_some, if_pos rfl, Option.toList_some]
    have hcount : (served ++ [Task.doInitiate]).count .doInitiate = served.count .doInitiate + 1 := by simp
    have hcount' : (served ++ [Task.doInitiate]).count .doAccept = served.count .doAccept := by simp
    refine h.setupTarget hsame.content_name hsame.channel_name hsubscriptions ht hafter hprovides ?_ ?_ (by omega) horderly
    · rw [hcount, hsame.initiates, honline]
      omega
    · rw [hcount', hsame.accepts, hless']
  | accept s hs hbefore r t hq hsame hsubscriptions ht hstate hname hoperates =>
    subst hq
    have hp : p.session = some s := hs
    have honline : r.remote_online = p.remote_online := hsame.remote_online
    have hafter : t.state ≠ .init := by
      rw [hstate]
      split
      · decide
      · exact hbefore
    have hprovides (hpos : 0 < served.count .doAccept + p.tasks.count .doAccept) :
        t.Provides p.content_name p.channel_name := by
      obtain ⟨s', hs', hprovides⟩ := h.provides hpos
      obtain rfl := Option.some.inj (hp.symm.trans hs')
      exact hprovides.operates hoperates
    rw [if_neg (by decide), Nat.add_zero] at hless
    rw [if_pos rfl] at hless'
    rw [hp, Option.isSome_some, if_pos rfl, Option.toList_some]
    have hcount : (served ++ [Task.doAccept]).count .doInitiate = served.count .doInitiate := by simp
    have hcount' : (served ++ [Task.doAccept]).count .doAccept = served.count .doAccept + 1 := by simp
    refine h.setupTarget hsame.content_name hsame.channel_name hsubscriptions ht hafter hprovides ?_ ?_ (by omega) horderly
    · rw [hcount, hsame.initiates, hless, honline]
      exact hinitiates
    · rw [hcount', hsame.accepts]
      omega

theorem Counted.step {e : Event} (h : Counted served p) (hstep : p.step e = some q) :
    Counted (served ++ (p.dispatched e).toList) q := by
  obtain ⟨horderly, ⟨i, connectFails, task, rfl, htask, hserves⟩ | ⟨hworks, hthree⟩⟩ := h.toOrderly.step_cases hstep
  · have hdispatched : p.dispatched (.dispatch i connectFails) = if p.session.isSome then some task else none := by
      rw [dispatched, htask]
    rw [hdispatched]
    exact h.serves horderly htask hserves
  · have hother : ∀ task ∈ p.dispatched e, task ≠ .doInitiate ∧ task ≠ .doAccept := by
      intro task htask
      cases e with
      | dispatch i connectFails =>
        obtain ⟨-, htask⟩ := Option.ite_none_right_eq_some.mp htask
        exact (hthree i connectFails rfl task htask).2
      | _ => cases htask
    have hzero : (p.dispatched e).toList.count .doInitiate = 0 :=
      List.count_eq_zero.mpr fun hmem => (hother _ (Option.mem_toList.mp hmem)).1 rfl
    have hzero' : (p.dispatched e).toList.count .doAccept = 0 :=
      List.count_eq_zero.mpr fun hmem => (hother _ (Option.mem_toList.mp hmem)).2 rfl
    refine (h.works horderly hworks).of_counts ?_ ?_
    · rw [List.count_append, hzero, Nat.add_zero]
    · rw [List.count_append, hzero', Nat.add_zero]

theorem Counted.run {es : List Event} (h : Counted served p) (hrun : Machine.run IceProber.step p es = some q) :
    Counted (served ++ p.dispatchedIn es) q := by
  induction es generalizing served p with
  | nil =>
    obtain rfl := Option.some.inj hrun
    rw [dispatchedIn, List.append_nil]
    exact h
  | cons e es ih =>
    obtain ⟨r, hstep, hrun⟩ := Machine.run_cons_eq_some.mp hrun
    rw [dispatchedIn, hstep, ← List.append_assoc]
    exact ih (h.step hstep) hrun

end counted

/-- In every state of every run the target channel is subscribed once and has one monitor at most, exactly unless both
    `MSG_DO_INITIATE` and `MSG_DO_ACCEPT` have been dispatched to the session. -/
theorem target_subscribed_once {output : Bool} {myName remoteName : CString} {es : List Event} {p : IceProber}
    (hrun : Machine.run step (Login output myName remoteName) es = some p) :
    p.SubscribedOnce ↔ ¬ (.doInitiate ∈ (Login output myName remoteName).dispatchedIn es ∧
      .doAccept ∈ (Login output myName remoteName).dispatchedIn es) := by
  have h := (counted_Login output myName remoteName).run hrun
  rw [List.nil_append] at h
  set served := (Login output myName remoteName).dispatchedIn es
  have hconnections : p.connections = p.subscriptions.count .connectTarget := (List.count_filter rfl).symm
  have hmonitors : p.monitors.length = p.subscriptions.count .startMonitor := by
    rw [monitors, List.length_range, subscriptions, List.count_filter rfl]
  constructor
  · rintro honce ⟨hinitiate, haccept⟩
    have hinitiates := List.count_pos_iff.mpr hinitiate
    have haccepts := List.count_pos_iff.mpr haccept
    have hboth := h.connects (by omega)
    have hle := honce.connections
    omega
  · intro hnot
    have hinitiates := h.initiates.trans (Bool.toNat_le p.remote_online)
    have haccepts := h.accepts
    have hone : served.count .doInitiate + served.count .doAccept ≤ 1 := by
      by_contra hmore
      exact hnot ⟨List.count_pos_iff.mp (by omega), List.count_pos_iff.mp (by omega)⟩
    have hlength : p.monitors.length ≤ 1 := hmonitors ▸ h.monitors_le.trans hone
    refine ⟨hconnections ▸ h.connects_le.trans hone, hlength, fun m hm => ?_⟩
    obtain ⟨m', hm'⟩ := List.length_eq_one_iff.mp (le_antisymm hlength (List.length_pos_of_mem hm))
    rw [hm'] at hm
    rw [monitor_, hm', List.mem_singleton.mp hm]
    rfl

end IceProber

end

attribute [local instance] Host.plain

namespace IceProber

theorem target_subscribed_once_offered :
    ∃ p, Machine.run step (Login true (cstr "a") (cstr "b")) (offered "data" 3) = some p ∧ p.connections = 1 ∧
      p.SubscribedOnce := by
  obtain ⟨p, hrun⟩ := Option.isSome_iff_exists.mp
    (show (Machine.run step (Login true (cstr "a") (cstr "b")) (offered "data" 3)).isSome = true by decide)
  have hend : (Machine.run step (Login true (cstr "a") (cstr "b")) (offered "data" 3)).all
      (fun p => p.connections = 1) = true := by decide
  have hdispatched : Task.doInitiate ∉ (Login true (cstr "a") (cstr "b")).dispatchedIn (offered "data" 3) := by decide
  rw [hrun, Option.all_some, decide_eq_true_iff] at hend
  exact ⟨p, hrun, hend, (target_subscribed_once hrun).mpr fun hboth => hdispatched hboth.1⟩

/-- The offer and the login notice have both come before their messages are dispatched. -/
def crossed : List Event :=
  [.dispatch 0 false, .dispatch 0 false, .connect, .read (cstr "<message:b:pp_initiate:data>"), .read (cstr "<login:b>")] ++
    List.replicate 5 (.dispatch 0 false)

/-- The target channel is connected twice, and of the two monitors the first is not the stored one. -/
theorem crossed_subscribed_twice :
    ∃ p, Machine.run step (Login true (cstr "a") (cstr "b")) crossed = some p ∧ p.connections = 2 ∧
      p.monitors = [0, 1] ∧ p.monitor_ = some 1 ∧ ¬ p.SubscribedOnce := by
  obtain ⟨p, hrun⟩ := Option.isSome_iff_exists.mp
    (show (Machine.run step (Login true (cstr "a") (cstr "b")) crossed).isSome = true by decide)
  have hend : (Machine.run step (Login true (cstr "a") (cstr "b")) crossed).all
      (fun p => p.connections = 2 ∧ p.monitors = [0, 1] ∧ p.monitor_ = some 1) = true := by decide
  rw [hrun, Option.all_some, decide_eq_true_iff] at hend
  obtain ⟨hconnections, hmonitors, hstored⟩ := hend
  refine ⟨p, hrun, hconnections, hmonitors, hstored, fun honce => ?_⟩
  have hle := honce.connections
  omega

end IceProber

end ProbICE
