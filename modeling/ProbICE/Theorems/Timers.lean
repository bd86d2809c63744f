import ProbICE.SessionTimer
import ProbICE.Theorems.Bounds
import ProbICE.Theorems.Channels

/-! # One timer for the session

Whenever the session looks at its transport it clears the timer, and it posts a new one when the transport is not
writable. It looks at the transport when connecting is signalled and when `writable()` has changed, so the timer is there
as long as it is needed. -/

namespace ProbICE

/-- How many `MSG_TIMEOUT` are pending after an effect of the session. -/
def timer (n : Nat) : SessionEffect → Nat
  | .clearTimeout => 0
  | .postTimeout => n + 1
  | _ => n

section
variable [Host]

theorem Transport.hasChannels_of_hasChannel {t : Transport} {name : CString} (h : t.HasChannel name = true) :
    t.HasChannels = true := by
  have hmem : name ∈ t.channels := Std.ExtTreeMap.mem_iff_isSome_getElem?.mpr h
  have hne := Std.ExtTreeMap.isEmpty_eq_false_iff.mpr (Std.ExtTreeMap.ne_empty_of_mem hmem)
  rw [HasChannels, hne]
  rfl

/-! ### The session -/

namespace PPSession

/-- The transport of the content `k` has the channel `name`, and its `writable()` is `w`. -/
def Has (s : PPSession) (k name : CString) (w : Bool) : Prop :=
  ∃ t, s.GetTransport k = some t ∧ t.HasChannel name = true ∧ t.writable = w

variable {s : PPSession} {k name : CString} {w : Bool}

/-- An operation on the transport of the content. -/
theorem Has.onProxy (h : s.Has k name w) {v : Bool} {f : TransportProxy → TransportProxy × List TransportEffect}
    (hf : ∀ p : TransportProxy, s.GetTransport k = some p.transport → p.transport.HasChannel name = true →
      p.transport.writable = w → (f p).1.transport.HasChannel name = true ∧ (f p).1.transport.writable = v) :
    (s.onProxy k f).Has k name v := by
  obtain ⟨t, ht, hchannel, hw⟩ := h
  have htransport := ht
  rw [GetTransport, Option.map_eq_some_iff] at ht
  obtain ⟨p, hp, rfl⟩ := ht
  obtain ⟨hchannel', hw'⟩ := hf p htransport hchannel hw
  refine ⟨(f p).1.transport, ?_, hchannel', hw'⟩
  rw [GetTransport, GetTransportProxy, transports_onProxy, if_pos rfl, show s.transports[k]? = some p from hp]
  rfl

omit [Host] in
/-- No effect of a transport is about the timer. -/
theorem foldl_timer_ofContent (n : Nat) (es : List TransportEffect) :
    (es.map (TransportEffect.ofContent k)).foldl timer n = n := by
  induction es generalizing n with
  | nil => rfl
  | cons e es ih =>
    rw [List.map_cons, List.foldl_cons]
    cases e <;> exact ih n

theorem timer_onProxy (f : TransportProxy → TransportProxy × List TransportEffect) (n : Nat) :
    (s.onProxy k f).out.foldl timer n = s.out.foldl timer n := by
  rcases hp : s.transports[k]? with _ | p
  · rw [onProxy_of_none s k hp]
  · rw [onProxy_of_some s k hp, List.foldl_append, foldl_timer_ofContent]

theorem timer_emit (e : SessionEffect) (n : Nat) : (s.emit e).out.foldl timer n = timer (s.out.foldl timer n) e := by
  rw [PPSession.emit, List.foldl_append]
  rfl

/-- The timer is posted anew when the transport is not writable. -/
theorem OnTransportWritable_timer (h : s.Has k name w) (n : Nat) :
    (s.OnTransportWritable k).Has k name w ∧ (s.OnTransportWritable k).out.foldl timer n = if w then 0 else 1 := by
  obtain ⟨t, ht, hchannel, rfl⟩ := h
  have hhas : s.Has k name t.writable := ⟨t, ht, hchannel, rfl⟩
  rw [OnTransportWritable, ht]
  simp only
  split
  · rename_i hnot
    refine ⟨hhas, ?_⟩
    rw [timer_emit, timer_emit, if_neg hnot.2]
    rfl
  · rename_i hnot
    have hw : t.writable = true := by
      by_contra hw
      exact hnot ⟨Transport.hasChannels_of_hasChannel hchannel, hw⟩
    refine ⟨hhas, ?_⟩
    rw [timer_emit, if_pos hw]
    rfl

theorem OnTransportCandidatesReady_timer (h : s.Has k name w) (candidates : List Candidate) (n : Nat) :
    (s.OnTransportCandidatesReady k candidates).Has k name w ∧
      (s.OnTransportCandidatesReady k candidates).out.foldl timer n = s.out.foldl timer n := by
  unfold OnTransportCandidatesReady
  split
  · exact ⟨h, rfl⟩
  · split
    · exact ⟨h.onProxy fun p _ hchannel hw => ⟨hchannel, hw⟩, timer_onProxy _ n⟩
    · exact ⟨h, timer_emit _ n⟩

/-- What the dispatch of a message of the transport does to the timer: it is as it was, or it has been set anew, as it is
    when connecting is signalled or `writable()` has changed. -/
theorem OnTransportMessage_timer (h : s.Has k name w) (hout : s.out = []) (task : TransportTask) (n : Nat) :
    ∃ w', (s.OnTransportMessage k task).Has k name w' ∧
      (((task ≠ .connecting ∧ w' = w) ∧ (s.OnTransportMessage k task).out.foldl timer n = n) ∨
        (s.OnTransportMessage k task).out.foldl timer n = if w' then 0 else 1) := by
  have hhas := h
  obtain ⟨t, ht, hchannel, rfl⟩ := h
  cases task with
  | connecting =>
    simp only [OnTransportMessage, ht]
    exact ⟨t.writable, (OnTransportWritable_timer hhas n).1, .inr (OnTransportWritable_timer hhas n).2⟩
  | candidateReady =>
    have hproxy := hhas.onProxy (v := t.writable) (f := fun p =>
      ({ p with transport := p.transport.OnChannelCandidateReady_s.1 }, p.transport.OnChannelCandidateReady_s.2.1))
      fun p _ hchannel hw => ⟨hchannel, hw⟩
    refine ⟨t.writable, ?_⟩
    simp only [OnTransportMessage, ht]
    split
    · refine ⟨hproxy, .inl ⟨⟨by decide, trivial⟩, ?_⟩⟩
      rw [timer_onProxy, hout]
      rfl
    · obtain ⟨hready, htimer⟩ := OnTransportCandidatesReady_timer hproxy t.ready_candidates n
      refine ⟨hready, .inl ⟨⟨by decide, trivial⟩, ?_⟩⟩
      rw [htimer, timer_onProxy, hout]
      rfl
  | writeState =>
    have hproxy := hhas.onProxy (v := t.GetTransportState_s)
      (f := fun p => ({ p with transport := p.transport.OnChannelWritableState_s.1 }, []))
      fun p hp hchannel _ => ⟨hchannel, by rw [Option.some.inj (ht.symm.trans hp)]; rfl⟩
    refine ⟨t.GetTransportState_s, ?_⟩
    simp only [OnTransportMessage, ht]
    split
    · exact ⟨(OnTransportWritable_timer hproxy n).1, .inr (OnTransportWritable_timer hproxy n).2⟩
    · rename_i hsame
      refine ⟨hproxy, .inl ⟨⟨by decide, ?_⟩, ?_⟩⟩
      · by_contra hne
        exact hsame (decide_eq_true (Ne.symm hne))
      · rw [timer_onProxy, hout]
        rfl
  | requestSignaling =>
    simp only [OnTransportMessage, ht]
    refine ⟨t.writable, hhas, .inl ⟨⟨by decide, rfl⟩, ?_⟩⟩
    rw [timer_emit, hout]
    rfl

theorem OnWorkerEvent_timer (h : s.Has k name w) (e : WorkerEvent) (n : Nat) :
    (s.OnWorkerEvent k e).Has k name w ∧ (s.OnWorkerEvent k e).out.foldl timer n = s.out.foldl timer n := by
  refine ⟨h.onProxy fun p _ hchannel hw => ?_, timer_onProxy _ n⟩
  cases e with
  | candidateReady candidate => exact ⟨hchannel, hw⟩
  | writableState j writable =>
    exact ⟨(Transport.HasChannel_OnChannelWritableState p.transport j writable name).trans hchannel, hw⟩
  | requestSignaling => exact ⟨hchannel, hw⟩

theorem Has.OnSignalingReady (h : s.Has k name w) : s.OnSignalingReady.Has k name w := by
  obtain ⟨t, ht, hchannel, hw⟩ := h
  have hkeep : t.OnSignalingReady.HasChannel name = t.HasChannel name ∧ t.OnSignalingReady.writable = t.writable := by
    unfold Transport.OnSignalingReady
    split <;> exact ⟨rfl, rfl⟩
  rw [GetTransport, Option.map_eq_some_iff] at ht
  obtain ⟨p, hp, rfl⟩ := ht
  refine ⟨p.transport.OnSignalingReady, ?_, hkeep.1.trans hchannel, hkeep.2.trans hw⟩
  rw [GetTransport, GetTransportProxy, PPSession.OnSignalingReady, Std.ExtTreeMap.getElem?_map,
    show s.transports[k]? = some p from hp]
  rfl

end PPSession

/-! ### The prober -/

namespace IceProber

/-- Every effect of the session has been handled, and it has the transport of the content `k` with the channel `name`. -/
def Has (p : IceProber) (k name : CString) (w : Bool) : Prop := ∃ s, p.session = some s ∧ s.out = [] ∧ s.Has k name w

theorem timeouts_onOutgoingMessage (p : IceProber) (msg : PPMessage) : (p.onOutgoingMessage msg).timeouts = p.timeouts := by
  have hloop : ∀ (sigs : List Signal) (q : IceProber), (sigs.foldl onPeerOutput q).timeouts = q.timeouts := by
    intro sigs
    induction sigs with
    | nil => exact fun _ => rfl
    | cons sig sigs ih =>
      intro q
      rw [List.foldl_cons, ih]
      cases sig <;> rfl
  unfold onOutgoingMessage
  split
  · rfl
  · exact hloop _ _

theorem timeouts_onSessionEffect (p : IceProber) (e : SessionEffect) :
    (p.onSessionEffect e).timeouts = timer p.timeouts e := by
  cases e with
  | outgoingMessage msg => exact p.timeouts_onOutgoingMessage msg
  | stateChanged state k =>
    cases state with
    | receivedInitiate =>
      rw [onSessionEffect, onStateChanged]
      split <;> rfl
    | _ => rfl
  | requestSignaling =>
    rw [onSessionEffect, onSignalRequest]
    split <;> rfl
  | _ => rfl

theorem timeouts_afterSession (p : IceProber) (u : PPSession) :
    (p.afterSession u).timeouts = u.out.foldl timer p.timeouts := by
  have hloop : ∀ (es : List SessionEffect) (q : IceProber),
      (es.foldl onSessionEffect q).timeouts = es.foldl timer q.timeouts := by
    intro es
    induction es with
    | nil => exact fun _ => rfl
    | cons e es ih =>
      intro q
      rw [List.foldl_cons, List.foldl_cons, ih, timeouts_onSessionEffect]
  exact hloop u.out _

theorem has_afterSession {u : PPSession} {k name : CString} {w : Bool} (h : u.Has k name w) (p : IceProber) :
    (p.afterSession u).Has k name w := by
  obtain ⟨s, hs, hout, hhas⟩ := session_afterSession (P := fun s => s.out = [] ∧ s.Has k name w) u ⟨rfl, h⟩
    (fun _ ⟨hout, hv⟩ => ⟨hout, hv.OnSignalingReady⟩) p
  exact ⟨s, hs, hout, hhas⟩

theorem Has.transportWritable {p : IceProber} {k name : CString} {w : Bool} (h : p.Has k name w) :
    p.transportWritable k = w := by
  obtain ⟨s, hs, -, t, ht, -, rfl⟩ := h
  simp [IceProber.transportWritable, hs, ht]

end IceProber

/-! ### Runs -/

namespace SessionTimer

/-- There is one timer at most, only while the transport is not writable, and then always, unless it has run out since
    there was reason to set it. -/
structure Watched (k : CString) (r : SessionTimer) : Prop where
  one : r.prober.timeouts ≤ 1
  unwritable : 0 < r.prober.timeouts → r.prober.transportWritable k = false
  watched : r.signalled = true → r.prober.transportWritable k = false → 0 < r.prober.timeouts ∨ r.delivered = true

/-- A step of a run, told by what it does to `writable()` and to the timer. -/
theorem step_cases {k name : CString} {w : Bool} {r r' : SessionTimer} {e : Event} (h : r.prober.Has k name w)
    (hstep : r.step k e = some r') : ∃ w', r'.prober.Has k name w' ∧
      ((w' = w ∧ r'.signalled = r.signalled ∧ r'.delivered = r.delivered ∧ r'.prober.timeouts = r.prober.timeouts) ∨
        (r'.prober.timeouts = if w' then 0 else 1) ∨
        (w' = w ∧ r'.signalled = r.signalled ∧ r'.delivered = true ∧ r'.prober.timeouts = r.prober.timeouts - 1)) := by
  have hbit := h.transportWritable
  obtain ⟨s, hs, hout, hhas⟩ := h
  cases e with
  | dispatch task =>
    obtain rfl := Option.some.inj hstep
    have hcall : r.prober.dispatch false (.transport k task) = r.prober.afterSession (s.OnTransportMessage k task) := by
      simp [IceProber.dispatch, IceProber.callSession, hs]
    obtain ⟨w', hhas', hcases⟩ := PPSession.OnTransportMessage_timer hhas hout task r.prober.timeouts
    rw [← IceProber.timeouts_afterSession, ← hcall] at hcases
    have h' := IceProber.has_afterSession hhas' r.prober
    rw [← hcall] at h'
    refine ⟨w', h', ?_⟩
    obtain ⟨⟨hne, rfl⟩, htimeouts⟩ | htimeouts := hcases
    · exact .inl ⟨rfl, by simp [hne], by simp [hne, hbit, h'.transportWritable], htimeouts⟩
    · exact .inr (.inl htimeouts)
  | worker e =>
    obtain ⟨prober, hprober, rfl⟩ := Option.map_eq_some_iff.mp hstep
    obtain ⟨-, hprober⟩ := Option.ite_none_right_eq_some.mp hprober
    obtain rfl := Option.some.inj hprober
    have hcall : r.prober.callSession (fun s => s.OnWorkerEvent k e) = r.prober.afterSession (s.OnWorkerEvent k e) := by
      simp [IceProber.callSession, hs]
    obtain ⟨hhas', htimer⟩ := PPSession.OnWorkerEvent_timer hhas e r.prober.timeouts
    rw [hout, ← IceProber.timeouts_afterSession, ← hcall] at htimer
    exact ⟨w, by rw [hcall]; exact IceProber.has_afterSession hhas' r.prober, .inl ⟨rfl, rfl, rfl, htimer⟩⟩
  | timeout =>
    obtain ⟨prober, hprober, rfl⟩ := Option.map_eq_some_iff.mp hstep
    obtain ⟨-, hprober⟩ := Option.ite_none_right_eq_some.mp hprober
    obtain rfl := Option.some.inj hprober
    have hcall : { r.prober with timeouts := r.prober.timeouts - 1 }.callSession PPSession.OnTimeoutMessage =
        { r.prober with timeouts := r.prober.timeouts - 1 }.afterSession s.OnTimeoutMessage := by
      simp [IceProber.callSession, hs]
    have hhas' : s.OnTimeoutMessage.Has k name w := hhas
    have htimer := IceProber.timeouts_afterSession { r.prober with timeouts := r.prober.timeouts - 1 } s.OnTimeoutMessage
    rw [← hcall, PPSession.OnTimeoutMessage, PPSession.timer_emit, hout] at htimer
    exact ⟨w, by rw [hcall]; exact IceProber.has_afterSession hhas' _, .inr (.inr ⟨rfl, rfl, rfl, htimer⟩)⟩

theorem Watched.step {k name : CString} {w : Bool} {r r' : SessionTimer} {e : Event} (hw : r.Watched k)
    (h : r.prober.Has k name w) (hstep : r.step k e = some r') : r'.Watched k ∧ ∃ w', r'.prober.Has k name w' := by
  obtain ⟨w', h', hcases⟩ := step_cases h hstep
  refine ⟨?_, w', h'⟩
  have hbit := h.transportWritable
  have hbit' := h'.transportWritable
  obtain ⟨one, unwritable, watched⟩ := hw
  rw [hbit] at unwritable watched
  obtain ⟨rfl, hsignalled, hdelivered, htimeouts⟩ | htimeouts | ⟨rfl, hsignalled, hdelivered, htimeouts⟩ := hcases
  · constructor
    · rwa [htimeouts]
    · rwa [htimeouts, hbit']
    · rwa [hsignalled, hbit', htimeouts, hdelivered]
  · -- the timer has been set anew
    cases w' with
    | true => exact ⟨by simp [htimeouts], by simp [htimeouts], by simp [hbit']⟩
    | false => exact ⟨by simp [htimeouts], by simp [hbit'], by simp [htimeouts]⟩
  · -- the timer has run out
    constructor
    · omega
    · rw [htimeouts, hbit']
      exact fun hpos => unwritable (by omega)
    · exact fun _ _ => .inr hdelivered

/-- In every state of every run there is at most one `MSG_TIMEOUT`, there is one only while the transport is not
    writable, and after connecting has been signalled there is one while the transport is not writable, or it has been
    delivered since. -/
theorem session_timer {prober : IceProber} {s : PPSession} {t : Transport} {k name : CString}
    (hsession : prober.session = some s) (hout : s.out = []) (ht : s.GetTransport k = some t)
    (hchannel : t.HasChannel name = true) (htimeouts : prober.timeouts = 0) {es : List Event} {r : SessionTimer}
    (hrun : run k (init prober) es = some r) : r.Watched k := by
  have hstart : (init prober).Watched k ∧ ∃ w, (init prober).prober.Has k name w :=
    ⟨⟨by simp [init, htimeouts], by simp [init, htimeouts], by simp [init]⟩, t.writable, s, hsession, hout, t, ht, hchannel,
      rfl⟩
  exact (Machine.run_keeps (I := fun r => r.Watched k ∧ ∃ w, r.prober.Has k name w)
    (fun r r' e _ ⟨hw, w, h⟩ hstep => hw.step h hstep) hstart hrun).1

end SessionTimer

end

section
attribute [local instance] Host.plain

namespace SessionTimer

/-- A prober that has made its session and has sent an initiate message. -/
def initiating : IceProber := (IceProber.Login true (cstr "a") (cstr "b")).createSession_s.doInitiate_s

/-- Connecting is signalled, the channel becomes writable and unwritable again, and the time runs out. -/
def outage : List Event :=
  [.dispatch .connecting, .worker (.writableState (cstr "prober") true), .dispatch .writeState,
    .worker (.writableState (cstr "prober") false), .dispatch .writeState, .timeout]

theorem session_timer_outage : ∃ r, run (cstr "data") (init initiating) outage = some r ∧ r.Watched (cstr "data") := by
  have hset : initiating.session.any (fun s => decide (s.out = []) &&
      (s.GetTransport (cstr "data")).any fun t => t.HasChannel (cstr "prober")) = true := by decide
  obtain ⟨s, hs, hset⟩ := (Option.any_eq_true _ _).mp hset
  obtain ⟨r, hrun⟩ := Option.isSome_iff_exists.mp
    (show (run (cstr "data") (init initiating) outage).isSome = true by decide)
  rw [Bool.and_eq_true, decide_eq_true_iff, Option.any_eq_true] at hset
  obtain ⟨hout, t, ht, hchannel⟩ := hset
  exact ⟨r, hrun, session_timer hs hout ht hchannel (by decide) hrun⟩

end SessionTimer

end

end ProbICE
