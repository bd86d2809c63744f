import Mathlib.Logic.Relation
import ProbICE.Theorems.Channels

/-! # The operations that a proxy goes through

Whatever happens to a session, its proxies only go through operations of a few kinds. What each of these operations
keeps, every event of a session keeps. -/

namespace ProbICE
variable [Host]

namespace TransportProxy

/-- An operation of a session on one of its proxies. `Initiate` alone connects the channels before the negotiation, so
    this operation counts only where it `connects`. -/
inductive Operation (connects : Prop) : TransportProxy → TransportProxy → Prop where
  | createChannel (p : TransportProxy) (name : CString) : Operation connects p (p.CreateChannel name).1
  | connect (p : TransportProxy) (h : connects) : Operation connects p p.SpeculativelyConnectChannels.1
  | complete (p : TransportProxy) : Operation connects p p.CompleteNegotiation.1
  | remoteCandidates (p : TransportProxy) (candidates : List Candidate) :
    Operation connects p { p with transport := p.transport.OnRemoteCandidates candidates }
  | unsent (p : TransportProxy) (candidates : List Candidate) :
    Operation connects p { p with unsent_candidates := candidates }
  | signalingReady (p : TransportProxy) : Operation connects p { p with transport := p.transport.OnSignalingReady }
  | candidatesReady (p : TransportProxy) :
    Operation connects p { p with transport := p.transport.OnChannelCandidateReady_s.1 }
  | writeState (p : TransportProxy) :
    Operation connects p { p with transport := p.transport.OnChannelWritableState_s.1 }
  | candidateReady (p : TransportProxy) (candidate : Candidate) :
    Operation connects p { p with transport := (p.transport.OnChannelCandidateReady candidate).1 }
  | writableState (p : TransportProxy) (name : CString) (writable : Bool) :
    Operation connects p { p with transport := (p.transport.OnChannelWritableState name writable).1 }

/-- From `p` to `p'` by any number of operations. -/
abbrev Lives (connects : Prop) : TransportProxy → TransportProxy → Prop := Relation.ReflTransGen (Operation connects)

theorem Operation.mono {connects connects' : Prop} (himp : connects → connects') {p p' : TransportProxy}
    (h : Operation connects p p') : Operation connects' p p' := by
  cases h with
  | createChannel name => exact .createChannel p name
  | connect h => exact .connect p (himp h)
  | complete => exact .complete p
  | remoteCandidates candidates => exact .remoteCandidates p candidates
  | unsent candidates => exact .unsent p candidates
  | signalingReady => exact .signalingReady p
  | candidatesReady => exact .candidatesReady p
  | writeState => exact .writeState p
  | candidateReady candidate => exact .candidateReady p candidate
  | writableState name writable => exact .writableState p name writable

theorem Lives.mono {connects connects' : Prop} (himp : connects → connects') {p p' : TransportProxy}
    (h : Lives connects p p') : Lives connects' p p' :=
  Relation.ReflTransGen.mono (fun _ _ hop => Operation.mono himp hop) _ _ h

/-- What each operation keeps, a life of a proxy keeps. -/
theorem Lives.keeps {connects : Prop} {I : TransportProxy → Prop} (hI : ∀ p p', I p → Operation connects p p' → I p')
    {p p' : TransportProxy} (h : Lives connects p p') (hp : I p) : I p' := by
  induction h with
  | refl => exact hp
  | tail _ hop ih => exact hI _ _ ih hop

theorem lives_takeCandidates (connects : Prop) (p : TransportProxy) (candidates : List Candidate) :
    Lives connects p (PPSession.takeCandidates p candidates) := by
  have hcomplete : Lives connects p p.CompleteNegotiation.1 := .single (.complete p)
  unfold PPSession.takeCandidates
  simp only
  split
  · exact hcomplete.tail (.remoteCandidates _ candidates)
  · exact hcomplete

theorem lives_onWorkerEvent (connects : Prop) (p : TransportProxy) (e : PPSession.WorkerEvent) :
    Lives connects p (p.onTransport fun t =>
      match e with
      | .candidateReady candidate => t.OnChannelCandidateReady candidate
      | .writableState name writable => t.OnChannelWritableState name writable
      | .requestSignaling => (t, [.post .requestSignaling])).1 := by
  cases e with
  | candidateReady candidate => exact .single (.candidateReady p candidate)
  | writableState name writable => exact .single (.writableState p name writable)
  | requestSignaling => exact .refl

end TransportProxy

namespace PPSession
open TransportProxy (Lives)

/-- From `s` to `t` every proxy has gone through operations, and new proxies have been made. -/
structure Operates (connects : Prop) (s t : PPSession) : Prop where
  kept : ∀ (k : CString) p, s.transports[k]? = some p → ∃ p', t.transports[k]? = some p' ∧ Lives connects p p'
  made : ∀ (k : CString) p', s.transports[k]? = none → t.transports[k]? = some p' →
    ∃ allow, Lives connects (.new k (.new allow)) p'

section relations
variable {connects : Prop} {s t u : PPSession}

/-- The proxies of `t` come from those of `s`, content by content. -/
theorem operates_of_map {g : CString → TransportProxy → TransportProxy}
    (h : ∀ k : CString, t.transports[k]? = (s.transports[k]?).map (g k)) (hg : ∀ k p, Lives connects p (g k p)) :
    s.Operates connects t where
  kept k p hp := ⟨g k p, by rw [h, hp, Option.map_some], hg k p⟩
  made k p' hnone hp' := by
    rw [h, hnone] at hp'
    cases hp'

theorem operates_of_same (h : t.transports = s.transports) : s.Operates connects t :=
  operates_of_map (g := fun _ p => p) (fun k => by rw [h, Option.map_id']) fun _ _ => .refl

theorem Operates.refl (connects : Prop) (s : PPSession) : s.Operates connects s := operates_of_same rfl

theorem Operates.trans (h : s.Operates connects t) (h' : t.Operates connects u) : s.Operates connects u where
  kept k p hp := by
    obtain ⟨q, hq, hlives⟩ := h.kept k p hp
    obtain ⟨p', hp', hlives'⟩ := h'.kept k q hq
    exact ⟨p', hp', hlives.trans hlives'⟩
  made k p' hnone hp' := by
    rcases hq : t.transports[k]? with _ | q
    · exact h'.made k p' hq hp'
    · obtain ⟨allow, hlives⟩ := h.made k q hnone hq
      obtain ⟨p'', hp'', hlives'⟩ := h'.kept k q hq
      obtain rfl := Option.some.inj (hp''.symm.trans hp')
      exact ⟨allow, hlives.trans hlives'⟩

theorem Operates.mono {connects' : Prop} (himp : connects → connects') (h : s.Operates connects t) :
    s.Operates connects' t where
  kept k p hp := by
    obtain ⟨p', hp', hlives⟩ := h.kept k p hp
    exact ⟨p', hp', TransportProxy.Lives.mono himp hlives⟩
  made k p' hnone hp' := by
    obtain ⟨allow, hlives⟩ := h.made k p' hnone hp'
    exact ⟨allow, TransportProxy.Lives.mono himp hlives⟩

/-- Proxies that differ in nothing but the candidates that wait to be sent. -/
theorem SameProxies.operates (h : s.SameProxies t) : s.Operates connects t := by
  have hclear : ∀ p p' : TransportProxy, p'.ClearUnsentCandidates = p.ClearUnsentCandidates →
      p' = { p with unsent_candidates := p'.unsent_candidates } := by
    rintro ⟨_, _, _, _, _⟩ ⟨_, _, _, _, _⟩ heq
    simp only [TransportProxy.ClearUnsentCandidates, TransportProxy.mk.injEq] at heq ⊢
    exact ⟨heq.1, heq.2.1, heq.2.2.1, heq.2.2.2.1, trivial⟩
  refine ⟨fun k p hp => ?_, fun k p' hnone hp' => ?_⟩
  · have hk := h k
    rw [hp, Option.map_some, Option.map_eq_some_iff] at hk
    obtain ⟨p', hp', heq⟩ := hk
    exact ⟨p', hp', hclear p p' heq ▸ .single (.unsent p _)⟩
  · have hk := h k
    rw [hnone, hp'] at hk
    cases hk

theorem Carries.operates (h : s.Carries t) : s.Operates connects t := h.transports.operates

/-- A property of proxies that every operation keeps. -/
theorem Operates.keeps {I : TransportProxy → Prop} (hnew : ∀ k allow, I (.new k (.new allow)))
    (hI : ∀ p p', I p → TransportProxy.Operation connects p p' → I p') (h : s.Operates connects t)
    (hs : ∀ (k : CString) p, s.transports[k]? = some p → I p) : ∀ (k : CString) p, t.transports[k]? = some p → I p := by
  intro k p' hp'
  rcases hp : s.transports[k]? with _ | p
  · obtain ⟨allow, hlives⟩ := h.made k p' hp hp'
    exact TransportProxy.Lives.keeps hI hlives (hnew k allow)
  · obtain ⟨p'', hp'', hlives⟩ := h.kept k p hp
    obtain rfl := Option.some.inj (hp''.symm.trans hp')
    exact TransportProxy.Lives.keeps hI hlives (hs k p hp)

end relations

/-! ### The functions of a session -/

section functions
variable {connects : Prop} (s : PPSession)

theorem operates_onProxy (k : CString) {f : TransportProxy → TransportProxy × List TransportEffect}
    (hf : ∀ p, Lives connects p (f p).1) : s.Operates connects (s.onProxy k f) := by
  refine operates_of_map (g := fun j p => if j = k then (f p).1 else p) (fun j => ?_) fun j p => ?_
  · rw [transports_onProxy]
    split
    · rename_i hj
      rw [hj]
    · rw [Option.map_id']
  · split
    · exact hf p
    · exact .refl

theorem operates_GetOrCreateTransportProxy (k : CString) : s.Operates connects (s.GetOrCreateTransportProxy k) where
  kept j p hp := by
    refine ⟨p, ?_, .refl⟩
    rw [transports_GetOrCreateTransportProxy]
    split
    · rename_i hj
      rw [proxyOrNew, ← hj, hp, Option.getD_some]
    · exact hp
  made j p' hnone hp' := by
    rw [transports_GetOrCreateTransportProxy] at hp'
    split at hp'
    · rename_i hj
      refine ⟨s.allow_local_ips, ?_⟩
      rw [← Option.some.inj hp', proxyOrNew, ← hj, hnone, Option.getD_none]
    · rw [hnone] at hp'
      cases hp'

theorem operates_CreateTransportProxies (p2pInfo : P2PInfo) : s.Operates connects (s.CreateTransportProxies p2pInfo) :=
  (operates_of_same (s := s) (t := { s with pending_candidates := true }) rfl).trans
    (operates_GetOrCreateTransportProxy _ p2pInfo.content_name)

theorem operates_CreateChannel (k name : CString) : s.Operates connects (s.CreateChannel k name) :=
  (s.operates_GetOrCreateTransportProxy k).trans (operates_onProxy _ k fun p => .single (.createChannel p name))

theorem operates_OnRemoteCandidates (p2pInfo : P2PInfo) : s.Operates connects (s.OnRemoteCandidates p2pInfo).1 := by
  refine operates_of_map (s.OnRemoteCandidates_spec p2pInfo).2 fun k p => ?_
  split
  · exact p.lives_takeCandidates connects p2pInfo.candidates
  · exact .refl

theorem operates_OnTransportCandidatesReady (k : CString) (candidates : List Candidate) :
    s.Operates connects (s.OnTransportCandidatesReady k candidates) := by
  unfold OnTransportCandidatesReady
  split
  · exact .refl connects s
  · split
    · exact s.operates_onProxy k fun p => .single (.unsent p _)
    · exact operates_of_same rfl

theorem operates_OnTransportWritable (k : CString) : s.Operates connects (s.OnTransportWritable k) := by
  refine operates_of_same ?_
  unfold OnTransportWritable
  split
  · rfl
  · dsimp only
    split <;> rfl

theorem operates_OnTransportMessage (k : CString) (task : TransportTask) :
    s.Operates connects (s.OnTransportMessage k task) := by
  unfold OnTransportMessage
  split
  · exact .refl connects s
  · exact s.operates_OnTransportWritable k
  · have hproxy : s.Operates connects (s.onProxy k fun p =>
        ({ p with transport := p.transport.OnChannelCandidateReady_s.1 }, p.transport.OnChannelCandidateReady_s.2.1)) :=
      s.operates_onProxy k fun p => .single (.candidatesReady p)
    dsimp only
    split
    · exact hproxy
    · exact hproxy.trans (operates_OnTransportCandidatesReady _ k _)
  · have hproxy : s.Operates connects
        (s.onProxy k fun p => ({ p with transport := p.transport.OnChannelWritableState_s.1 }, [])) :=
      s.operates_onProxy k fun p => .single (.writeState p)
    dsimp only
    split
    · exact hproxy.trans (operates_OnTransportWritable _ k)
    · exact hproxy
  · exact operates_of_same rfl

theorem operates_OnSignalingReady : s.Operates connects s.OnSignalingReady :=
  operates_of_map (g := fun _ p => { p with transport := p.transport.OnSignalingReady })
    (fun k => by simp [OnSignalingReady]) fun _ p => .single (.signalingReady p)

theorem operates_SpeculativelyConnectAll : s.Operates True s.SpeculativelyConnectAllTransportChannels :=
  operates_of_map s.transports_SpeculativelyConnectAll fun _ p => .single (.connect p trivial)

theorem operates_withContent (msg : PPMessage) {rest : CString → PPSession × Bool}
    (hrest : ∀ content, s.Operates connects (rest content).1) : s.Operates connects (s.withContent msg rest).1 := by
  unfold withContent
  split
  · exact hrest _
  · exact operates_of_same rfl

theorem operates_OnTransportInfoMessage (msg : PPMessage) : s.Operates connects (s.OnTransportInfoMessage msg).1 := by
  refine s.operates_withContent msg fun content => ?_
  split
  · exact operates_of_same rfl
  · exact (operates_of_same (s.sameBut_badPorts _).2).trans (operates_OnRemoteCandidates _ _)

section listeners
variable {L : PPSession → PPSession} (hL : Answers L)
include hL

theorem operates_SetState {state : SessionState} (hinit : state ≠ .init) : s.Operates connects (s.SetState L state) := by
  by_cases hne : state = s.state
  · rw [SetState, if_pos hne]
    exact .refl connects s
  · exact (operates_of_same (s := s) (t := { s with state }.emit (.stateChanged state s.content_name)) rfl).trans
      (carries_after_change hL hne hinit).operates

/-- `Initiate` up to where it connects the channels. -/
theorem operates_before_connect (content : CString) : s.Operates connects
    (((({ s with content_name := content, local_description := true } : PPSession).CreateTransportProxies
      { content_name := content, candidates := [] }).emit
        (.outgoingMessage { type := .sessionInitiate, argvs := [content] })).SetState L .sentInitiate) := by
  have hname : s.Operates connects { s with content_name := content, local_description := true } := operates_of_same rfl
  have hproxies := hname.trans (operates_CreateTransportProxies _ { content_name := content, candidates := [] })
  have hsent := hproxies.trans (operates_of_same (t := PPSession.emit _
    (.outgoingMessage { type := .sessionInitiate, argvs := [content] })) rfl)
  exact hsent.trans (operates_SetState _ hL (by decide : SessionState.sentInitiate ≠ .init))

theorem operates_Initiate (content : CString) : s.Operates (s.state = .init) (s.Initiate L content).1 := by
  by_cases hstate : s.state = .init
  · rw [Initiate, if_neg (by simpa using hstate)]
    exact (s.operates_before_connect hL content).trans ((operates_SpeculativelyConnectAll _).mono fun _ => hstate)
  · rw [s.Initiate_refused hstate]
    exact .refl _ s

/-- No other call connects the channels before the negotiation. -/
theorem operates_callLocal (c : LocalCall) : s.Operates (s.state = .init ∧ ∃ content, c = .initiate content) (s.callLocal L c) := by
  by_cases hstate : s.state = .init
  · refine callLocal_of_init (P := s.Operates _) hstate c (fun content hc => ?_) (.refl _ s) ?_
    · exact (s.operates_Initiate hL content).mono fun h => ⟨h, content, hc⟩
    · have hemit : s.Operates (s.state = .init ∧ ∃ content, c = .initiate content)
          (s.emit (.outgoingMessage { type := .sessionTerminate, argvs := [] })) := operates_of_same rfl
      exact hemit.trans (operates_SetState _ hL (by decide : SessionState.sentTerminate ≠ .init))
  · exact (carries_callLocal hL hstate c).operates

theorem operates_OnInitiateMessage (msg : PPMessage) : s.Operates connects (s.OnInitiateMessage L msg).1 := by
  by_cases hstate : s.state = .init
  · rw [s.OnInitiateMessage_eq L hstate]
    refine s.operates_withContent msg fun content => ?_
    have hname : s.Operates connects { s with content_name := content, remote_description := true } := operates_of_same rfl
    have hproxies := hname.trans (operates_CreateTransportProxies _ { content_name := content, candidates := [] })
    have hchange := hproxies.trans (operates_SetState _ hL (by decide : SessionState.receivedInitiate ≠ .init))
    dsimp only
    split
    · exact hchange.trans (operates_OnRemoteCandidates _ _)
    · exact hchange
  · rw [s.OnInitiateMessage_refused hstate]
    exact operates_of_same rfl

theorem operates_OnAcceptMessage (msg : PPMessage) : s.Operates connects (s.OnAcceptMessage L msg).1 := by
  by_cases hstate : s.state = .sentInitiate
  · rw [s.OnAcceptMessage_eq L hstate]
    refine s.operates_withContent msg fun content => ?_
    have hsent : s.Operates connects s.SendAllUnsentTransportInfoMessages :=
      (carries_SendAllUnsent (by simp [hstate])).operates
    have hremote := hsent.trans
      (operates_of_same (t := { s.SendAllUnsentTransportInfoMessages with remote_description := true }) rfl)
    have hchange := hremote.trans (operates_SetState _ hL (by decide : SessionState.receivedAccept ≠ .init))
    dsimp only
    split
    · exact hchange.trans (operates_OnRemoteCandidates _ _)
    · exact hchange
  · rw [s.OnAcceptMessage_refused hstate]
    exact operates_of_same rfl

theorem operates_OnRejectMessage (msg : PPMessage) : s.Operates connects (s.OnRejectMessage L msg).1 := by
  by_cases hstate : s.state = .sentInitiate
  · rw [s.OnRejectMessage_eq L hstate]
    exact s.operates_SetState hL (by decide)
  · rw [s.OnRejectMessage_refused hstate]
    exact operates_of_same rfl

theorem operates_OnIncomingMessage (msg : PPMessage) : s.Operates connects (s.OnIncomingMessage L msg) := by
  refine report_keeps (P := s.Operates connects) (fun _ ht => ht.trans (operates_of_same rfl)) _ ?_
  cases msg.type with
  | sessionInitiate => exact s.operates_OnInitiateMessage hL msg
  | sessionInfo => exact s.operates_withContent msg fun _ => operates_of_same rfl
  | sessionAccept => exact s.operates_OnAcceptMessage hL msg
  | sessionReject => exact s.operates_OnRejectMessage hL msg
  | sessionTerminate =>
    exact s.operates_withContent msg fun reason =>
      (operates_of_same (s := s) (t := s.emit (.receivedTerminateReason reason)) rfl).trans
        (operates_SetState _ hL (by decide : SessionState.receivedTerminate ≠ .init))
  | transportInfo => exact s.operates_OnTransportInfoMessage msg
  | other => exact .refl connects s

theorem operates_OnStateMessage : s.Operates connects (s.OnStateMessage L) := by
  unfold OnStateMessage
  split
  · exact s.operates_SetState hL (by decide)
  · exact s.operates_SetState hL (by decide)
  · exact .refl connects s

end listeners

/-- The listeners of an event only call the session. -/
def Listens : SessionEvent → Prop
  | .call L _ | .state L | .incoming L _ => Listener L
  | _ => True

theorem listens_of_proper {e : SessionEvent} (he : e.Proper) : Listens e := by
  cases e with
  | incoming L msg => exact he.1
  | call L c => exact he
  | state L => exact he
  | _ => trivial

theorem listens_of_enabled {e : SessionEvent} (he : s.Enabled e) : Listens e := by
  cases e with
  | incoming L msg => exact he
  | call L c => exact he
  | state L => exact he
  | _ => trivial

/-- Where no session is initiated, no event connects the channels before the negotiation. -/
theorem operates_handle {e : SessionEvent} (he : Listens e) :
    s.Operates (s.state = .init ∧ ∃ L content, e = .call L (.initiate content)) (s.handle e) := by
  cases e with
  | call L c =>
    refine (s.operates_callLocal (Listener.answers he) c).mono ?_
    rintro ⟨hstate, content, rfl⟩
    exact ⟨hstate, L, content, rfl⟩
  | incoming L msg => exact s.operates_OnIncomingMessage (Listener.answers he) msg
  | state L => exact s.operates_OnStateMessage (Listener.answers he)
  | timeout => exact operates_of_same rfl
  | transport k task => exact s.operates_OnTransportMessage k task
  | candidatesReady k candidates => exact s.operates_OnTransportCandidatesReady k candidates
  | worker k e => exact s.operates_onProxy k fun p => p.lives_onWorkerEvent _ e
  | createChannel k name => exact s.operates_CreateChannel k name
  | signalingReady => exact s.operates_OnSignalingReady

theorem operates_run {es : List SessionEvent} (hes : ∀ e ∈ es, e.Proper) : s.Operates True (s.run es) := by
  induction es generalizing s with
  | nil => exact .refl True s
  | cons e es ih =>
    have hfirst := s.operates_handle (listens_of_proper (hes e List.mem_cons_self))
    exact (hfirst.mono fun _ => trivial).trans (ih _ fun x hx => hes x (List.mem_cons_of_mem _ hx))

end functions

end PPSession

end ProbICE
