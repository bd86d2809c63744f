import ProbICE.Theorems.Channels

/-! # What a refused message leaves behind

A handler that returns false has mostly not begun. There are two exceptions, since a candidate can only be looked
at by a transport that has its channels: a transport message has then completed the negotiation of its content, and
an accept for a content without a proxy has been taken as an accept. -/

namespace ProbICE

section
variable [Host]

/-! ### Candidates that have been given -/

namespace TransportProxy

/-- What the proxy and its transport have been given is the same. -/
def SameCandidates (p p' : TransportProxy) : Prop :=
  p'.transport.worker = p.transport.worker ∧ p'.unsent_candidates = p.unsent_candidates

theorem SameCandidates.trans {p p' p'' : TransportProxy} (h : p.SameCandidates p') (h' : p'.SameCandidates p'') :
    p.SameCandidates p'' :=
  ⟨h'.1.trans h.1, h'.2.trans h.2⟩

theorem sameCandidates_GetOrCreateImpl (p : TransportProxy) (name : CString) : p.SameCandidates (p.GetOrCreateImpl name).1 := by
  unfold GetOrCreateImpl
  split <;> exact ⟨rfl, rfl⟩

theorem sameCandidates_SetProxyImpl (p : TransportProxy) (name : CString) : p.SameCandidates (p.SetProxyImpl name).1 := by
  refine (p.sameCandidates_GetOrCreateImpl name).trans ?_
  unfold SetProxyImpl Emit.andThen
  simp only
  split
  · refine ⟨?_, rfl⟩
    show ((p.GetOrCreateImpl name).1.transport.DestroyChannel name).1.worker = _
    unfold Transport.DestroyChannel
    split <;> rfl
  · exact ⟨rfl, rfl⟩

theorem sameCandidates_CompleteNegotiation (p : TransportProxy) : p.SameCandidates p.CompleteNegotiation.1 := by
  unfold CompleteNegotiation
  split
  · exact ⟨rfl, rfl⟩
  · have hforEach : p.SameCandidates (Emit.forEach SetProxyImpl { p with state := .negotiated } p.channels.keys).1 :=
      Emit.forEach_keeps (P := p.SameCandidates) (fun q name _ h => h.trans (q.sameCandidates_SetProxyImpl name)) ⟨rfl, rfl⟩
    refine hforEach.trans ⟨?_, rfl⟩
    show (Emit.forEach SetProxyImpl { p with state := .negotiated } p.channels.keys).1.transport.ConnectChannels.1.worker = _
    unfold Transport.ConnectChannels
    split <;> rfl

theorem CompleteNegotiation_of_negotiated {p : TransportProxy} (h : p.state = .negotiated) : p.CompleteNegotiation = (p, []) :=
  if_pos h

end TransportProxy

namespace PPSession

/-! ### Three ways to be refused -/

/-- The session is the one before. Only an `ASSERT` may have failed. -/
def Unchanged (s t : PPSession) : Prop := ∃ es, t = { s with out := s.out ++ es } ∧ ∀ e ∈ es, ∃ a, e = .assertFailed a

/-- The session is the one before but for the proxy of the content. That one has completed its negotiation, and its
    transport has been given nothing. -/
structure Completed (content : CString) (s t : PPSession) : Prop where
  fields : t = { s with transports := t.transports, out := t.out }
  proxies : ∀ j : CString, t.transports[j]? =
    (s.transports[j]?).map fun p => if j = content then p.CompleteNegotiation.1 else p
  candidates : ∀ (j : CString) p p', s.transports[j]? = some p → t.transports[j]? = some p' → p.SameCandidates p'
  signals : t.signals = s.signals

/-- The session has taken the accept. No proxy has changed but for the candidates that it has sent. -/
structure AcceptTaken (L : PPSession → PPSession) (s t : PPSession) : Prop where
  taken : t = ({ s.SendAllUnsentTransportInfoMessages with remote_description := true } : PPSession).SetState L .receivedAccept
  content_name : t.content_name = s.content_name
  proxies : s.SameProxies t

section refused
variable (s : PPSession)

theorem unchanged_refl : s.Unchanged s := ⟨[], by simp, by simp⟩

theorem unchanged_emit (a : Assertion) : s.Unchanged (s.emit (.assertFailed a)) := ⟨[.assertFailed a], rfl, by simp⟩

theorem unchanged_badPorts (is : List Nat) : s.Unchanged (is.foldl (fun s _ => s.emit (.assertFailed .portFits)) s) :=
  ⟨_, s.foldl_badPorts is, by simp⟩

/-- Candidates are refused behind the negotiation and before they are given to the transport. -/
theorem OnRemoteCandidates_of_refused {p2pInfo : P2PInfo} (h : (s.OnRemoteCandidates p2pInfo).2 = false) :
    (s.OnRemoteCandidates p2pInfo).1 = s.onProxy p2pInfo.content_name TransportProxy.CompleteNegotiation := by
  rcases hp : s.transports[p2pInfo.content_name]? with _ | p
  · have hget : s.GetTransportProxy p2pInfo.content_name = none := hp
    rw [onProxy_of_none s _ hp]
    simp [OnRemoteCandidates, hget]
  · have hget : s.GetTransportProxy p2pInfo.content_name = some p := hp
    simp only [OnRemoteCandidates, hget] at h ⊢
    split
    · rfl
    · rename_i t ht
      simp only [ht] at h
      split at h
      · cases h
      · rename_i hno
        rw [if_neg hno]

theorem completed_onProxy (content : CString) :
    Completed content s (s.onProxy content TransportProxy.CompleteNegotiation) := by
  have hproxies : ∀ j : CString, (s.onProxy content TransportProxy.CompleteNegotiation).transports[j]? =
      (s.transports[j]?).map fun p => if j = content then p.CompleteNegotiation.1 else p := by
    intro j
    rw [transports_onProxy]
    by_cases hj : j = content
    · simp [hj]
    · simp [hj]
  refine ⟨?_, hproxies, fun j p p' hp hp' => ?_, (s.sameBut_onProxy content TransportProxy.quiet_CompleteNegotiation).signals⟩
  · unfold onProxy
    split <;> rfl
  · rw [hproxies, hp, Option.map_some] at hp'
    obtain rfl := Option.some.inj hp'
    split
    · exact p.sameCandidates_CompleteNegotiation
    · exact ⟨rfl, rfl⟩

/-- A content whose proxy is negotiated, or that has none, stays as it is. -/
theorem onProxy_CompleteNegotiation_of_negotiated {content : CString}
    (h : ∀ p, s.transports[content]? = some p → p.state = .negotiated) :
    s.onProxy content TransportProxy.CompleteNegotiation = s := by
  rcases hp : s.transports[content]? with _ | p
  · exact onProxy_of_none s content hp
  · exact onProxy_self s content hp (TransportProxy.CompleteNegotiation_of_negotiated (h p hp))

/-- A transport message is refused for its content or for one of its candidates. -/
theorem OnTransportInfoMessage_of_refused {msg : PPMessage} (h : (s.OnTransportInfoMessage msg).2 = false) :
    ∃ content, msg.argvs[0]? = some content ∧
      (s.Unchanged (s.OnTransportInfoMessage msg).1 ∨
        ∃ p, s.transports[content]? = some p ∧ p.state ≠ .negotiated ∧ Completed content s (s.OnTransportInfoMessage msg).1) := by
  rcases hcontent : msg.argvs[0]? with _ | content
  · simp [OnTransportInfoMessage, withContent, hcontent] at h
  · obtain ⟨candidates, hdecode⟩ := Option.isSome_iff_exists.mp (decodeCandidates_isSome msg.argvs)
    refine ⟨content, rfl, ?_⟩
    have hports := s.unchanged_badPorts (badPorts msg.argvs)
    obtain ⟨hsame, htransports⟩ := s.sameBut_badPorts (badPorts msg.argvs)
    simp only [OnTransportInfoMessage, withContent, hcontent, hdecode] at h ⊢
    rw [OnRemoteCandidates_of_refused _ h]
    simp only
    generalize (badPorts msg.argvs).foldl (fun s _ => s.emit (.assertFailed .portFits)) s = s₁ at hports hsame htransports
    by_cases hnegotiated : ∀ p, s.transports[content]? = some p → p.state = .negotiated
    · refine .inl ?_
      rwa [onProxy_CompleteNegotiation_of_negotiated s₁ (by rwa [htransports])]
    · obtain ⟨p, hp, hstate⟩ : ∃ p, s.transports[content]? = some p ∧ p.state ≠ .negotiated := by simpa using hnegotiated
      refine .inr ⟨p, hp, hstate, ?_⟩
      have hcompleted := s₁.completed_onProxy content
      obtain ⟨es, rfl, -⟩ := hports
      exact ⟨hcompleted.fields, hcompleted.proxies, hcompleted.candidates, hcompleted.signals.trans hsame.signals⟩

section listeners
variable {s} {L : PPSession → PPSession} (hL : Listener L)
include hL

/-- An initiate message in `init` is not refused, since its content gets a proxy. -/
theorem OnInitiateMessage_not_refused (hstate : s.state = .init) (msg : PPMessage) : (s.OnInitiateMessage L msg).2 = true := by
  rw [s.OnInitiateMessage_eq L hstate]
  rcases hcontent : msg.argvs[0]? with _ | content
  · simp [withContent, hcontent]
  · simp only [withContent, hcontent]
    split
    · set s₁ : PPSession := { s with content_name := content, remote_description := true, pending_candidates := true }
      set s₂ := s₁.GetOrCreateTransportProxy content
      have hinit : s₂.state = .init := (s₁.sameBut_GetOrCreateTransportProxy content).state.trans hstate
      have hcarries := carries_after_change (Listener.answers hL) (s := s₂) (by simp [hinit])
        (by decide : SessionState.receivedInitiate ≠ .init)
      have hp : s₂.transports[content]? = some (s₁.proxyOrNew content) := by
        show (s₁.GetOrCreateTransportProxy content).transports[content]? = _
        rw [transports_GetOrCreateTransportProxy, if_pos rfl]
      obtain ⟨q, hq, -⟩ := hcarries.transports.symm.proxy hp
      have hvalid := ((s₂.SetState L .receivedInitiate).OnRemoteCandidates_spec { content_name := content, candidates := [] }).1
      refine hvalid.trans ?_
      simp only
      rw [hq]
      rfl
    · rfl

/-- An accept message that is not refused for its state is refused for its content. -/
theorem OnAcceptMessage_of_refused {msg : PPMessage} (hstate : s.state = .sentInitiate)
    (h : (s.OnAcceptMessage L msg).2 = false) :
    ∃ content, msg.argvs[0]? = some content ∧ s.transports[content]? = none ∧ AcceptTaken L s (s.OnAcceptMessage L msg).1 := by
  have hsent := carries_SendAllUnsent (s := s) (by simp [hstate])
  have hchange := carries_SetState (Listener.answers hL)
    (s := { s.SendAllUnsentTransportInfoMessages with remote_description := true }) hsent.state
    (by decide : SessionState.receivedAccept ≠ .init) (by decide) (by simp)
  have hproxies : s.SameProxies (({ s.SendAllUnsentTransportInfoMessages with remote_description := true } :
      PPSession).SetState L .receivedAccept) :=
    fun k => (hchange.transports k).trans (hsent.transports k)
  rw [s.OnAcceptMessage_eq L hstate] at h ⊢
  rcases hcontent : msg.argvs[0]? with _ | content
  · simp [withContent, hcontent] at h
  · refine ⟨content, rfl, ?_⟩
    simp only [withContent, hcontent] at h ⊢
    generalize ht : ({ s.SendAllUnsentTransportInfoMessages with remote_description := true } : PPSession).SetState L
      .receivedAccept = t at h hchange hproxies ⊢
    split at h
    · rename_i hreject
      rw [if_pos hreject]
      have hvalid := (t.OnRemoteCandidates_spec { content_name := content, candidates := [] }).1
      rw [h] at hvalid
      have hnone : t.transports[content]? = none := by
        rcases hp : t.transports[content]? with _ | p
        · rfl
        · simp [hp, Acceptable] at hvalid
      have hnone' : s.transports[content]? = none := by
        rcases hp : s.transports[content]? with _ | p
        · rfl
        · obtain ⟨q, hq, -⟩ := hproxies.symm.proxy hp
          rw [hnone] at hq
          cases hq
      rw [OnRemoteCandidates_of_refused _ h, onProxy_of_none _ _ hnone]
      exact ⟨hnone', ht.symm, hchange.content_name.trans hsent.content_name, hproxies⟩
    · cases h

end listeners

end refused

/-- What the handler of an incoming message leaves behind and returns. -/
def answer (L : PPSession → PPSession) (s : PPSession) (msg : PPMessage) : PPSession × Bool :=
  match msg.type with
  | .sessionInitiate => s.OnInitiateMessage L msg
  | .sessionInfo => s.OnInfoMessage msg
  | .sessionAccept => s.OnAcceptMessage L msg
  | .sessionReject => s.OnRejectMessage L msg
  | .sessionTerminate => s.OnTerminateMessage L msg
  | .transportInfo => s.OnTransportInfoMessage msg
  | .other => (s, false)

theorem OnIncomingMessage_answer (L : PPSession → PPSession) (s : PPSession) (msg : PPMessage) :
    s.OnIncomingMessage L msg =
      if (s.answer L msg).2 then (s.answer L msg).1 else (s.answer L msg).1.emit (.errorMessage msg) := rfl

theorem withContent_not_refused (s : PPSession) (msg : PPMessage) {rest : CString → PPSession × Bool}
    (hrest : ∀ content, (rest content).2 = true) : (s.withContent msg rest).2 = true := by
  unfold withContent
  split
  · exact hrest _
  · rfl

/-- A refused message changes nothing, unless it is a transport message for a content whose negotiation it has
    completed, or an accept that was asked for and names a content without a proxy. -/
theorem refused_message {L : PPSession → PPSession} (hL : Listener L) {s : PPSession} {msg : PPMessage}
    (h : (s.answer L msg).2 = false) :
    s.Unchanged (s.answer L msg).1 ∨
      ∃ content, msg.argvs[0]? = some content ∧
        ((msg.type = .transportInfo ∧ (∃ p, s.transports[content]? = some p ∧ p.state ≠ .negotiated) ∧
            Completed content s (s.answer L msg).1) ∨
          (msg.type = .sessionAccept ∧ s.state = .sentInitiate ∧ s.transports[content]? = none ∧
            AcceptTaken L s (s.answer L msg).1)) := by
  unfold answer at h ⊢
  cases htype : msg.type with
  | sessionInitiate =>
    rw [htype] at h
    by_cases hstate : s.state = .init
    · rw [show (s.OnInitiateMessage L msg).2 = true from OnInitiateMessage_not_refused hL hstate msg] at h
      cases h
    · simp only [s.OnInitiateMessage_refused hstate]
      exact .inl (s.unchanged_emit .expectedState)
  | sessionInfo =>
    rw [htype] at h
    rw [show (s.OnInfoMessage msg).2 = true from s.withContent_not_refused msg fun _ => rfl] at h
    cases h
  | sessionAccept =>
    rw [htype] at h
    by_cases hstate : s.state = .sentInitiate
    · obtain ⟨content, hcontent, hnone, htaken⟩ := OnAcceptMessage_of_refused hL hstate h
      exact .inr ⟨content, hcontent, .inr ⟨rfl, hstate, hnone, htaken⟩⟩
    · simp only [s.OnAcceptMessage_refused hstate]
      exact .inl (s.unchanged_emit .expectedState)
  | sessionReject =>
    rw [htype] at h
    by_cases hstate : s.state = .sentInitiate
    · simp [s.OnRejectMessage_eq L hstate] at h
    · simp only [s.OnRejectMessage_refused hstate]
      exact .inl (s.unchanged_emit .expectedState)
  | sessionTerminate =>
    rw [htype] at h
    rw [show (s.OnTerminateMessage L msg).2 = true from s.withContent_not_refused msg fun _ => rfl] at h
    cases h
  | transportInfo =>
    rw [htype] at h
    obtain ⟨content, hcontent, hsame | ⟨p, hp, hstate, hcompleted⟩⟩ := s.OnTransportInfoMessage_of_refused h
    · exact .inl hsame
    · exact .inr ⟨content, hcontent, .inl ⟨rfl, ⟨p, hp, hstate⟩, hcompleted⟩⟩
  | other => exact .inl s.unchanged_refl

end PPSession

end

/-! ### Refused messages that leave something behind -/

namespace PPSession
attribute [local instance] Host.plain

/-- A session that has been called by nobody. -/
def fresh : PPSession := (new true).run [.createChannel (cstr "data") (cstr "prober")]

/-- A candidate without an address. -/
def offered : PPMessage where
  type := .transportInfo
  argvs := ["data", "prober", "udp", "1", "0.0.0.0", "0", "user", "password", "local", "eth0", "0"].map cstr

/-- A session that waits for an accept. -/
def waiting : PPSession := fresh.callLocal id (.initiate (cstr "data"))

/-- An accept for a content that the session does not have. -/
def acceptOther : PPMessage where
  type := .sessionAccept
  argvs := [cstr "other"]

theorem not_unchanged_offered : ¬ fresh.Unchanged (fresh.answer id offered).1 := by
  rintro ⟨es, heq, -⟩
  have hstate := congrArg (fun t : PPSession => (t.transports[cstr "data"]?).map TransportProxy.state) heq
  revert hstate
  show ((fresh.answer id offered).1.transports[cstr "data"]?).map TransportProxy.state =
    (fresh.transports[cstr "data"]?).map TransportProxy.state → False
  decide

theorem refused_message_offered : Completed (cstr "data") fresh (fresh.answer id offered).1 := by
  rcases refused_message listener_id (show (fresh.answer id offered).2 = false by decide) with
    hsame | ⟨content, hcontent, ⟨-, -, hcompleted⟩ | ⟨htype, -⟩⟩
  · exact absurd hsame not_unchanged_offered
  · obtain rfl : cstr "data" = content := by simpa [offered] using hcontent
    exact hcompleted
  · cases htype

/-- A refused candidate has started the negotiation, and a refused accept has changed the state. -/
theorem refused_messages_change :
    ((fresh.answer id offered).2 = false ∧ ¬ fresh.Unchanged (fresh.answer id offered).1) ∧
      (waiting.answer id acceptOther).2 = false ∧ ¬ waiting.Unchanged (waiting.answer id acceptOther).1 := by
  refine ⟨⟨by decide, not_unchanged_offered⟩, by decide, ?_⟩
  rintro ⟨es, heq, -⟩
  have hstate := congrArg PPSession.state heq
  revert hstate
  show (waiting.answer id acceptOther).1.state = waiting.state → False
  decide

end PPSession

end ProbICE
