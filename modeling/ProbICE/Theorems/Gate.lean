import ProbICE.Theorems.Channels
import ProbICE.Theorems.Transitions

/-! # The gate in front of the negotiation

A proxy leaves `init` when its session initiates, when a message is taken that starts the negotiation, and also
when a transport message comes early or names another content. As long as none of the latter happens, the effects of
a session show that everything came in its order. -/

namespace ProbICE

namespace SessionEffect

/-- An initiate for the content has been sent or taken. -/
def tells (k : CString) : SessionEffect → Bool
  | outgoingMessage msg => msg.type = .sessionInitiate ∧ msg.argvs[0]? = some k
  | stateChanged state name => state = .receivedInitiate ∧ name = k
  | _ => false

/-- The effect has no part in the negotiation. -/
def isAside : SessionEffect → Bool
  | outgoingMessage _ | stateChanged _ _ | assertFailed .notNegotiated => false
  | _ => true

theorem not_tells_of_isAnswer {e : SessionEffect} (h : e.isAnswer = true) (k : CString) : e.tells k = false := by
  cases e with
  | outgoingMessage msg => simp_all [isAnswer, tells]
  | stateChanged state name => simp_all [isAnswer, tells]
  | _ => rfl

theorem not_tells_of_isAside {e : SessionEffect} (h : e.isAside = true) (k : CString) : e.tells k = false := by
  cases e with
  | outgoingMessage msg => cases h
  | stateChanged state name => cases h
  | _ => rfl

end SessionEffect

/-- The effects show an initiate for the content. -/
def Told (log : List SessionEffect) (k : CString) : Prop := ∃ e ∈ log, e.tells k = true

theorem Told.mono {log log' : List SessionEffect} {k : CString} (h : Told log k) (hfront : log <+: log') : Told log' k := by
  obtain ⟨e, he, htells⟩ := h
  exact ⟨e, hfront.subset he, htells⟩

theorem told_append_iff {log es : List SessionEffect} {k : CString} (hes : ∀ e ∈ es, e.tells k = false) :
    Told (log ++ es) k ↔ Told log k := by
  refine ⟨fun ⟨e, he, htells⟩ => ⟨e, (List.mem_append.mp he).resolve_right fun hmem => ?_, htells⟩,
    fun h => h.mono (List.prefix_append _ _)⟩
  rw [hes e hmem] at htells
  cases htells

theorem AcceptSent.mono {log log' : List SessionEffect} (h : AcceptSent log) (hfront : log <+: log') : AcceptSent log' := by
  obtain ⟨msg, hmem, htype⟩ := h
  exact ⟨msg, hfront.subset hmem, htype⟩

/-- What a session may do after what it has done: transport messages go out after an accept, and no negotiated
    proxy is connected anew. -/
def InTurn (heard : Prop) (before : List SessionEffect) : SessionEffect → Prop
  | .outgoingMessage msg => msg.type = .transportInfo → AcceptSent before ∨ heard
  | .assertFailed a => a ≠ .notNegotiated
  | _ => True

theorem inTurn_of_isAside {heard : Prop} {before : List SessionEffect} {e : SessionEffect} (h : e.isAside = true) :
    InTurn heard before e := by
  cases e with
  | outgoingMessage msg => cases h
  | assertFailed a =>
    rintro rfl
    cases h
  | _ => trivial

theorem inTurn_of_isAnswer {heard : Prop} {before : List SessionEffect} (haccept : AcceptSent before ∨ heard)
    {e : SessionEffect} (h : e.isAnswer = true) : InTurn heard before e := by
  cases e with
  | outgoingMessage msg => exact fun _ => haccept
  | assertFailed a => cases h
  | _ => trivial

section
variable [Host]

namespace PPSession

/-! ### Changes that are not part of the negotiation -/

/-- From `s` to `t` nothing about the negotiation has changed. -/
structure Idles (s t : PPSession) : Prop where
  state : t.state = s.state
  pending_candidates : t.pending_candidates = s.pending_candidates
  proxies : ∀ (k : CString) p, t.transports[k]? = some p →
    (∃ p', s.transports[k]? = some p' ∧ p'.Stays p) ∨ p.state = .init ∧ p.transport.connect_requested = false
  out : ∃ es, t.out = s.out ++ es ∧ ∀ e ∈ es, e.isAside = true

section idles
variable {s t u : PPSession}

theorem Idles.refl (s : PPSession) : s.Idles s :=
  ⟨rfl, rfl, fun _ p hp => .inl ⟨p, hp, rfl, rfl⟩, [], by simp, by simp⟩

theorem Idles.trans (h : s.Idles t) (h' : t.Idles u) : s.Idles u where
  state := h'.state.trans h.state
  pending_candidates := h'.pending_candidates.trans h.pending_candidates
  proxies k p hp := by
    rcases h'.proxies k p hp with ⟨q, hq, hstays⟩ | hinit
    · rcases h.proxies k q hq with ⟨r, hr, hstays'⟩ | ⟨hinit, hconnect⟩
      · exact .inl ⟨r, hr, hstays'.trans hstays⟩
      · exact .inr ⟨hstays.1.trans hinit, hstays.2.trans hconnect⟩
    · exact .inr hinit
  out := Journal.grown_trans h.out h'.out

theorem idles_emit (s : PPSession) {e : SessionEffect} (he : e.isAside = true) : s.Idles (s.emit e) :=
  ⟨rfl, rfl, fun _ p hp => .inl ⟨p, hp, rfl, rfl⟩, [e], rfl, by simpa using he⟩

omit [Host] in
theorem isAside_ofContent {k : CString} {e : TransportEffect} (he : e ≠ .assertFailed .notNegotiated) :
    (e.ofContent k).isAside = true := by
  cases e with
  | post task => rfl
  | assertFailed a =>
    cases a with
    | notNegotiated => exact absurd rfl he
    | _ => rfl

theorem idles_onProxy (s : PPSession) (k : CString) {f : TransportProxy → TransportProxy × List TransportEffect}
    (hf : ∀ p : TransportProxy, p.Stays (f p).1 ∧ .assertFailed .notNegotiated ∉ (f p).2) : s.Idles (s.onProxy k f) := by
  rcases hp : s.transports[k]? with _ | p
  · rw [onProxy_of_none s k hp]
    exact .refl s
  · have htransports := s.transports_onProxy k (f := f)
    rw [onProxy_of_some s k hp] at htransports ⊢
    refine ⟨rfl, rfl, fun j q hq => .inl ?_, _, rfl, fun e he => ?_⟩
    · rw [htransports, hp] at hq
      split at hq
      · rename_i hj
        obtain rfl := Option.some.inj hq
        exact ⟨p, hj ▸ hp, (hf p).1⟩
      · exact ⟨q, hq, rfl, rfl⟩
    · obtain ⟨e', he', rfl⟩ := List.mem_map.mp he
      exact isAside_ofContent fun heq => (hf p).2 (heq ▸ he')

theorem idles_GetOrCreateTransportProxy (s : PPSession) (k : CString) : s.Idles (s.GetOrCreateTransportProxy k) := by
  have hsame := s.sameBut_GetOrCreateTransportProxy k
  refine ⟨hsame.state, hsame.pending_candidates, fun j p hp => ?_, [], ?_, by simp⟩
  · rw [transports_GetOrCreateTransportProxy] at hp
    split at hp
    · rename_i hj
      obtain rfl := Option.some.inj hp
      unfold proxyOrNew
      rcases hk : s.transports[k]? with _ | q
      · exact .inr ⟨rfl, rfl⟩
      · exact .inl ⟨q, hj ▸ hk, rfl, rfl⟩
    · exact .inl ⟨p, hp, rfl, rfl⟩
  · rw [out_GetOrCreateTransportProxy, List.append_nil]

theorem idles_OnTransportWritable (s : PPSession) (k : CString) : s.Idles (s.OnTransportWritable k) := by
  unfold OnTransportWritable
  split
  · exact .refl s
  · simp only
    split
    · exact (s.idles_emit rfl).trans (idles_emit _ rfl)
    · exact s.idles_emit rfl

theorem notNegotiated_not_mem_CreateChannel (p : TransportProxy) (name : CString) :
    .assertFailed .notNegotiated ∉ (p.CreateChannel name).2 := by
  have hfailed : .assertFailed .notNegotiated ∉
      (if (p.GetChannel name).isSome then [.assertFailed .newChannel] else []) ++
        if p.transport.HasChannel name then [TransportEffect.assertFailed .newImpl] else [] := by
    simp only [List.mem_append, not_or]
    constructor <;> split <;> simp
  intro hmem
  rcases List.mem_append.mp hmem with hmem | hmem
  · exact hfailed hmem
  · have hsets : ∀ {es : List TransportEffect}, Sets es → .assertFailed .notNegotiated ∉ es := by
      intro es hes hin
      obtain ⟨task, htask⟩ | hgone := hes _ hin
      · cases htask
      · cases hgone
    simp only at hmem
    split at hmem
    · exact hsets (TransportProxy.sets_SetProxyImpl _ name) hmem
    · exact hsets (sets_of_posts (TransportProxy.posts_GetOrCreateImpl _ name)) hmem
    · cases hmem

end idles

/-! ### The invariant -/

/-- The effects of a session tell about its proxies, and everything came in turn. -/
structure Gated (heard : Prop) (s : PPSession) : Prop where
  log : Journal.Valid (InTurn heard) s.out
  /-- A proxy that has left `init` has been told. -/
  left : ∀ (k : CString) p, s.transports[k]? = some p → p.state ≠ .init → Told s.out k
  connects : ∀ (k : CString) p, s.transports[k]? = some p → p.transport.connect_requested = true → p.state ≠ .init
  first : s.state = .init → ∀ k, ¬ Told s.out k
  /-- Candidates are kept back from the first initiate to the accept. -/
  pending : ∀ k, Told s.out k → s.pending_candidates = false → AcceptSent s.out ∨ heard

theorem gated_new (heard : Prop) (allow_local_ips : Bool) : (new allow_local_ips).Gated heard where
  log := Journal.valid_nil
  left := by simp [new]
  connects := by simp [new]
  first _ k := by simp [Told, new]
  pending k := by simp [Told, new]

section gated
variable {heard : Prop} {s t : PPSession}

theorem prefix_of_out {es : List SessionEffect} (h : t.out = s.out ++ es) : s.out <+: t.out := ⟨es, h.symm⟩

theorem Gated.idles (h : s.Gated heard) (hst : s.Idles t) : t.Gated heard := by
  obtain ⟨es, hes, hall⟩ := hst.out
  have htold : ∀ k, Told t.out k ↔ Told s.out k := fun k =>
    hes ▸ told_append_iff fun e he => SessionEffect.not_tells_of_isAside (hall e he) k
  constructor
  · rw [hes]
    exact h.log.append fun e he _ _ => inTurn_of_isAside (hall e he)
  · intro k p hp hleft
    rw [htold]
    rcases hst.proxies k p hp with ⟨q, hq, hstays⟩ | hinit
    · exact h.left k q hq (hstays.1 ▸ hleft)
    · exact absurd hinit.1 hleft
  · intro k p hp hconnect
    rcases hst.proxies k p hp with ⟨q, hq, hstays⟩ | hinit
    · rw [hstays.1]
      exact h.connects k q hq (hstays.2 ▸ hconnect)
    · rw [hinit.2] at hconnect
      cases hconnect
  · intro hinit k
    rw [htold]
    exact h.first (hst.state ▸ hinit) k
  · intro k hk hpending
    exact (h.pending k ((htold k).mp hk) (hst.pending_candidates ▸ hpending)).imp_left (·.mono (prefix_of_out hes))

/-- The proxies are those of a gated session, and what has come to the effects tells nothing new. -/
theorem Gated.of_proxies (h : s.Gated heard) (hproxies : s.SameProxies t) {es : List SessionEffect}
    (hout : t.out = s.out ++ es) (htells : ∀ e ∈ es, ∀ k, e.tells k = false) (hlog : Journal.Valid (InTurn heard) t.out)
    (hinit : t.state = .init → s.state = .init)
    (hpending : ∀ k, Told s.out k → t.pending_candidates = false → AcceptSent t.out ∨ heard) : t.Gated heard := by
  have htold : ∀ k, Told t.out k ↔ Told s.out k := fun k => hout ▸ told_append_iff fun e he => htells e he k
  refine ⟨hlog, fun k p hp hleft => ?_, fun k p hp hconnect => ?_, fun hstate k => ?_, fun k hk => ?_⟩
  · obtain ⟨q, hq, hstate, -⟩ := hproxies.proxy hp
    exact (htold k).mpr (h.left k q hq (hstate ▸ hleft))
  · obtain ⟨q, hq, hstate, htransport, -⟩ := hproxies.proxy hp
    exact hstate ▸ h.connects k q hq (htransport ▸ hconnect)
  · rw [htold]
    exact h.first (hinit hstate) k
  · exact hpending k ((htold k).mp hk)

/-- After an accept all answers are in turn. -/
theorem Gated.carries (h : s.Gated heard) (hst : s.Carries t) (haccept : AcceptSent s.out ∨ heard) : t.Gated heard := by
  obtain ⟨es, hes, hall⟩ := hst.out
  refine h.of_proxies hst.transports hes (fun e he => SessionEffect.not_tells_of_isAnswer (hall e he)) ?_
    (fun hinit => absurd hinit hst.state) fun _ _ _ => haccept.imp_left (·.mono (prefix_of_out hes))
  rw [hes]
  exact h.log.append fun e he before hbefore =>
    inTurn_of_isAnswer (haccept.imp_left (·.mono hbefore)) (hall e he)

/-- Fields that have nothing to do with the negotiation. -/
theorem Gated.of_fields (h : s.Gated heard) (hstate : t.state = s.state)
    (hpending : t.pending_candidates = s.pending_candidates) (htransports : t.transports = s.transports)
    (hout : t.out = s.out) : t.Gated heard :=
  h.idles ⟨hstate, hpending, fun _ p hp => .inl ⟨p, htransports ▸ hp, rfl, rfl⟩, [], by simpa using hout, by simp⟩

theorem Gated.emit (h : s.Gated heard) {e : SessionEffect} (he : InTurn heard s.out e) (htells : ∀ k, e.tells k = false) :
    (s.emit e).Gated heard := by
  refine h.of_proxies (fun _ => rfl) rfl (by simpa using htells) (Journal.valid_concat_iff.mpr ⟨h.log, he⟩) id ?_
  exact fun k hk hpending => (h.pending k hk hpending).imp_left (·.mono (List.prefix_append _ _))

/-- The listeners keep the gate. -/
def KeepsGate (heard : Prop) (L : PPSession → PPSession) : Prop := ∀ u : PPSession, u.state ≠ .init → u.Gated heard → (L u).Gated heard

/-- A change of the state other than to `receivedInitiate`. -/
theorem Gated.SetState {L : PPSession → PPSession} (hL : KeepsGate heard L) (h : s.Gated heard) {state : SessionState}
    (hinit : state ≠ .init) (hreceived : state ≠ .receivedInitiate) : (s.SetState L state).Gated heard := by
  unfold PPSession.SetState
  split
  · exact h
  · have hchange : ({ s with state }.emit (.stateChanged state s.content_name)).Gated heard := by
      refine h.of_proxies (fun _ => rfl) rfl ?_ (Journal.valid_concat_iff.mpr ⟨h.log, trivial⟩)
        (fun heq => absurd heq hinit) ?_
      · simpa [SessionEffect.tells] using fun hr => absurd hr hreceived
      · exact fun k hk hpending => (h.pending k hk hpending).imp_left (·.mono (List.prefix_append _ _))
    exact (hL _ hinit hchange).idles (idles_emit _ rfl)

theorem Gated.Accept {L : PPSession → PPSession} (hA : Answers L) (h : s.Gated heard) : (s.Accept L).1.Gated heard := by
  by_cases hstate : s.state = .receivedInitiate
  · set s₁ := { s with local_description := true }.emit (.outgoingMessage { type := .sessionAccept, argvs := [s.content_name] })
      with hs₁
    have hlocal : ({ s with local_description := true } : PPSession).Gated heard := h.of_fields rfl rfl rfl rfl
    have hfirst : s₁.Gated heard := by
      refine hlocal.emit ?_ ?_
      · intro htype
        cases htype
      · exact fun _ => rfl
    have hsent : AcceptSent s₁.out := ⟨{ type := .sessionAccept, argvs := [s.content_name] }, by simp [hs₁, PPSession.emit], rfl⟩
    have hinit : s₁.state ≠ .init := by
      rw [show s₁.state = .receivedInitiate from hstate]
      decide
    have hchange := carries_SetState hA hinit (by decide : SessionState.sentAccept ≠ .init) (by decide) (by simp)
    rw [PPSession.Accept, if_neg (by simpa using hstate)]
    exact hfirst.carries (hchange.trans (carries_SendAllUnsent hchange.state)) (.inl hsent)
  · rwa [s.Accept_refused hstate]

theorem Gated.Reject {L : PPSession → PPSession} (hL : KeepsGate heard L) (h : s.Gated heard) :
    (s.Reject L).1.Gated heard := by
  unfold PPSession.Reject
  split
  · exact h
  · refine Gated.SetState hL (h.emit ?_ fun _ => rfl) (by decide) (by decide)
    intro htype
    cases htype

theorem Gated.TerminateWithReason {L : PPSession → PPSession} (hL : KeepsGate heard L) (h : s.Gated heard) :
    (s.TerminateWithReason L).1.Gated heard := by
  unfold PPSession.TerminateWithReason
  split
  · exact h
  · exact h
  · exact Gated.SetState hL h (by decide) (by decide)
  · exact Gated.SetState hL h (by decide) (by decide)
  · refine Gated.SetState hL (h.emit ?_ fun _ => rfl) (by decide) (by decide)
    intro htype
    cases htype

theorem Calls.keepsGate {s t : PPSession} (hcalls : Calls s t) : s.state ≠ .init → s.Gated heard → t.Gated heard := by
  induction hcalls with
  | nil s => exact fun _ => id
  | call hst hL c ih ihL =>
    intro hinit h
    have ht := ih hinit h
    cases c with
    | initiate content =>
      rw [callLocal, Initiate_refused _ (hst.carries hinit).state]
      exact ht
    | accept => exact ht.Accept (Listener.answers hL)
    | reject => exact Gated.Reject (fun u => ihL u) ht
    | terminate => exact Gated.TerminateWithReason (fun u => ihL u) ht

theorem Listener.keepsGate {L : PPSession → PPSession} (hL : Listener L) : KeepsGate heard L := fun u => (hL u).keepsGate

/-! ### Events -/

/-- The proxy of a content still waits in `init`, and nobody has told it. -/
def Untold (s : PPSession) (k : CString) : Prop := ∃ p, s.transports[k]? = some p ∧ p.state = .init ∧ ¬ Told s.out k

/-- What an event must be for the gate to hold. A transport message, or an accept that is taken, names a content
    whose proxy has been told or that has no proxy, and a session is initiated before it has a proxy that waits for
    another content. -/
def InOrder (s : PPSession) : SessionEvent → Prop
  | .incoming _ msg =>
    msg.type = .transportInfo ∨ msg.type = .sessionAccept ∧ s.state = .sentInitiate →
      ∀ k, msg.argvs[0]? = some k → ¬ s.Untold k
  | .call _ (.initiate content) => s.state = .init → ∀ k, k ≠ content → ¬ s.Untold k
  | _ => True

/-- A step of the negotiation of a content that has been told. -/
theorem Gated.onProxy (h : s.Gated heard) {k : CString} (htold : Told s.out k)
    {f : TransportProxy → TransportProxy × List TransportEffect} (hstate : ∀ p, (f p).1.state ≠ .init)
    (hidle : ∀ p, s.transports[k]? = some p → ∀ e ∈ (f p).2, e ≠ .assertFailed .notNegotiated) :
    (s.onProxy k f).Gated heard := by
  rcases hp : s.transports[k]? with _ | p
  · rwa [onProxy_of_none s _ hp]
  · have htransports := s.transports_onProxy k (f := f)
    rw [onProxy_of_some s _ hp] at htransports ⊢
    have hidle' : ∀ e ∈ (f p).2.map (TransportEffect.ofContent k), e.isAside = true := by
      intro e he
      obtain ⟨e', he', rfl⟩ := List.mem_map.mp he
      exact isAside_ofContent (hidle p hp e' he')
    have hmono : ∀ j, Told s.out j ↔ Told (s.out ++ (f p).2.map (TransportEffect.ofContent k)) j :=
      fun j => (told_append_iff fun e he => SessionEffect.not_tells_of_isAside (hidle' e he) j).symm
    refine ⟨h.log.append fun e he _ _ => inTurn_of_isAside (hidle' e he), fun j q hq hleft => ?_, fun j q hq hconnect => ?_,
      fun hinit j => ?_, fun j hj hpending => ?_⟩
    · rw [← hmono]
      rw [htransports, hp] at hq
      split at hq
      · rename_i hj
        exact hj ▸ htold
      · exact h.left j q hq hleft
    · rw [htransports, hp] at hq
      split at hq
      · obtain rfl := Option.some.inj hq
        exact hstate p
      · exact h.connects j q hq hconnect
    · rw [← hmono]
      exact h.first hinit j
    · exact (h.pending j ((hmono j).mpr hj) hpending).imp_left (·.mono (List.prefix_append _ _))

/-- The negotiation with a content that has been told, or that has no proxy. -/
theorem Gated.OnRemoteCandidates (h : s.Gated heard) {p2pInfo : P2PInfo} (htold : ¬ s.Untold p2pInfo.content_name) :
    (s.OnRemoteCandidates p2pInfo).1.Gated heard := by
  have hnegotiation : (s.onProxy p2pInfo.content_name TransportProxy.CompleteNegotiation).Gated heard := by
    rcases hp : s.transports[p2pInfo.content_name]? with _ | p
    · rwa [onProxy_of_none s _ hp]
    · refine h.onProxy ?_ (fun p => by simp [p.state_CompleteNegotiation]) fun p _ e he => ?_
      · by_contra hno
        by_cases hinit : p.state = .init
        · exact htold ⟨p, hp, hinit, hno⟩
        · exact hno (h.left _ p hp hinit)
      · obtain ⟨task, rfl⟩ | rfl := p.sets_CompleteNegotiation e he
        · simp
        · simp
  unfold PPSession.OnRemoteCandidates
  split
  · exact h
  · simp only
    split
    · exact hnegotiation
    · split
      · refine hnegotiation.idles (idles_onProxy _ _ fun p => ⟨⟨rfl, ?_⟩, by simp⟩)
        exact (p.transport.OnRemoteCandidates_frame p2pInfo.candidates).2
      · exact hnegotiation

/-- Candidates of a transport that has been told to connect go out after an accept only. -/
theorem Gated.OnTransportCandidatesReady (h : s.Gated heard) {k : CString} {p : TransportProxy}
    (hp : s.transports[k]? = some p) (hconnect : p.transport.connect_requested = true) (candidates : List Candidate) :
    (s.OnTransportCandidatesReady k candidates).Gated heard := by
  rw [s.OnTransportCandidatesReady_of_some hp]
  by_cases hpending : s.pending_candidates = true
  · rw [if_pos hpending]
    exact h.idles (idles_onProxy s k fun p => ⟨⟨rfl, rfl⟩, by simp⟩)
  · rw [if_neg hpending]
    refine h.emit (fun _ => ?_) fun _ => rfl
    exact h.pending k (h.left k p hp (h.connects k p hp hconnect)) (by simpa using hpending)

theorem Gated.OnTransportMessage (h : s.Gated heard) (hwired : s.Wired) {k : CString} {task : TransportTask}
    (hposted : .postTransport k task ∈ s.out) : (s.OnTransportMessage k task).Gated heard := by
  unfold PPSession.OnTransportMessage
  split
  · exact h
  · exact h.idles (s.idles_OnTransportWritable k)
  · rename_i t ht
    obtain ⟨p, hp, hconnect⟩ := hwired.posted k hposted
    have hproxy := h.idles (s.idles_onProxy k (f := fun p =>
      ({ p with transport := p.transport.OnChannelCandidateReady_s.1 }, p.transport.OnChannelCandidateReady_s.2.1))
      fun p => ⟨⟨rfl, rfl⟩, by simp only [Transport.OnChannelCandidateReady_s]; split <;> simp⟩)
    simp only
    split
    · exact hproxy
    · refine hproxy.OnTransportCandidatesReady (p := { p with transport := p.transport.OnChannelCandidateReady_s.1 }) ?_ hconnect _
      rw [transports_onProxy, if_pos rfl, hp]
      rfl
  · have hproxy := s.idles_onProxy k (f := fun p => ({ p with transport := p.transport.OnChannelWritableState_s.1 }, []))
      fun p => ⟨⟨rfl, rfl⟩, by simp⟩
    simp only
    split
    · exact h.idles (hproxy.trans (idles_OnTransportWritable _ k))
    · exact h.idles hproxy
  · exact h.idles (s.idles_emit rfl)

/-- All proxies wait. -/
def Waits (s : PPSession) : Prop :=
  ∀ (k : CString) p, s.transports[k]? = some p → p.state = .init ∧ p.transport.connect_requested = false

/-- In `init` all proxies wait, since nobody has been told. -/
theorem Gated.waits (h : s.Gated heard) (hstate : s.state = .init) : s.Waits := by
  intro k p hp
  have hinit : p.state = .init := by
    by_contra hleft
    exact h.first hstate k (h.left k p hp hleft)
  refine ⟨hinit, ?_⟩
  by_contra hconnect
  exact h.connects k p hp (by simpa using hconnect) hinit

theorem Waits.GetOrCreateTransportProxy (h : s.Waits) (k : CString) : (s.GetOrCreateTransportProxy k).Waits := by
  intro j p hp
  rw [transports_GetOrCreateTransportProxy] at hp
  split at hp
  · obtain rfl := Option.some.inj hp
    unfold proxyOrNew
    rcases hk : s.transports[k]? with _ | q
    · exact ⟨rfl, rfl⟩
    · exact h k q hk
  · exact h j p hp

theorem Gated.connectAll (h : s.Gated heard)
    (hall : ∀ (k : CString) p, s.transports[k]? = some p → Told s.out k ∧ p.state ≠ .negotiated) (ks : List CString) :
    (ks.foldl (fun s k => s.onProxy k TransportProxy.SpeculativelyConnectChannels) s).Gated heard := by
  induction ks generalizing s with
  | nil => exact h
  | cons k ks ih =>
    have hgrows : s.out <+: (s.onProxy k TransportProxy.SpeculativelyConnectChannels).out := by
      obtain ⟨es, hes, -⟩ := (s.unmoved_onProxy k TransportProxy.SpeculativelyConnectChannels).out
      exact prefix_of_out hes
    refine ih (s := s.onProxy k TransportProxy.SpeculativelyConnectChannels) ?_ fun j q hq => ?_
    · rcases hp : s.transports[k]? with _ | p
      · rwa [onProxy_of_none s _ hp]
      · refine h.onProxy (hall k p hp).1 (fun p => by simp [p.state_SpeculativelyConnectChannels]) fun q hq e he => ?_
        obtain ⟨task, rfl⟩ := TransportProxy.posts_SpeculativelyConnectChannels (hall k q hq).2 e he
        simp
    · rw [transports_onProxy] at hq
      split at hq
      · rename_i hj
        obtain ⟨p, hp, rfl⟩ := Option.map_eq_some_iff.mp hq
        exact ⟨hj ▸ (hall k p hp).1.mono hgrows, by simp [p.state_SpeculativelyConnectChannels]⟩
      · exact ⟨(hall j q hq).1.mono hgrows, (hall j q hq).2⟩

theorem Gated.withContent (h : s.Gated heard) {msg : PPMessage} {rest : CString → PPSession × Bool}
    (hrest : ∀ content, msg.argvs[0]? = some content → (rest content).1.Gated heard) : (s.withContent msg rest).1.Gated heard := by
  unfold PPSession.withContent
  split
  · rename_i content hcontent
    exact hrest content hcontent
  · exact h.idles (idles_emit _ rfl)

theorem Gated.OnTransportInfoMessage (h : s.Gated heard) {msg : PPMessage}
    (horder : ∀ k, msg.argvs[0]? = some k → ¬ s.Untold k) : (s.OnTransportInfoMessage msg).1.Gated heard := by
  have hports : s.Idles ((badPorts msg.argvs).foldl (fun s _ => s.emit (.assertFailed .portFits)) s) := by
    rw [foldl_badPorts]
    exact ⟨rfl, rfl, fun _ p hp => .inl ⟨p, hp, rfl, rfl⟩, _, rfl, by simp [SessionEffect.isAside]⟩
  have htransports := (s.sameBut_badPorts (badPorts msg.argvs)).2
  refine h.withContent fun content hcontent => ?_
  split
  · exact h.idles (idles_emit _ rfl)
  · refine Gated.OnRemoteCandidates (h.idles hports) fun ⟨p, hp, hinit, hno⟩ => ?_
    obtain ⟨es, hes, -⟩ := hports.out
    simp only [htransports] at hp
    exact horder content hcontent ⟨p, hp, hinit, fun htold => hno (htold.mono (prefix_of_out hes))⟩

section listeners
variable {L : PPSession → PPSession} (hL : Listener L)
include hL

/-- The first change of the state finds proxies that wait, and from now on candidates are kept back. -/
theorem gated_first_change {state : SessionState} (hinit : state ≠ .init) (hstate : s.state = .init)
    (hlog : Journal.Valid (InTurn heard) s.out) (hwaits : s.Waits) (hpending : s.pending_candidates = true) :
    (s.SetState L state).Gated heard := by
  have hchange : ({ s with state }.emit (.stateChanged state s.content_name)).Gated heard := by
    refine ⟨Journal.valid_concat_iff.mpr ⟨hlog, trivial⟩, fun k p hp hleft => ?_, fun k p hp hconnect => ?_,
      fun heq => absurd heq hinit, fun k _ hfalse => ?_⟩
    · exact absurd (hwaits k p hp).1 hleft
    · rw [(hwaits k p hp).2] at hconnect
      cases hconnect
    · rw [show s.pending_candidates = false from hfalse] at hpending
      cases hpending
  rw [PPSession.SetState, if_neg (hstate ▸ hinit)]
  exact Gated.idles (Listener.keepsGate hL _ hinit hchange) (idles_emit _ rfl)

theorem Gated.Initiate (h : s.Gated heard) {content : CString}
    (horder : s.state = .init → ∀ k, k ≠ content → ¬ s.Untold k) : (s.Initiate L content).1.Gated heard := by
  by_cases hstate : s.state = .init
  · set s₁ : PPSession := { s with content_name := content, local_description := true, pending_candidates := true }
    set s₂ := (s₁.GetOrCreateTransportProxy content).emit (.outgoingMessage { type := .sessionInitiate, argvs := [content] })
      with hs₂
    have hsame := s₁.sameBut_GetOrCreateTransportProxy content
    have hout : s₂.out = s.out ++ [.outgoingMessage { type := .sessionInitiate, argvs := [content] }] := by
      simp [hs₂, PPSession.emit, s₁]
    have hinit : s₂.state = .init := hsame.state.trans hstate
    have hwaits : s₂.Waits := Waits.GetOrCreateTransportProxy (s := s₁) (h.waits hstate) content
    have hlog : Journal.Valid (InTurn heard) s₂.out := by
      rw [hout, Journal.valid_concat_iff]
      exact ⟨h.log, fun htype => by cases htype⟩
    have hgated := gated_first_change hL (by decide : SessionState.sentInitiate ≠ .init) hinit hlog hwaits
      hsame.pending_candidates
    have hcarries := carries_after_change (Listener.answers hL) (s := s₂) (by simp [hinit])
      (by decide : SessionState.sentInitiate ≠ .init)
    have htold : Told (s₂.SetState L .sentInitiate).out content := by
      obtain ⟨es, hes, -⟩ := hcarries.out
      refine ⟨.outgoingMessage { type := .sessionInitiate, argvs := [content] }, ?_, by simp [SessionEffect.tells]⟩
      rw [hes]
      simp [PPSession.emit, hout]
    rw [PPSession.Initiate, if_neg (by simpa using hstate)]
    refine hgated.connectAll (fun k p hp => ?_) _
    obtain ⟨q, hq, hpq, -⟩ := hcarries.transports.proxy hp
    have hq₂ : s₂.transports[k]? = some q := hq
    refine ⟨?_, by simp [← hpq, (hwaits k q hq₂).1]⟩
    by_cases hk : k = content
    · exact hk ▸ htold
    · have hs : s.transports[k]? = some q := by
        have hget : (s₁.GetOrCreateTransportProxy content).transports[k]? = some q := hq₂
        rwa [transports_GetOrCreateTransportProxy, if_neg hk] at hget
      exact absurd ⟨q, hs, (h.waits hstate k q hs).1, h.first hstate k⟩ (horder hstate k hk)
  · rwa [s.Initiate_refused hstate]

theorem Gated.callLocal (h : s.Gated heard) {c : LocalCall}
    (horder : ∀ content, c = .initiate content → s.state = .init → ∀ k, k ≠ content → ¬ s.Untold k) :
    (s.callLocal L c).Gated heard := by
  cases c with
  | initiate content => exact h.Initiate hL (horder content rfl)
  | accept => exact h.Accept (Listener.answers hL)
  | reject => exact Gated.Reject (Listener.keepsGate hL) h
  | terminate => exact Gated.TerminateWithReason (Listener.keepsGate hL) h

theorem Gated.OnInitiateMessage (h : s.Gated heard) (msg : PPMessage) : (s.OnInitiateMessage L msg).1.Gated heard := by
  by_cases hstate : s.state = .init
  · rw [s.OnInitiateMessage_eq L hstate]
    refine h.withContent fun content _ => ?_
    set s₁ : PPSession := { s with content_name := content, remote_description := true, pending_candidates := true }
    set s₂ := s₁.GetOrCreateTransportProxy content
    have hsame := s₁.sameBut_GetOrCreateTransportProxy content
    have hinit : s₂.state = .init := hsame.state.trans hstate
    have hlog : Journal.Valid (InTurn heard) s₂.out := by
      rw [show s₂.out = s.out from s₁.out_GetOrCreateTransportProxy content]
      exact h.log
    have hwaits : s₂.Waits := Waits.GetOrCreateTransportProxy (s := s₁) (h.waits hstate) content
    have hgated := gated_first_change hL (by decide : SessionState.receivedInitiate ≠ .init) hinit hlog hwaits
      hsame.pending_candidates
    have htold : Told (s₂.SetState L .receivedInitiate).out content := by
      have hcarries := carries_after_change (Listener.answers hL) (s := s₂) (by simp [hinit])
        (by decide : SessionState.receivedInitiate ≠ .init)
      obtain ⟨es, hes, -⟩ := hcarries.out
      refine ⟨.stateChanged .receivedInitiate content, ?_, by simp [SessionEffect.tells]⟩
      rw [hes, show s₂.content_name = content from hsame.content_name]
      simp [PPSession.emit]
    simp only
    split
    · refine hgated.OnRemoteCandidates ?_
      rintro ⟨_, _, _, hno⟩
      exact hno htold
    · exact hgated
  · rw [s.OnInitiateMessage_refused hstate]
    exact h.idles (idles_emit _ rfl)

theorem Gated.OnAcceptMessage (h : s.Gated heard) {msg : PPMessage} (hheard : heard)
    (horder : s.state = .sentInitiate → ∀ k, msg.argvs[0]? = some k → ¬ s.Untold k) :
    (s.OnAcceptMessage L msg).1.Gated heard := by
  by_cases hstate : s.state = .sentInitiate
  · rw [s.OnAcceptMessage_eq L hstate]
    refine h.withContent fun content hcontent => ?_
    have hsent := carries_SendAllUnsent (s := s) (by simp [hstate])
    set s₁ : PPSession := { s.SendAllUnsentTransportInfoMessages with remote_description := true }
    have hgated : s₁.Gated heard := (h.carries hsent (.inr hheard)).of_fields rfl rfl rfl rfl
    have hchange := carries_SetState (Listener.answers hL) (s := s₁) hsent.state
      (by decide : SessionState.receivedAccept ≠ .init) (by decide) (by simp)
    have hnext := hgated.carries hchange (.inr hheard)
    simp only
    split
    · refine hnext.OnRemoteCandidates fun ⟨p, hp, hinit, hno⟩ => ?_
      obtain ⟨q, hq, hpq, -⟩ := hchange.transports.proxy hp
      obtain ⟨r, hr, hqr, -⟩ := hsent.transports.proxy (k := content) hq
      refine horder hstate content hcontent ⟨r, hr, hqr.trans (hpq.trans hinit), fun htold => hno ?_⟩
      obtain ⟨es, hes, -⟩ := hsent.out
      obtain ⟨es', hes', -⟩ := hchange.out
      exact (htold.mono (prefix_of_out hes)).mono (prefix_of_out hes')
    · exact hnext
  · rw [s.OnAcceptMessage_refused hstate]
    exact h.idles (idles_emit _ rfl)

theorem Gated.OnIncomingMessage (h : s.Gated heard) {msg : PPMessage} (hheard : msg.type = .sessionAccept → heard)
    (horder : s.InOrder (.incoming L msg)) : (s.OnIncomingMessage L msg).Gated heard := by
  refine report_keeps (P := fun t => t.Gated heard) (fun _ ht => ht.idles (idles_emit _ rfl)) _ ?_
  cases htype : msg.type with
  | sessionInitiate => exact h.OnInitiateMessage hL msg
  | sessionInfo => exact h.withContent fun _ _ => h.idles (idles_emit _ rfl)
  | sessionAccept => exact h.OnAcceptMessage hL (hheard htype) fun hstate => horder (.inr ⟨htype, hstate⟩)
  | sessionReject =>
    by_cases hstate : s.state = .sentInitiate
    · simp only [s.OnRejectMessage_eq L hstate]
      exact Gated.SetState (Listener.keepsGate hL) h (by decide) (by decide)
    · simp only [s.OnRejectMessage_refused hstate]
      exact h.idles (idles_emit _ rfl)
  | sessionTerminate =>
    refine h.withContent fun _ _ => ?_
    exact Gated.SetState (Listener.keepsGate hL) (h.idles (idles_emit _ rfl)) (by decide) (by decide)
  | transportInfo => exact h.OnTransportInfoMessage (horder (.inl htype))
  | other => exact h

theorem Gated.OnStateMessage (h : s.Gated heard) : (s.OnStateMessage L).Gated heard := by
  unfold PPSession.OnStateMessage
  split
  · exact Gated.SetState (Listener.keepsGate hL) h (by decide) (by decide)
  · exact Gated.SetState (Listener.keepsGate hL) h (by decide) (by decide)
  · exact h

end listeners

theorem Gated.handle (h : s.Gated heard) (hwired : s.Wired) {e : SessionEvent} (henabled : s.Enabled e)
    (horder : s.InOrder e) (hheard : AcceptReceived [e] → heard) : (s.handle e).Gated heard := by
  cases e with
  | call L c =>
    refine Gated.callLocal henabled h fun content hc => ?_
    subst hc
    exact horder
  | incoming L msg =>
    exact Gated.OnIncomingMessage henabled h (fun htype => hheard ⟨L, msg, List.mem_singleton_self _, htype⟩) horder
  | state L => exact Gated.OnStateMessage henabled h
  | timeout => exact h.idles ⟨rfl, rfl, fun _ p hp => .inl ⟨p, hp, rfl, rfl⟩, [.timeout], rfl, by simp [SessionEffect.isAside]⟩
  | transport k task => exact h.OnTransportMessage hwired henabled
  | candidatesReady k candidates =>
    obtain ⟨t, ht, hconnect⟩ := henabled
    obtain ⟨p, hp, rfl⟩ := Option.map_eq_some_iff.mp ht
    exact h.OnTransportCandidatesReady hp hconnect candidates
  | worker k e =>
    refine h.idles (idles_onProxy s k fun p => ⟨?_, fun hmem => ?_⟩)
    · cases e <;> exact ⟨rfl, rfl⟩
    · obtain ⟨task, htask⟩ := p.posts_onWorkerEvent e _ hmem
      cases htask
  | createChannel k name =>
    refine h.idles ((s.idles_GetOrCreateTransportProxy k).trans (idles_onProxy _ k fun p => ?_))
    exact ⟨p.stays_CreateChannel name, notNegotiated_not_mem_CreateChannel p name⟩
  | signalingReady =>
    refine h.idles ⟨rfl, rfl, fun k p hp => .inl ?_, [], by simp [PPSession.handle, OnSignalingReady], by simp⟩
    have hget : (s.transports[k]?).map (fun p => { p with transport := p.transport.OnSignalingReady }) = some p := by
      rw [← hp]
      simp [PPSession.handle, OnSignalingReady]
    obtain ⟨q, hq, rfl⟩ := Option.map_eq_some_iff.mp hget
    refine ⟨q, hq, rfl, ?_⟩
    simp only [Transport.OnSignalingReady]
    split <;> rfl

/-- A whole run whose events come in order. -/
theorem Gated.run (h : s.Gated heard) (hwired : s.Wired) {es : List SessionEvent} (henabled : s.Along Enabled es)
    (horder : s.Along InOrder es) (hheard : AcceptReceived es → heard) : (s.run es).Gated heard := by
  induction es generalizing s with
  | nil => exact h
  | cons e es ih =>
    have hfirst : (s.handle e).Gated heard := by
      refine h.handle hwired henabled.1 horder.1 fun ⟨L, msg, hmem, htype⟩ => hheard ⟨L, msg, ?_, htype⟩
      exact List.mem_cons.mpr (.inl (List.mem_singleton.mp hmem))
    refine ih hfirst (hwired.handle henabled.1) henabled.2 horder.2 fun ⟨L, msg, hmem, htype⟩ => ?_
    exact hheard ⟨L, msg, List.mem_cons_of_mem _ hmem, htype⟩

/-! ### Events that come out of order -/

/-- A proxy has left `init` and nobody has told it. -/
def Escaped (s : PPSession) : Prop := ∃ (k : CString) (p : TransportProxy), s.transports[k]? = some p ∧ p.state ≠ .init ∧ ¬ Told s.out k

theorem told_iff_signals (s : PPSession) (k : CString) : Told s.out k ↔ Told s.signals k := by
  refine ⟨fun ⟨e, he, htells⟩ => ⟨e, ?_, htells⟩, fun ⟨e, he, htells⟩ => ⟨e, List.mem_of_mem_filter he, htells⟩⟩
  refine List.mem_filter.mpr ⟨he, ?_⟩
  cases e with
  | outgoingMessage _ | stateChanged _ _ => rfl
  | _ => cases htells

theorem SameBut.told_iff (h : s.SameBut t) (k : CString) : Told t.out k ↔ Told s.out k := by
  rw [told_iff_signals, told_iff_signals, h.signals]

theorem Carries.told_iff (h : s.Carries t) (k : CString) : Told t.out k ↔ Told s.out k := by
  obtain ⟨es, hes, hall⟩ := h.out
  rw [hes]
  exact told_append_iff fun e he => SessionEffect.not_tells_of_isAnswer (hall e he) k

theorem Untold.of_carries {k : CString} (h : s.Untold k) (hst : s.Carries t) : t.Untold k := by
  obtain ⟨p, hp, hinit, hno⟩ := h
  obtain ⟨q, hq, hpq, -⟩ := hst.transports.symm.proxy hp
  exact ⟨q, hq, hpq.trans hinit, fun htold => hno ((hst.told_iff k).mp htold)⟩

/-- The negotiation takes a proxy out of `init` that nobody has told. -/
theorem Untold.escapes_OnRemoteCandidates {p2pInfo : P2PInfo} (h : s.Untold p2pInfo.content_name) :
    (s.OnRemoteCandidates p2pInfo).1.Escaped := by
  obtain ⟨p, hp, -, hno⟩ := h
  obtain ⟨-, hafter⟩ := s.OnRemoteCandidates_spec p2pInfo
  refine ⟨p2pInfo.content_name, takeCandidates p p2pInfo.candidates, by rw [hafter, hp]; simp, ?_, ?_⟩
  · have hstate : (takeCandidates p p2pInfo.candidates).state = .negotiated := by
      unfold takeCandidates
      simp only
      split <;> exact p.state_CompleteNegotiation
    simp [hstate]
  · rwa [(s.sameBut_OnRemoteCandidates p2pInfo).told_iff]

theorem Escaped.emit (h : s.Escaped) {e : SessionEffect} (he : ∀ k, e.tells k = false) : (s.emit e).Escaped := by
  obtain ⟨k, p, hp, hleft, hno⟩ := h
  exact ⟨k, p, hp, hleft, fun htold => hno ((told_append_iff (by simpa using he k)).mp htold)⟩

theorem Untold.escapes_OnTransportInfoMessage {k : CString} (h : s.Untold k) {msg : PPMessage}
    (hk : msg.argvs[0]? = some k) : (s.OnTransportInfoMessage msg).1.Escaped := by
  obtain ⟨candidates, hdecode⟩ := Option.isSome_iff_exists.mp (decodeCandidates_isSome msg.argvs)
  obtain ⟨hsame, htransports⟩ := s.sameBut_badPorts (badPorts msg.argvs)
  simp only [PPSession.OnTransportInfoMessage, PPSession.withContent, hk, hdecode]
  apply Untold.escapes_OnRemoteCandidates
  obtain ⟨p, hp, hinit, hno⟩ := h
  exact ⟨p, by rwa [htransports], hinit, fun htold => hno ((hsame.told_iff k).mp htold)⟩

theorem Untold.escapes_OnAcceptMessage {L : PPSession → PPSession} (hL : Listener L) {k : CString} (h : s.Untold k)
    (hstate : s.state = .sentInitiate) {msg : PPMessage} (hk : msg.argvs[0]? = some k) :
    (s.OnAcceptMessage L msg).1.Escaped := by
  have hsent := carries_SendAllUnsent (s := s) (by simp [hstate])
  set s₁ : PPSession := { s.SendAllUnsentTransportInfoMessages with remote_description := true } with hs₁
  have hchange := carries_SetState (Listener.answers hL) (s := s₁) hsent.state
    (by decide : SessionState.receivedAccept ≠ .init) (by decide) (by simp)
  have hstate₁ : s₁.state = .sentInitiate := s.SendAllUnsent_frame.2.1.trans hstate
  have hreject : (s₁.SetState L .receivedAccept).state ≠ .sentReject := by
    intro hrejected
    have hrejected₁ := (hchange.reject (by simp [hstate₁]) (by simp [hstate₁])).2.2 hrejected
    simp [hstate₁] at hrejected₁
  have huntold : s₁.Untold k := show s.SendAllUnsentTransportInfoMessages.Untold k from h.of_carries hsent
  simp only [s.OnAcceptMessage_eq L hstate, PPSession.withContent, hk]
  rw [if_pos hreject]
  exact Untold.escapes_OnRemoteCandidates (huntold.of_carries hchange)

theorem Untold.escapes_Initiate {L : PPSession → PPSession} (hL : Listener L) {k content : CString} (h : s.Untold k)
    (hstate : s.state = .init) (hk : k ≠ content) : (s.Initiate L content).1.Escaped := by
  obtain ⟨p, hp, hinit, hno⟩ := h
  set s₁ : PPSession := { s with content_name := content, local_description := true, pending_candidates := true }
  set s₂ := (s₁.GetOrCreateTransportProxy content).emit (.outgoingMessage { type := .sessionInitiate, argvs := [content] })
    with hs₂
  have hinit₂ : s₂.state = .init := (s₁.sameBut_GetOrCreateTransportProxy content).state.trans hstate
  have hcarries := carries_after_change (Listener.answers hL) (s := s₂) (by simp [hinit₂])
    (by decide : SessionState.sentInitiate ≠ .init)
  have hp₂ : s₂.transports[k]? = some p := by
    show (s₁.GetOrCreateTransportProxy content).transports[k]? = some p
    rwa [transports_GetOrCreateTransportProxy, if_neg hk]
  have hno₂ : ¬ Told ({ s₂ with state := .sentInitiate }.emit (.stateChanged .sentInitiate s₂.content_name)).out k := by
    have hnew : ∀ e ∈ [SessionEffect.outgoingMessage { type := .sessionInitiate, argvs := [content] },
        .stateChanged .sentInitiate s₂.content_name], e.tells k = false := by
      simp [SessionEffect.tells, Ne.symm hk]
    have hout : ({ s₂ with state := .sentInitiate }.emit (.stateChanged .sentInitiate s₂.content_name)).out =
        s.out ++ [.outgoingMessage { type := .sessionInitiate, argvs := [content] }, .stateChanged .sentInitiate s₂.content_name] := by
      simp [hs₂, PPSession.emit, s₁]
    rwa [hout, told_append_iff hnew]
  obtain ⟨q, hq, -⟩ := hcarries.transports.symm.proxy hp₂
  rw [PPSession.Initiate, if_neg (by simpa using hstate)]
  refine ⟨k, q.SpeculativelyConnectChannels.1, ?_, by simp [q.state_SpeculativelyConnectChannels], ?_⟩
  · rw [transports_SpeculativelyConnectAll]
    show ((s₂.SetState L .sentInitiate).transports[k]?).map _ = _
    rw [hq]
    rfl
  · rw [(sameBut_SpeculativelyConnectAll _).told_iff]
    show ¬ Told (s₂.SetState L .sentInitiate).out k
    rwa [hcarries.told_iff]

/-- An event out of order takes a proxy out of `init` that nobody has told. -/
theorem escaped_handle {e : SessionEvent} (henabled : s.Enabled e) (horder : ¬ s.InOrder e) : (s.handle e).Escaped := by
  cases e with
  | incoming L msg =>
    obtain ⟨hkind, hall⟩ := Classical.not_imp.mp horder
    obtain ⟨k, hk, huntold⟩ : ∃ k, msg.argvs[0]? = some k ∧ s.Untold k := by simpa using hall
    refine report_keeps (P := Escaped) (fun _ ht => ht.emit fun _ => rfl) _ ?_
    rcases hkind with htype | ⟨htype, hstate⟩
    · rw [htype]
      exact huntold.escapes_OnTransportInfoMessage hk
    · rw [htype]
      exact huntold.escapes_OnAcceptMessage henabled hstate hk
  | call L c =>
    cases c with
    | initiate content =>
      obtain ⟨hstate, hall⟩ := Classical.not_imp.mp horder
      obtain ⟨k, hk, huntold⟩ : ∃ k, k ≠ content ∧ s.Untold k := by simpa using hall
      exact huntold.escapes_Initiate henabled hstate hk
    | accept | reject | terminate => exact absurd trivial horder
  | state _ | timeout | transport _ _ | candidatesReady _ _ | worker _ _ | createChannel _ _ | signalingReady =>
    exact absurd trivial horder

end gated

/-- What the gate is for: a proxy leaves `init` after an initiate for its content was sent or taken, transport
    messages go out after an accept was sent or received, and no negotiated proxy is connected anew. -/
structure GateHolds (es : List SessionEvent) (s : PPSession) : Prop where
  left : ∀ (k : CString) p, s.transports[k]? = some p → p.state ≠ .init → Told s.out k
  sent : ∀ before msg after, s.out = before ++ .outgoingMessage msg :: after → msg.type = .transportInfo →
    AcceptSent before ∨ AcceptReceived es
  entered : .assertFailed .notNegotiated ∉ s.out

theorem Gated.holds {es : List SessionEvent} {s : PPSession} (h : s.Gated (AcceptReceived es)) : GateHolds es s where
  left := h.left
  sent before msg after hout htype := h.log before _ after hout htype
  entered hmem := by
    obtain ⟨before, after, hout⟩ := List.append_of_mem hmem
    exact h.log before _ after hout rfl

/-- The gate holds all along a run if and only if its events come in order. -/
theorem negotiation_gate {allow_local_ips : Bool} {es : List SessionEvent}
    (henabled : (new allow_local_ips).Along Enabled es) :
    (∀ es₁, es₁ <+: es → GateHolds es₁ ((new allow_local_ips).run es₁)) ↔ (new allow_local_ips).Along InOrder es := by
  constructor
  · intro hholds
    induction es using List.reverseRecOn with
    | nil => trivial
    | append_singleton es e ih =>
      obtain ⟨hbefore, hlast, -⟩ := along_append.mp henabled
      refine along_append.mpr ⟨ih hbefore fun es₁ hes₁ => hholds es₁ (hes₁.trans (List.prefix_append _ _)), ?_, trivial⟩
      by_contra horder
      obtain ⟨k, p, hp, hleft, hno⟩ := escaped_handle hlast horder
      have hrun : (new allow_local_ips).run (es ++ [e]) = ((new allow_local_ips).run es).handle e := run_append _ es [e]
      exact hno (hrun ▸ (hholds (es ++ [e]) List.prefix_rfl).left k p (hrun ▸ hp) hleft)
  · rintro horder es₁ ⟨es₂, rfl⟩
    exact ((gated_new _ _).run (wired_new _) (along_append.mp henabled).1 (along_append.mp horder).1 id).holds

end PPSession

end

/-! ### Runs in order and out of order -/

namespace PPSession
attribute [local instance] Host.plain

/-- An initiate message is accepted, and then the candidates of the other side come. -/
def negotiated : List SessionEvent :=
  [.createChannel (cstr "data") (cstr "prober"), .incoming id { type := .sessionInitiate, argvs := [cstr "data"] },
    .call id .accept, .incoming id { type := .transportInfo, argvs := [cstr "data"] }]

theorem negotiation_gate_negotiated : GateHolds negotiated ((new true).run negotiated) := by
  have henabled : (new true).Along Enabled negotiated := by
    simp only [negotiated, Along]
    refine ⟨fun p hp => ?_, listener_id, listener_id, listener_id, trivial⟩
    simp [new, GetTransportProxy] at hp
  refine (negotiation_gate henabled).mpr ?_ negotiated (List.prefix_refl _)
  simp only [negotiated, Along]
  refine ⟨trivial, fun hkind => ?_, trivial, fun _ k hk huntold => ?_, trivial⟩
  · simp at hkind
  · obtain rfl : cstr "data" = k := by simpa using hk
    obtain ⟨p, hp, hinit, -⟩ := huntold
    have hstate := congrArg (Option.map TransportProxy.state) hp
    rw [Option.map_some, hinit] at hstate
    revert hstate
    decide

/-- A transport message comes before anybody has initiated. -/
def unasked : List SessionEvent :=
  [.createChannel (cstr "data") (cstr "prober"), .incoming id { type := .transportInfo, argvs := [cstr "data"] }]

/-- The message completes a negotiation that nobody has told, and the session that is initiated then connects a
    negotiated proxy. -/
theorem transport_info_unasked_escapes :
    ¬ GateHolds unasked ((new true).run unasked) ∧
      .assertFailed .notNegotiated ∈ ((new true).run (unasked ++ [.call id (.initiate (cstr "data"))])).out := by
  refine ⟨fun hholds => ?_, by decide⟩
  have hstate : (((new true).run unasked).transports[cstr "data"]?).map TransportProxy.state = some .negotiated := by decide
  obtain ⟨p, hp, hnegotiated⟩ := Option.map_eq_some_iff.mp hstate
  have htold := hholds.left (cstr "data") p hp (by simp [hnegotiated])
  revert htold
  unfold Told
  decide

end PPSession

end ProbICE
