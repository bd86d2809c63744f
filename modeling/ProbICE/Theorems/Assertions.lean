import ProbICE.Theorems.Implementations
import ProbICE.Theorems.Transitions

/-! # What the build with `_DEBUG` survives

A failed `ASSERT` ends the program, so the `return false` behind the one of `CheckState` is never reached. The
program goes on exactly as long as each message fits the state that it comes in, the ports in it fit, and nobody
initiates a session with a proxy that is negotiated already. -/

namespace ProbICE

/-- A message of this type is not allowed in this state. -/
def outOfState (state : SessionState) : PPMessageType → Bool
  | .sessionInitiate => state ≠ .init
  | .sessionAccept | .sessionReject => state ≠ .sentInitiate
  | _ => false

theorem SessionEffect.ends_of_isAnswer {e : SessionEffect} (h : e.isAnswer = true) : e.ends = false := by
  cases e with
  | assertFailed a => cases h
  | outOfRange => cases h
  | _ => rfl

section
variable [Host]

namespace PPSession

/-! ### The program goes on -/

/-- From `s` to `t` the program has not come to its end. -/
def Survived (s t : PPSession) : Prop := ∃ es, t.out = s.out ++ es ∧ ∀ e ∈ es, e.ends = false

section survived
variable {s t u : PPSession}

theorem Survived.refl (s : PPSession) : s.Survived s := ⟨[], by simp, by simp⟩

theorem Survived.of_out (h : t.out = s.out) : s.Survived t := ⟨[], by simpa using h, by simp⟩

theorem Survived.trans (h : s.Survived t) (h' : t.Survived u) : s.Survived u := Journal.grown_trans h h'

theorem Carries.survived (h : s.Carries t) : s.Survived t := by
  obtain ⟨es, hes, hall⟩ := h.out
  exact ⟨es, hes, fun e he => SessionEffect.ends_of_isAnswer (hall e he)⟩

theorem survived_emit (s : PPSession) {e : SessionEffect} (he : e.ends = false) : s.Survived (s.emit e) :=
  ⟨[e], rfl, by simpa using he⟩

theorem survived_onProxy (s : PPSession) (k : CString) {f : TransportProxy → TransportProxy × List TransportEffect}
    (hf : ∀ p, s.transports[k]? = some p → Posts (f p).2) : s.Survived (s.onProxy k f) := by
  rcases hp : s.transports[k]? with _ | p
  · rw [onProxy_of_none s k hp]
    exact .refl s
  · rw [onProxy_of_some s k hp]
    refine ⟨_, rfl, fun e he => ?_⟩
    obtain ⟨e', he', rfl⟩ := List.mem_map.mp he
    obtain ⟨task, rfl⟩ := hf p hp e' he'
    rfl

theorem survived_GetOrCreateTransportProxy (s : PPSession) (k : CString) : s.Survived (s.GetOrCreateTransportProxy k) :=
  .of_out (s.out_GetOrCreateTransportProxy k)

/-- The negotiation destroys no channel that it sets. -/
theorem Sound.survived_OnRemoteCandidates (h : s.Sound) (p2pInfo : P2PInfo) : s.Survived (s.OnRemoteCandidates p2pInfo).1 := by
  have hnegotiation := s.survived_onProxy p2pInfo.content_name fun p hp => (h _ p hp).posts_CompleteNegotiation
  unfold OnRemoteCandidates
  split
  · exact .refl s
  · simp only
    split
    · exact hnegotiation
    · split
      · exact hnegotiation.trans (survived_onProxy _ _ fun _ _ => posts_nil)
      · exact hnegotiation

theorem survived_OnTransportCandidatesReady (s : PPSession) (k : CString) (candidates : List Candidate) :
    s.Survived (s.OnTransportCandidatesReady k candidates) := by
  unfold OnTransportCandidatesReady
  split
  · exact .refl s
  · split
    · exact s.survived_onProxy k fun _ _ => posts_nil
    · exact s.survived_emit rfl

theorem survived_OnTransportWritable (s : PPSession) (k : CString) : s.Survived (s.OnTransportWritable k) := by
  unfold OnTransportWritable
  split
  · exact .refl s
  · simp only
    split
    · exact (s.survived_emit rfl).trans (survived_emit _ rfl)
    · exact s.survived_emit rfl

/-- A transport that has posted about candidates has been told to connect. -/
theorem survived_OnTransportMessage (hwired : s.Wired) {k : CString} {task : TransportTask}
    (hposted : .postTransport k task ∈ s.out) : s.Survived (s.OnTransportMessage k task) := by
  unfold OnTransportMessage
  split
  · exact .refl s
  · exact s.survived_OnTransportWritable k
  · have hproxy := s.survived_onProxy k (f := fun p =>
      ({ p with transport := p.transport.OnChannelCandidateReady_s.1 }, p.transport.OnChannelCandidateReady_s.2.1))
      fun p hp => by
        obtain ⟨q, hq, hconnect⟩ := hwired.posted k hposted
        obtain rfl := Option.some.inj (hp.symm.trans hq)
        simp [Transport.OnChannelCandidateReady_s, hconnect, posts_nil]
    simp only
    split
    · exact hproxy
    · exact hproxy.trans (survived_OnTransportCandidatesReady _ k _)
  · have hproxy := s.survived_onProxy k (f := fun p => ({ p with transport := p.transport.OnChannelWritableState_s.1 }, []))
      fun _ _ => posts_nil
    simp only
    split
    · exact hproxy.trans (survived_OnTransportWritable _ k)
    · exact hproxy
  · exact s.survived_emit rfl

theorem survived_SpeculativelyConnect (h : s.NoneNegotiated) (ks : List CString) :
    s.Survived (ks.foldl (fun s k => s.onProxy k TransportProxy.SpeculativelyConnectChannels) s) := by
  induction ks generalizing s with
  | nil => exact .refl s
  | cons k ks ih =>
    have hfirst := s.survived_onProxy k fun p hp => TransportProxy.posts_SpeculativelyConnectChannels (h k p hp)
    refine hfirst.trans (ih fun j p hp => ?_)
    rw [transports_onProxy] at hp
    split at hp
    · obtain ⟨q, -, rfl⟩ := Option.map_eq_some_iff.mp hp
      simp [TransportProxy.state_SpeculativelyConnectChannels]
    · exact h j p hp

end survived

/-! ### Every event -/

section listeners
variable {s : PPSession} {L : PPSession → PPSession} (hL : Answers L)
include hL

theorem survived_SetState (s : PPSession) {state : SessionState} (hinit : state ≠ .init) : s.Survived (s.SetState L state) := by
  by_cases hne : state = s.state
  · rw [SetState, if_pos hne]
    exact .refl s
  · have hchange : s.Survived ({ s with state }.emit (.stateChanged state s.content_name)) :=
      ⟨[.stateChanged state s.content_name], rfl, by simp [SessionEffect.ends]⟩
    exact hchange.trans (carries_after_change hL hne hinit).survived

/-- The proxies that `SpeculativelyConnectAllTransportChannels` finds in `Initiate`. -/
theorem noneNegotiated_before_connect (h : s.NoneNegotiated) (hstate : s.state = .init) (content : CString) :
    ((({ s with content_name := content, local_description := true } : PPSession).CreateTransportProxies
      { content_name := content, candidates := [] }).emit
        (.outgoingMessage { type := .sessionInitiate, argvs := [content] })).SetState L .sentInitiate |>.NoneNegotiated := by
  set s₁ : PPSession := { s with content_name := content, local_description := true, pending_candidates := true }
  set s₂ := (s₁.GetOrCreateTransportProxy content).emit (.outgoingMessage { type := .sessionInitiate, argvs := [content] })
  have hne : SessionState.sentInitiate ≠ s₂.state := by
    rw [show s₂.state = s.state from (sameBut_GetOrCreateTransportProxy s₁ content).state, hstate]
    decide
  intro k p hp
  obtain ⟨q, hq, hpq, -⟩ := (carries_after_change hL hne (by decide)).transports.proxy hp
  rw [← hpq]
  have hget : (s₁.GetOrCreateTransportProxy content).transports[k]? = some q := hq
  rw [transports_GetOrCreateTransportProxy] at hget
  split at hget
  · rw [← Option.some.inj hget, proxyOrNew]
    rcases hk : s₁.transports[content]? with _ | q'
    · simp [TransportProxy.new]
    · exact h content q' hk
  · exact h k q hget

theorem survived_Initiate (h : s.NoneNegotiated) (hstate : s.state = .init) (content : CString) :
    s.Survived (s.Initiate L content).1 := by
  have hnone := noneNegotiated_before_connect hL h hstate content
  rw [Initiate, if_neg (by simpa using hstate)]
  refine Survived.trans ?_ (survived_SpeculativelyConnect hnone _)
  refine Survived.trans ?_ (survived_SetState hL _ (by decide))
  refine Survived.trans ?_ (survived_emit _ rfl)
  exact survived_GetOrCreateTransportProxy
    { s with content_name := content, local_description := true, pending_candidates := true } content

theorem survived_callLocal {c : LocalCall}
    (h : ∀ content, c = .initiate content → s.state = .init → s.NoneNegotiated) : s.Survived (s.callLocal L c) := by
  by_cases hstate : s.state = .init
  · refine callLocal_of_init (P := s.Survived) hstate c (fun content hc => ?_) (.refl s) ?_
    · exact survived_Initiate hL (h content hc hstate) hstate content
    · exact (s.survived_emit rfl).trans (survived_SetState hL _ (by decide))
  · exact (carries_callLocal hL hstate c).survived

theorem survived_OnInitiateMessage (hsound : s.Sound) (hstate : s.state = .init) {msg : PPMessage} (hargvs : msg.argvs ≠ []) :
    s.Survived (s.OnInitiateMessage L msg).1 := by
  obtain ⟨content, rest, hargvs⟩ := List.exists_cons_of_ne_nil hargvs
  have hfirst : msg.argvs[0]? = some content := by rw [hargvs]; rfl
  have hproxies := survived_GetOrCreateTransportProxy
    { s with content_name := content, remote_description := true, pending_candidates := true } content
  have hchange := hproxies.trans (survived_SetState hL _ (by decide : SessionState.receivedInitiate ≠ .init))
  have hname : s.Operates False { s with content_name := content, remote_description := true } := operates_of_same rfl
  have hoperates := (hname.trans (operates_CreateTransportProxies _ { content_name := content, candidates := [] })).trans
    (operates_SetState _ hL (by decide : SessionState.receivedInitiate ≠ .init))
  simp only [s.OnInitiateMessage_eq L hstate, withContent, hfirst]
  split
  · exact hchange.trans ((hsound.operates hoperates).survived_OnRemoteCandidates _)
  · exact hchange

theorem survived_OnAcceptMessage (hsound : s.Sound) (hstate : s.state = .sentInitiate) {msg : PPMessage} (hargvs : msg.argvs ≠ []) :
    s.Survived (s.OnAcceptMessage L msg).1 := by
  obtain ⟨content, rest, hargvs⟩ := List.exists_cons_of_ne_nil hargvs
  have hfirst : msg.argvs[0]? = some content := by rw [hargvs]; rfl
  have hsent : s.Survived { s.SendAllUnsentTransportInfoMessages with remote_description := true } :=
    (carries_SendAllUnsent (by simp [hstate])).survived.trans (.of_out rfl)
  have hchange := hsent.trans (survived_SetState hL _ (by decide : SessionState.receivedAccept ≠ .init))
  have hcarried : s.Operates False s.SendAllUnsentTransportInfoMessages :=
    (carries_SendAllUnsent (by simp [hstate])).operates
  have hoperates := (hcarried.trans
    (operates_of_same (t := { s.SendAllUnsentTransportInfoMessages with remote_description := true }) rfl)).trans
      (operates_SetState _ hL (by decide : SessionState.receivedAccept ≠ .init))
  simp only [s.OnAcceptMessage_eq L hstate, withContent, hfirst]
  split
  · exact hchange.trans ((hsound.operates hoperates).survived_OnRemoteCandidates _)
  · exact hchange

theorem survived_OnIncomingMessage (hsound : s.Sound) {msg : PPMessage} (hplace : outOfState s.state msg.type = false)
    (hargvs : reads s.state msg.type = true → msg.argvs ≠ []) (hports : msg.type = .transportInfo → badPorts msg.argvs = []) :
    s.Survived (s.OnIncomingMessage L msg) := by
  have hcontent : ∀ {rest : CString → PPSession × Bool}, msg.argvs ≠ [] → (∀ content, s.Survived (rest content).1) →
      s.Survived (s.withContent msg rest).1 := by
    intro rest hne hrest
    obtain ⟨content, others, heq⟩ := List.exists_cons_of_ne_nil hne
    simp only [withContent, heq, List.getElem?_cons_zero]
    exact hrest content
  refine report_keeps (P := s.Survived) (fun _ ht => ht.trans (survived_emit _ rfl)) _ ?_
  cases htype : msg.type with
  | sessionInitiate =>
    have hstate : s.state = .init := by simpa [outOfState, htype] using hplace
    exact survived_OnInitiateMessage hL hsound hstate (hargvs (by simp [reads, htype, hstate]))
  | sessionInfo =>
    exact hcontent (hargvs (by simp [reads, htype])) fun _ => s.survived_emit rfl
  | sessionAccept =>
    have hstate : s.state = .sentInitiate := by simpa [outOfState, htype] using hplace
    exact survived_OnAcceptMessage hL hsound hstate (hargvs (by simp [reads, htype, hstate]))
  | sessionReject =>
    have hstate : s.state = .sentInitiate := by simpa [outOfState, htype] using hplace
    simp only [s.OnRejectMessage_eq L hstate]
    exact survived_SetState hL s (by decide)
  | sessionTerminate =>
    refine hcontent (hargvs (by simp [reads, htype])) fun _ => ?_
    exact (s.survived_emit rfl).trans (survived_SetState hL _ (by decide))
  | transportInfo =>
    refine hcontent (hargvs (by simp [reads, htype])) fun content => ?_
    obtain ⟨candidates, hdecode⟩ := Option.isSome_iff_exists.mp (decodeCandidates_isSome msg.argvs)
    simp only [hdecode, hports htype, List.foldl_nil]
    exact hsound.survived_OnRemoteCandidates _
  | other => exact .refl s

end listeners

theorem survived_OnStateMessage (s : PPSession) {L : PPSession → PPSession} (hL : Answers L) :
    s.Survived (s.OnStateMessage L) := by
  unfold OnStateMessage
  split
  · exact survived_SetState hL s (by decide)
  · exact survived_SetState hL s (by decide)
  · exact .refl s

/-! ### Events that end the program -/

/-- A message out of state runs into the `ASSERT` of `CheckState`. -/
theorem OnIncomingMessage_outOfState (s : PPSession) (L : PPSession → PPSession) {msg : PPMessage}
    (h : outOfState s.state msg.type = true) :
    s.OnIncomingMessage L msg = (s.emit (.assertFailed .expectedState)).emit (.errorMessage msg) := by
  unfold OnIncomingMessage
  cases htype : msg.type with
  | sessionInitiate =>
    simp only [s.OnInitiateMessage_refused (by simpa [outOfState, htype] using h)]
    rfl
  | sessionAccept =>
    simp only [s.OnAcceptMessage_refused (by simpa [outOfState, htype] using h)]
    rfl
  | sessionReject =>
    simp only [s.OnRejectMessage_refused (by simpa [outOfState, htype] using h)]
    rfl
  | sessionInfo | sessionTerminate | transportInfo | other => simp [outOfState, htype] at h

/-- A message without an argument is read behind its end. -/
theorem OnIncomingMessage_empty (s : PPSession) (L : PPSession → PPSession) {msg : PPMessage}
    (h : reads s.state msg.type = true) (hargvs : msg.argvs = []) : s.OnIncomingMessage L msg = s.emit .outOfRange := by
  have hempty : ∀ rest, s.withContent msg rest = (s.emit .outOfRange, true) := by
    intro rest
    simp [withContent, hargvs]
  unfold OnIncomingMessage
  cases htype : msg.type with
  | sessionInitiate =>
    simp only [s.OnInitiateMessage_eq L (by simpa [reads, htype] using h), hempty]
    rfl
  | sessionAccept =>
    simp only [s.OnAcceptMessage_eq L (by simpa [reads, htype] using h), hempty]
    rfl
  | sessionInfo =>
    simp only [OnInfoMessage, hempty]
    rfl
  | sessionTerminate =>
    simp only [OnTerminateMessage, hempty]
    rfl
  | transportInfo =>
    simp only [OnTransportInfoMessage, hempty]
    rfl
  | sessionReject | other => simp [reads, htype] at h

theorem mem_of_unmoved {s t : PPSession} (h : s.Unmoved t) {e : SessionEffect} (he : e ∈ s.out) : e ∈ t.out := by
  obtain ⟨es, hes, -⟩ := h.out
  rw [hes]
  exact List.mem_append_left _ he

/-- The program goes on behind the loop over the candidates only when the ports fit. -/
theorem survived_behind_badPorts {s t : PPSession} {is : List Nat} (h : s.Survived t)
    (hbehind : (is.foldl (fun s _ => s.emit (.assertFailed .portFits)) s).out <+: t.out) : is = [] := by
  obtain ⟨es, hes, hall⟩ := h
  obtain ⟨rest, hrest⟩ := hbehind
  rw [foldl_badPorts, hes, List.append_assoc] at hrest
  have hports := List.append_cancel_left hrest
  by_contra hno
  obtain ⟨i, is', rfl⟩ := List.exists_cons_of_ne_nil hno
  have hmem : .assertFailed .portFits ∈ es := by simp [← hports]
  have hends := hall _ hmem
  cases hends

/-- A port that does not fit runs into the `ASSERT` of `SetPort`. -/
theorem portFits_mem (s : PPSession) (L : PPSession → PPSession) {msg : PPMessage} (htype : msg.type = .transportInfo)
    (hports : badPorts msg.argvs ≠ []) : .assertFailed .portFits ∈ (s.OnIncomingMessage L msg).out := by
  obtain ⟨i, is, hbad⟩ := List.exists_cons_of_ne_nil hports
  obtain ⟨content, rest, hargvs⟩ : ∃ content rest, msg.argvs = content :: rest := by
    refine List.exists_cons_of_ne_nil fun hnil => hports ?_
    rw [hnil]
    rfl
  have hfirst : msg.argvs[0]? = some content := by rw [hargvs]; rfl
  obtain ⟨candidates, hdecode⟩ := Option.isSome_iff_exists.mp (decodeCandidates_isSome msg.argvs)
  have hfail : .assertFailed .portFits ∈ (s.emit (.assertFailed .portFits)).out := by simp [emit]
  have hhandler : .assertFailed .portFits ∈ (s.OnTransportInfoMessage msg).1.out := by
    simp only [OnTransportInfoMessage, withContent, hfirst, hdecode, hbad, List.foldl_cons]
    refine mem_of_unmoved (unmoved_OnRemoteCandidates _ _) (mem_of_unmoved ?_ hfail)
    exact unmoved_foldl _ (fun s _ => s.unmoved_emit rfl) is
  simp only [OnIncomingMessage, htype]
  split
  · exact hhandler
  · exact List.mem_append_left _ hhandler

/-- A negotiated proxy runs into the `ASSERT` of `SpeculativelyConnectChannels`. -/
theorem notNegotiated_mem {s : PPSession} {k : CString} {p : TransportProxy} (hp : s.transports[k]? = some p)
    (hstate : p.state = .negotiated) {ks : List CString} (hk : k ∈ ks) :
    .assertFailed .notNegotiated ∈
      (ks.foldl (fun s k => s.onProxy k TransportProxy.SpeculativelyConnectChannels) s).out := by
  induction ks generalizing s with
  | nil => cases hk
  | cons j ks ih =>
    by_cases hj : k = j
    · subst hj
      refine mem_of_unmoved (unmoved_foldl _ (fun s k => s.unmoved_onProxy k _) ks) ?_
      simp only [onProxy_of_some s k hp, List.mem_append, List.mem_map]
      refine .inr ⟨.assertFailed .notNegotiated, ?_, rfl⟩
      simp [TransportProxy.SpeculativelyConnectChannels, Emit.andThen, hstate]
    · have hnext : (s.onProxy j TransportProxy.SpeculativelyConnectChannels).transports[k]? = some p := by
        rw [transports_onProxy, if_neg hj, hp]
      exact ih hnext ((List.mem_cons.mp hk).resolve_left hj)

theorem notNegotiated_mem_connect {s : PPSession} {k : CString} {p : TransportProxy} (hp : s.transports[k]? = some p)
    (hstate : p.state = .negotiated) : .assertFailed .notNegotiated ∈ s.SpeculativelyConnectAllTransportChannels.out := by
  refine notNegotiated_mem hp hstate ?_
  rw [Std.ExtTreeMap.mem_keys]
  exact Std.ExtTreeMap.mem_iff_isSome_getElem?.mpr (by rw [hp]; rfl)

theorem notNegotiated_mem_Initiate {s : PPSession} {L : PPSession → PPSession} (hL : Answers L) (hstate : s.state = .init)
    (h : ¬ s.NoneNegotiated) (content : CString) : .assertFailed .notNegotiated ∈ (s.Initiate L content).1.out := by
  obtain ⟨k, p, hp, hnegotiated⟩ : ∃ (k : CString) (p : TransportProxy), s.transports[k]? = some p ∧ p.state = .negotiated := by
    simpa [NoneNegotiated] using h
  set s₁ : PPSession := { s with content_name := content, local_description := true, pending_candidates := true }
  set s₂ := (s₁.GetOrCreateTransportProxy content).emit (.outgoingMessage { type := .sessionInitiate, argvs := [content] })
    with hs₂
  have hne : SessionState.sentInitiate ≠ s₂.state := by
    rw [show s₂.state = s.state from (sameBut_GetOrCreateTransportProxy s₁ content).state, hstate]
    decide
  have hp₂ : s₂.transports[k]? = some p := by
    show (s₁.GetOrCreateTransportProxy content).transports[k]? = some p
    rw [transports_GetOrCreateTransportProxy]
    split
    · rename_i hk
      subst hk
      rw [proxyOrNew, show s₁.transports[k]? = some p from hp]
      rfl
    · exact hp
  obtain ⟨q, hq, hpq, -⟩ := (carries_after_change hL hne (by decide)).transports.symm.proxy hp₂
  rw [Initiate, if_neg (by simpa using hstate)]
  exact notNegotiated_mem_connect hq (hpq.trans hnegotiated)

/-! ### Runs -/

/-- What an event must be for the program to go on: a message comes in a state that allows it, with the argument
    that is read there and with ports that fit, and a session is initiated before any of its proxies is
    negotiated. -/
def InPlace (s : PPSession) : SessionEvent → Prop
  | .incoming _ msg =>
    outOfState s.state msg.type = false ∧ (reads s.state msg.type = true → msg.argvs ≠ []) ∧
      (msg.type = .transportInfo → badPorts msg.argvs = [])
  | .call _ (.initiate _) => s.state = .init → s.NoneNegotiated
  | _ => True

/-- The program goes on behind an event, and a message that is out of state has been reported and has changed
    nothing. -/
def Survives (s : PPSession) (e : SessionEvent) : Prop :=
  ∃ t, s.handleDebug e = some t ∧
    ∀ L msg, e = .incoming L msg → outOfState s.state msg.type = true → t = s.emit (.errorMessage msg)

/-- Nothing has ended the program yet. -/
def Alive (s : PPSession) : Prop := ∀ e ∈ s.out, e.ends = false

section events
variable {s : PPSession} {e : SessionEvent}

theorem handleDebug_eq_some {t : PPSession} : s.handleDebug e = some t ↔ (s.handle e).Alive ∧ s.handle e = t := by
  unfold handleDebug
  split
  · rename_i h
    obtain ⟨x, hx, hends⟩ := List.any_eq_true.mp h
    constructor
    · intro hnone
      cases hnone
    · rintro ⟨halive, -⟩
      rw [halive x hx] at hends
      cases hends
  · rename_i h
    have halive : (s.handle e).Alive := fun x hx => by simpa using fun hends => h (List.any_eq_true.mpr ⟨x, hx, hends⟩)
    rw [Option.some.injEq, and_iff_right halive]

theorem Alive.survived (h : s.Alive) {t : PPSession} (hst : s.Survived t) : t.Alive := by
  obtain ⟨es, hes, hall⟩ := hst
  intro x hx
  rcases List.mem_append.mp (hes ▸ hx) with hx | hx
  · exact h x hx
  · exact hall x hx

theorem survived_handle (hwired : s.Wired) (hsound : s.Sound) (henabled : s.Enabled e) (hplace : s.InPlace e) : s.Survived (s.handle e) := by
  cases e with
  | call L c =>
    refine survived_callLocal (Listener.answers henabled) fun content hc hstate => ?_
    subst hc
    exact hplace hstate
  | incoming L msg => exact survived_OnIncomingMessage (Listener.answers henabled) hsound hplace.1 hplace.2.1 hplace.2.2
  | state L => exact s.survived_OnStateMessage (Listener.answers henabled)
  | timeout => exact ⟨[.timeout], rfl, by simp [SessionEffect.ends]⟩
  | transport k task => exact survived_OnTransportMessage hwired henabled
  | candidatesReady k candidates => exact s.survived_OnTransportCandidatesReady k candidates
  | worker k e => exact s.survived_onProxy k fun p _ => p.posts_onWorkerEvent e
  | createChannel k name =>
    refine (s.survived_GetOrCreateTransportProxy k).trans (survived_onProxy _ k fun p hp => ?_)
    refine TransportProxy.posts_CreateChannel ((hwired.GetOrCreateTransportProxy k).whole k p hp) ?_
    rw [transports_GetOrCreateTransportProxy, if_pos rfl, proxyOrNew] at hp
    rcases hk : s.transports[k]? with _ | q
    · rw [hk] at hp
      obtain rfl := Option.some.inj hp
      simp [TransportProxy.new, TransportProxy.GetChannel]
    · rw [hk] at hp
      obtain rfl := Option.some.inj hp
      exact henabled q hk
  | signalingReady => exact .of_out rfl

/-- A session whose program goes on stays sound. -/
theorem Sound.handle (h : s.Sound) (henabled : s.Enabled e) (hplace : s.InPlace e) : (s.handle e).Sound := by
  by_cases hinitiate : s.state = .init ∧ ∃ L content, e = .call L (.initiate content)
  · obtain ⟨hstate, L, content, rfl⟩ := hinitiate
    have hL : Answers L := Listener.answers henabled
    have hbefore := h.operates (s.operates_before_connect hL content)
    have hnone := noneNegotiated_before_connect hL (hplace hstate) hstate content
    intro k p' hp'
    rw [PPSession.handle, callLocal, Initiate, if_neg (by simpa using hstate)] at hp'
    dsimp only at hp'
    rw [transports_SpeculativelyConnectAll] at hp'
    obtain ⟨p, hp, rfl⟩ := Option.map_eq_some_iff.mp hp'
    exact (hbefore k p hp).SpeculativelyConnectChannels (hnone k p hp)
  · exact h.operates ((s.operates_handle (listens_of_enabled s henabled)).mono hinitiate)

/-- Where an event is not as it must be, the program comes to its end. -/
theorem not_alive_handle (henabled : s.Enabled e) (hplace : ¬ s.InPlace e) : ¬ (s.handle e).Alive := by
  have hends : ∀ {x : SessionEffect}, x.ends = true → x ∈ (s.handle e).out → ¬ (s.handle e).Alive := by
    intro x hx hmem halive
    rw [halive x hmem] at hx
    cases hx
  cases e with
  | incoming L msg =>
    by_cases hstate : outOfState s.state msg.type = true
    · refine hends (x := .assertFailed .expectedState) rfl ?_
      simp only [handle, s.OnIncomingMessage_outOfState L hstate]
      simp [emit]
    · by_cases hread : reads s.state msg.type = true ∧ msg.argvs = []
      · refine hends (x := .outOfRange) rfl ?_
        simp only [handle, s.OnIncomingMessage_empty L hread.1 hread.2]
        simp [emit]
      · have hports : msg.type = .transportInfo ∧ badPorts msg.argvs ≠ [] := by
          by_contra hno
          refine hplace ⟨by simpa using hstate, fun hr hnil => hread ⟨hr, hnil⟩, fun htype => ?_⟩
          by_contra hbad
          exact hno ⟨htype, hbad⟩
        exact hends (x := .assertFailed .portFits) rfl (s.portFits_mem L hports.1 hports.2)
  | call L c =>
    cases c with
    | initiate content =>
      obtain ⟨hstate, hnone⟩ := Classical.not_imp.mp hplace
      exact hends (x := .assertFailed .notNegotiated) rfl
        (notNegotiated_mem_Initiate (Listener.answers henabled) hstate hnone content)
    | accept | reject | terminate => exact absurd trivial hplace
  | state _ | timeout | transport _ _ | candidatesReady _ _ | worker _ _ | createChannel _ _ | signalingReady =>
    exact absurd trivial hplace

/-- One event: the program survives it if and only if it is in its place. -/
theorem survives_iff (hwired : s.Wired) (hsound : s.Sound) (halive : s.Alive) (henabled : s.Enabled e) : s.Survives e ↔ s.InPlace e := by
  constructor
  · rintro ⟨t, ht, -⟩
    by_contra hplace
    exact not_alive_handle henabled hplace (handleDebug_eq_some.mp ht).1
  · intro hplace
    refine ⟨s.handle e, handleDebug_eq_some.mpr ⟨halive.survived (survived_handle hwired hsound henabled hplace), rfl⟩, ?_⟩
    rintro L msg rfl hstate
    rw [hplace.1] at hstate
    cases hstate

end events

/-- A run: it survives its events if and only if they are in their places. -/
theorem along_survives_iff {s : PPSession} (hwired : s.Wired) (hsound : s.Sound) (halive : s.Alive) {es : List SessionEvent}
    (henabled : s.Along Enabled es) : s.Along Survives es ↔ s.Along InPlace es := by
  induction es generalizing s with
  | nil => rfl
  | cons e es ih =>
    have hhead := survives_iff hwired hsound halive henabled.1
    have htail : s.Survives e → ((s.handle e).Along Survives es ↔ (s.handle e).Along InPlace es) := by
      rintro ⟨t, ht, hreported⟩
      have hplace := hhead.mp ⟨t, ht, hreported⟩
      exact ih (hwired.handle henabled.1) (hsound.handle henabled.1 hplace) (handleDebug_eq_some.mp ht).1 henabled.2
    constructor
    · rintro ⟨h, hrest⟩
      exact ⟨hhead.mp h, (htail h).mp hrest⟩
    · rintro ⟨h, hrest⟩
      exact ⟨hhead.mpr h, (htail (hhead.mpr h)).mpr hrest⟩

/-- The build with `_DEBUG` meets what is asked of it in exactly the runs whose messages come in their states, with
    ports that fit, and whose user initiates no session with a negotiated proxy. -/
theorem messages_survived {allow_local_ips : Bool} {es : List SessionEvent}
    (henabled : (new allow_local_ips).Along Enabled es) :
    (new allow_local_ips).Along Survives es ↔ (new allow_local_ips).Along InPlace es :=
  along_survives_iff (wired_new allow_local_ips) (sound_init allow_local_ips) (by simp [Alive, new]) henabled

end PPSession

end

/-! ### A session that is called, and one that is answered too early -/

namespace PPSession
attribute [local instance] Host.plain

/-- An initiate message comes in and is accepted later. -/
def called : List SessionEvent :=
  [.createChannel (cstr "data") (cstr "prober"), .incoming id { type := .sessionInitiate, argvs := [cstr "data"] },
    .call id .accept, .state id]

theorem messages_survived_called : (new true).Along Survives called := by
  have henabled : (new true).Along Enabled called := by
    simp only [called, Along]
    refine ⟨fun p hp => ?_, listener_id, listener_id, listener_id, trivial⟩
    simp [new, GetTransportProxy] at hp
  refine (messages_survived henabled).mpr ?_
  simp only [called, Along]
  exact ⟨trivial, ⟨by decide, by simp, by simp⟩, trivial, trivial, trivial⟩

/-- An accept message that nobody has asked for ends the program. -/
theorem accept_unasked_not_survived :
    outOfState (new true).state .sessionAccept = true ∧
      ¬ (new true).Survives (.incoming id { type := .sessionAccept, argvs := [cstr "data"] }) := by
  have hended : (new true).handleDebug (.incoming id { type := .sessionAccept, argvs := [cstr "data"] }) = none := by decide
  refine ⟨rfl, fun ⟨t, ht, _⟩ => ?_⟩
  rw [hended] at ht
  cases ht

end PPSession

end ProbICE
