import ProbICE.PPSession

/-! # What the operations of a session do

For every operation: what it does to the proxies of the contents, which fields it leaves alone, and what
it signals. -/

namespace ProbICE

/-! ### Signals -/

namespace SessionEffect

/-- The effect is seen outside of the session and its transports. -/
def isSignal : SessionEffect → Bool
  | outgoingMessage _ | stateChanged _ _ | errorMessage _ | infoMessage _ | receivedTerminateReason _ | postState => true
  | assertFailed .expectedState | outOfRange => true
  | _ => false

theorem message?_of_not_isSignal {e : SessionEffect} (h : e.isSignal = false) : e.message? = none := by
  cases e with
  | outgoingMessage msg => cases h
  | _ => rfl

end SessionEffect

theorem isSignal_ofContent (k : CString) {e : TransportEffect} (h : e ≠ .assertFailed .expectedState) :
    (e.ofContent k).isSignal = false := by
  cases e with
  | post task => rfl
  | assertFailed a =>
    cases a with
    | expectedState => exact absurd rfl h
    | _ => rfl

/-- No effect is the failure of a `CheckState`. -/
def Quiet (es : List TransportEffect) : Prop := ∀ e ∈ es, e ≠ .assertFailed .expectedState

theorem quiet_nil : Quiet [] := by simp [Quiet]

/-- All that is done is to post. -/
def Posts (es : List TransportEffect) : Prop := ∀ e ∈ es, ∃ task, e = .post task

theorem posts_nil : Posts [] := by simp [Posts]

theorem posts_one (task : TransportTask) : Posts [.post task] := by simp [Posts]

theorem Posts.append {es es' : List TransportEffect} (h : Posts es) (h' : Posts es') : Posts (es ++ es') := by
  intro e he
  rcases List.mem_append.mp he with he | he
  · exact h e he
  · exact h' e he

theorem posts_ite {c : Prop} [Decidable c] {es : List TransportEffect} (h : c → Posts es) : Posts (if c then es else []) := by
  split
  · rename_i hc
    exact h hc
  · exact posts_nil

theorem Posts.quiet {es : List TransportEffect} (h : Posts es) : Quiet es := by
  intro e he
  obtain ⟨task, rfl⟩ := h e he
  simp

/-- An implementation that is set posts, or it has been destroyed. -/
def Sets (es : List TransportEffect) : Prop := ∀ e ∈ es, (∃ task, e = .post task) ∨ e = .assertFailed .implAlive

theorem Sets.append {es es' : List TransportEffect} (h : Sets es) (h' : Sets es') : Sets (es ++ es') := by
  intro e he
  exact (List.mem_append.mp he).elim (h e) (h' e)

theorem sets_of_posts {es : List TransportEffect} (h : Posts es) : Sets es := fun e he => .inl (h e he)

theorem Sets.quiet {es : List TransportEffect} (h : Sets es) : Quiet es := by
  intro e he
  obtain ⟨task, rfl⟩ | rfl := h e he
  · simp
  · simp

variable [Host]

namespace PPSession

/-- The signals among the effects of a session. -/
def signals (s : PPSession) : List SessionEffect := s.out.filter SessionEffect.isSignal

theorem messages_eq (s : PPSession) : s.messages = s.signals.filterMap SessionEffect.message? := by
  have hall : ∀ es : List SessionEffect,
      es.filterMap SessionEffect.message? = (es.filter SessionEffect.isSignal).filterMap SessionEffect.message? := by
    intro es
    induction es with
    | nil => rfl
    | cons e es ih =>
      cases h : e.isSignal with
      | false => rw [List.filter_cons_of_neg (by simp [h]), List.filterMap_cons_none (SessionEffect.message?_of_not_isSignal h), ih]
      | true => rw [List.filter_cons_of_pos h, List.filterMap_cons, List.filterMap_cons, ih]
  exact hall s.out

theorem messages_of_signals {s t : PPSession} {es : List SessionEffect} (h : t.signals = s.signals ++ es) :
    t.messages = s.messages ++ es.filterMap SessionEffect.message? := by
  rw [messages_eq, h, List.filterMap_append, ← messages_eq]

omit [Host] in
theorem filterMap_message?_outgoing (ms : List PPMessage) :
    (ms.map SessionEffect.outgoingMessage).filterMap SessionEffect.message? = ms := by
  rw [List.filterMap_map]
  exact List.filterMap_some

theorem signals_emit (s : PPSession) {e : SessionEffect} (h : e.isSignal = true) : (s.emit e).signals = s.signals ++ [e] := by
  rw [signals, emit, List.filter_append, List.filter_singleton, h]
  rfl

/-- The two sessions differ in their proxies and their unseen effects only. -/
structure SameBut (s t : PPSession) : Prop where
  state : t.state = s.state
  content_name : t.content_name = s.content_name
  pending_candidates : t.pending_candidates = s.pending_candidates
  allow_local_ips : t.allow_local_ips = s.allow_local_ips
  signals : t.signals = s.signals

theorem SameBut.refl (s : PPSession) : s.SameBut s := ⟨rfl, rfl, rfl, rfl, rfl⟩

theorem SameBut.trans {s t u : PPSession} (h : s.SameBut t) (h' : t.SameBut u) : s.SameBut u where
  state := h'.state.trans h.state
  content_name := h'.content_name.trans h.content_name
  pending_candidates := h'.pending_candidates.trans h.pending_candidates
  allow_local_ips := h'.allow_local_ips.trans h.allow_local_ips
  signals := h'.signals.trans h.signals

end PPSession

/-! ### The effects of a proxy -/

namespace TransportProxy

theorem posts_GetOrCreateImpl (p : TransportProxy) (name : CString) : Posts (p.GetOrCreateImpl name).2 := by
  unfold GetOrCreateImpl
  split
  · exact posts_nil
  · exact posts_ite fun _ => posts_one .connecting

theorem posts_DestroyChannel (t : Transport) (name : CString) : Posts (t.DestroyChannel name).2 := by
  unfold Transport.DestroyChannel
  split
  · exact posts_nil
  · exact (posts_ite fun _ => posts_one .connecting).append (posts_ite fun _ => posts_one .writeState)

theorem sets_SetProxyImpl (p : TransportProxy) (name : CString) : Sets (p.SetProxyImpl name).2 := by
  have hgone {c : Prop} [Decidable c] : Sets (if c then [] else [.assertFailed .implAlive]) := by
    split
    · exact sets_of_posts posts_nil
    · exact fun e he => .inr (List.mem_singleton.mp he)
  refine (sets_of_posts (p.posts_GetOrCreateImpl name)).append (Sets.append ?_ hgone)
  split
  · exact sets_of_posts (posts_DestroyChannel _ name)
  · exact sets_of_posts posts_nil

theorem posts_ConnectChannels (t : Transport) : Posts t.ConnectChannels.2 := by
  unfold Transport.ConnectChannels
  split
  · exact posts_nil
  · exact (posts_one .candidateReady).append (posts_one .connecting)

theorem posts_forEach {f : TransportProxy → CString → TransportProxy × List TransportEffect}
    (hf : ∀ p name, Posts (f p name).2) (p : TransportProxy) (names : List CString) : Posts (Emit.forEach f p names).2 :=
  Emit.mem_forEach (P := fun _ => True) (fun p name _ _ => ⟨trivial, hf p name⟩) trivial

theorem sets_CompleteNegotiation (p : TransportProxy) : Sets p.CompleteNegotiation.2 := by
  unfold CompleteNegotiation
  split
  · exact sets_of_posts posts_nil
  · have hall : Sets (Emit.forEach SetProxyImpl { p with state := .negotiated } p.channels.keys).2 :=
      Emit.mem_forEach (P := fun _ => True) (fun p name _ _ => ⟨trivial, sets_SetProxyImpl p name⟩) trivial
    exact hall.append (sets_of_posts (posts_ConnectChannels _))

theorem posts_SpeculativelyConnectChannels {p : TransportProxy} (h : p.state ≠ .negotiated) :
    Posts p.SpeculativelyConnectChannels.2 :=
  (posts_ite fun hstate => absurd hstate h).append
    ((posts_forEach posts_GetOrCreateImpl _ _).append (posts_ConnectChannels _))

theorem quiet_SpeculativelyConnectChannels (p : TransportProxy) : Quiet p.SpeculativelyConnectChannels.2 := by
  intro e he
  rcases List.mem_append.mp he with he | he
  · -- a proxy that is negotiated is told to connect
    split at he
    · obtain rfl := List.mem_singleton.mp he
      simp
    · cases he
  · exact ((posts_forEach posts_GetOrCreateImpl _ _).append (posts_ConnectChannels _)).quiet e he

theorem quiet_CompleteNegotiation (p : TransportProxy) : Quiet p.CompleteNegotiation.2 := (sets_CompleteNegotiation p).quiet

end TransportProxy

namespace PPSession

/-! ### Proxies -/

section onProxy
variable (s : PPSession) (k : CString) {f : TransportProxy → TransportProxy × List TransportEffect}

theorem onProxy_of_none (h : s.transports[k]? = none) : s.onProxy k f = s := by
  simp [onProxy, GetTransportProxy, h]

theorem onProxy_of_some {p : TransportProxy} (h : s.transports[k]? = some p) :
    s.onProxy k f =
      { s with
        transports := s.transports.insert k (f p).1
        out := s.out ++ (f p).2.map (TransportEffect.ofContent k) } := by
  simp [onProxy, GetTransportProxy, h]

/-- An operation that leaves the proxy as it is leaves the session as it is. -/
theorem onProxy_self {p : TransportProxy} (hp : s.transports[k]? = some p) (hf : f p = (p, [])) : s.onProxy k f = s := by
  have htransports : s.transports.insert k p = s.transports := by
    apply Std.ExtTreeMap.ext_getElem?
    intro j
    rw [Std.ExtTreeMap.getElem?_insert]
    split
    · rename_i hj
      rw [← Std.compare_eq_iff_eq.mp hj, hp]
    · rfl
  rw [onProxy_of_some s k hp, hf, htransports]
  simp

theorem sameBut_onProxy (hf : ∀ p, Quiet (f p).2) : s.SameBut (s.onProxy k f) := by
  rcases h : s.transports[k]? with _ | p
  · rw [onProxy_of_none s k h]
    exact .refl s
  · rw [onProxy_of_some s k h]
    refine ⟨rfl, rfl, rfl, rfl, ?_⟩
    have hquiet : ((f p).2.map (TransportEffect.ofContent k)).filter SessionEffect.isSignal = [] := by
      rw [List.filter_eq_nil_iff]
      intro e he
      obtain ⟨e', he', rfl⟩ := List.mem_map.mp he
      simp [isSignal_ofContent k (hf p e' he')]
    rw [signals, List.filter_append, hquiet, List.append_nil, signals]

theorem transports_onProxy (j : CString) :
    (s.onProxy k f).transports[j]? = if j = k then (s.transports[k]?).map fun p => (f p).1 else s.transports[j]? := by
  rcases h : s.transports[k]? with _ | p
  · rw [onProxy_of_none s k h]
    split
    · subst j
      exact h
    · rfl
  · rw [onProxy_of_some s k h]
    simp only [Std.ExtTreeMap.getElem?_insert, Std.compare_eq_iff_eq, Option.map_some]
    by_cases hj : j = k
    · simp [hj]
    · simp [hj, Ne.symm hj]

end onProxy

/-- What every operation on the proxy of one content keeps, the operations on a list of contents keep. -/
theorem foldl_sameBut {f : PPSession → CString → PPSession} (hf : ∀ (s : PPSession) k, s.SameBut (f s k)) (s : PPSession)
    (ks : List CString) : s.SameBut (ks.foldl f s) := by
  induction ks generalizing s with
  | nil => exact .refl s
  | cons k ks ih => exact (hf s k).trans (ih (f s k))

/-- Operations that each change the proxy of their own content. -/
theorem transports_foldl {f : PPSession → CString → PPSession} {g : TransportProxy → TransportProxy}
    (hf : ∀ (s : PPSession) k j, (f s k).transports[j]? = if j = k then (s.transports[k]?).map g else s.transports[j]?)
    (s : PPSession) {ks : List CString} (hks : ks.Nodup) (j : CString) :
    (ks.foldl f s).transports[j]? = if j ∈ ks then (s.transports[j]?).map g else s.transports[j]? := by
  induction ks generalizing s with
  | nil => simp
  | cons k ks ih =>
    rw [List.nodup_cons] at hks
    rw [List.foldl_cons, ih (f s k) hks.2, hf]
    by_cases hj : j = k
    · subst hj
      simp [hks.1]
    · simp [hj]

theorem transports_foldl_keys {f : PPSession → CString → PPSession} {g : TransportProxy → TransportProxy}
    (hf : ∀ (s : PPSession) k j, (f s k).transports[j]? = if j = k then (s.transports[k]?).map g else s.transports[j]?)
    (s : PPSession) (j : CString) : (s.transports.keys.foldl f s).transports[j]? = (s.transports[j]?).map g := by
  rw [transports_foldl hf s Std.ExtTreeMap.nodup_keys]
  by_cases hj : j ∈ s.transports.keys
  · simp [hj]
  · have hnone : s.transports[j]? = none := Std.ExtTreeMap.getElem?_eq_none (by simpa using hj)
    simp [hnone]

theorem sameBut_SpeculativelyConnectAll (s : PPSession) : s.SameBut s.SpeculativelyConnectAllTransportChannels :=
  foldl_sameBut (f := fun s k => s.onProxy k TransportProxy.SpeculativelyConnectChannels)
    (fun s k => s.sameBut_onProxy k TransportProxy.quiet_SpeculativelyConnectChannels) s _

theorem transports_SpeculativelyConnectAll (s : PPSession) (j : CString) :
    s.SpeculativelyConnectAllTransportChannels.transports[j]? =
      (s.transports[j]?).map fun p => p.SpeculativelyConnectChannels.1 :=
  transports_foldl_keys (f := fun s k => s.onProxy k TransportProxy.SpeculativelyConnectChannels)
    (fun s k j => s.transports_onProxy k j) s j

theorem sameBut_GetOrCreateTransportProxy (s : PPSession) (k : CString) : s.SameBut (s.GetOrCreateTransportProxy k) := by
  unfold GetOrCreateTransportProxy
  split
  · exact .refl s
  · exact ⟨rfl, rfl, rfl, rfl, rfl⟩

@[simp] theorem out_GetOrCreateTransportProxy (s : PPSession) (k : CString) :
    (s.GetOrCreateTransportProxy k).out = s.out := by
  unfold GetOrCreateTransportProxy
  split <;> rfl

/-- The proxy of a content, made anew where there is none. -/
def proxyOrNew (s : PPSession) (k : CString) : TransportProxy :=
  (s.transports[k]?).getD (.new k (.new s.allow_local_ips))

theorem transports_GetOrCreateTransportProxy (s : PPSession) (k j : CString) :
    (s.GetOrCreateTransportProxy k).transports[j]? = if j = k then some (s.proxyOrNew k) else s.transports[j]? := by
  unfold GetOrCreateTransportProxy GetTransportProxy proxyOrNew
  rcases h : s.transports[k]? with _ | p
  · simp only [Std.ExtTreeMap.getElem?_insert, Std.compare_eq_iff_eq, Option.getD_none]
    by_cases hj : j = k
    · simp [hj]
    · simp [hj, Ne.symm hj]
  · by_cases hj : j = k
    · simp [hj, h]
    · simp [hj]

/-! ### SetState -/

/-- The signals of `SetState`. -/
def stateSignals (s : PPSession) (state : SessionState) : List SessionEffect :=
  [.stateChanged state s.content_name, .postState]

theorem SetState_ne (s : PPSession) {state : SessionState} (h : state ≠ s.state) :
    s.SetState id state = { s with state, out := s.out ++ s.stateSignals state } := by
  simp [SetState, h, emit, stateSignals]

theorem SetState_self (s : PPSession) : s.SetState id s.state = s := by
  simp [SetState]

theorem signals_SetState (s : PPSession) {state : SessionState} (h : state ≠ s.state) :
    (s.SetState id state).signals = s.signals ++ s.stateSignals state := by
  rw [SetState_ne s h, signals, List.filter_append]
  rfl

@[simp] theorem SetState_frame (s : PPSession) (state : SessionState) :
    (s.SetState id state).state = state ∧ (s.SetState id state).transports = s.transports ∧
      (s.SetState id state).content_name = s.content_name ∧
      (s.SetState id state).pending_candidates = s.pending_candidates ∧
      (s.SetState id state).allow_local_ips = s.allow_local_ips := by
  unfold SetState
  split
  · rename_i h
    exact ⟨h.symm, rfl, rfl, rfl, rfl⟩
  · exact ⟨rfl, rfl, rfl, rfl, rfl⟩

/-! ### Transport information -/

/-- The candidates are for channels that the transport has, and it takes them. -/
def Acceptable (t : Transport) (candidates : List Candidate) : Bool :=
  candidates.all fun cand => t.VerifyCandidate cand && t.HasChannel cand.name

/-- What `OnRemoteCandidates` does to the proxy of the content. -/
def takeCandidates (p : TransportProxy) (candidates : List Candidate) : TransportProxy :=
  let p := p.CompleteNegotiation.1
  if Acceptable p.transport candidates then { p with transport := p.transport.OnRemoteCandidates candidates } else p

section OnRemoteCandidates
variable (s : PPSession) (p2pInfo : P2PInfo)

theorem sameBut_OnRemoteCandidates : s.SameBut (s.OnRemoteCandidates p2pInfo).1 := by
  have hneg := s.sameBut_onProxy p2pInfo.content_name TransportProxy.quiet_CompleteNegotiation
  unfold OnRemoteCandidates
  split
  · exact .refl s
  · simp only
    split
    · exact hneg
    · split
      · exact hneg.trans (sameBut_onProxy _ _ fun _ => quiet_nil)
      · exact hneg

/-- `OnRemoteCandidates` is content when the proxy exists and its transport takes every candidate. -/
theorem OnRemoteCandidates_spec :
    (s.OnRemoteCandidates p2pInfo).2 =
        (s.transports[p2pInfo.content_name]?).any
          (fun p => Acceptable p.CompleteNegotiation.1.transport p2pInfo.candidates) ∧
      ∀ j : CString, (s.OnRemoteCandidates p2pInfo).1.transports[j]? = (s.transports[j]?).map fun p =>
        if j = p2pInfo.content_name then takeCandidates p p2pInfo.candidates else p := by
  rcases h : s.transports[p2pInfo.content_name]? with _ | p
  · have hnone : s.OnRemoteCandidates p2pInfo = (s, false) := by simp [OnRemoteCandidates, GetTransportProxy, h]
    rw [hnone]
    refine ⟨rfl, fun j => ?_⟩
    by_cases hj : j = p2pInfo.content_name
    · simp [hj, h]
    · simp [hj]
  · have hget : (s.onProxy p2pInfo.content_name TransportProxy.CompleteNegotiation).GetTransport p2pInfo.content_name =
        some p.CompleteNegotiation.1.transport := by
      simp [GetTransport, GetTransportProxy, transports_onProxy, h]
    have hp : s.GetTransportProxy p2pInfo.content_name = some p := h
    unfold OnRemoteCandidates
    simp only [hp, hget]
    by_cases hacc : Acceptable p.CompleteNegotiation.1.transport p2pInfo.candidates = true
    · rw [if_pos (by exact hacc)]
      refine ⟨hacc.symm, fun j => ?_⟩
      by_cases hj : j = p2pInfo.content_name
      · simp [hj, transports_onProxy, h, takeCandidates, hacc]
      · simp [hj, transports_onProxy]
    · rw [if_neg (by exact hacc)]
      refine ⟨by simpa using hacc, fun j => ?_⟩
      by_cases hj : j = p2pInfo.content_name
      · simp [hj, transports_onProxy, h, takeCandidates, hacc]
      · simp [hj, transports_onProxy]

end OnRemoteCandidates

/-- The message about the candidates that a proxy has kept back. -/
def unsentMessage (k : CString) (p : TransportProxy) : Option PPMessage :=
  if p.unsent_candidates = [] then none else some (transportInfo k p.unsent_candidates)

/-- The messages that `SendAllUnsentTransportInfoMessages` emits. -/
def unsentMessages (s : PPSession) : List PPMessage :=
  s.transports.keys.filterMap fun k => (s.transports[k]?).bind (unsentMessage k)

theorem type_of_mem_unsentMessages {s : PPSession} {m : PPMessage} (h : m ∈ s.unsentMessages) : m.type = .transportInfo := by
  obtain ⟨k, -, h⟩ := List.mem_filterMap.mp h
  obtain ⟨p, -, h⟩ := Option.bind_eq_some_iff.mp h
  unfold unsentMessage at h
  split at h
  · cases h
  · obtain rfl := Option.some.inj h
    rfl

theorem ClearUnsentCandidates_of_nil {p : TransportProxy} (h : p.unsent_candidates = []) :
    p.ClearUnsentCandidates = p := by
  rw [TransportProxy.ClearUnsentCandidates, ← h]

section SendUnsent
variable (s : PPSession) (k : CString)

theorem SendUnsent_of_none (h : (s.transports[k]?).bind (unsentMessage k) = none) : s.SendUnsent k = s := by
  unfold SendUnsent GetTransportProxy
  rcases hp : s.transports[k]? with _ | p
  · rfl
  · have hunsent : p.unsent_candidates = [] := by
      by_contra hne
      simp [hp, unsentMessage, hne] at h
    simp [hunsent]

theorem SendUnsent_of_some {m : PPMessage} (h : (s.transports[k]?).bind (unsentMessage k) = some m) :
    s.SendUnsent k = (s.emit (.outgoingMessage m)).onProxy k fun p => (p.ClearUnsentCandidates, []) := by
  obtain ⟨p, hp, hm⟩ := Option.bind_eq_some_iff.mp h
  unfold unsentMessage at hm
  split at hm
  · cases hm
  · rename_i hunsent
    obtain rfl := Option.some.inj hm
    simp [SendUnsent, GetTransportProxy, hp, List.length_pos_iff.mpr hunsent, SendTransportInfoMessage]

theorem transports_SendUnsent (j : CString) :
    (s.SendUnsent k).transports[j]? =
      if j = k then (s.transports[k]?).map TransportProxy.ClearUnsentCandidates else s.transports[j]? := by
  rcases h : (s.transports[k]?).bind (unsentMessage k) with _ | m
  · rw [SendUnsent_of_none s k h]
    by_cases hj : j = k
    · subst hj
      rcases hp : s.transports[j]? with _ | p
      · simp
      · have hunsent : p.unsent_candidates = [] := by
          by_contra hne
          simp [hp, unsentMessage, hne] at h
        simp [ClearUnsentCandidates_of_nil hunsent]
    · simp [hj]
  · rw [SendUnsent_of_some s k h, transports_onProxy]
    rfl

/-- A round of the loop emits the message of its content, if any, and touches no other field. -/
theorem SendUnsent_frame :
    (s.SendUnsent k).signals =
        s.signals ++ (((s.transports[k]?).bind (unsentMessage k)).map SessionEffect.outgoingMessage).toList ∧
      (s.SendUnsent k).state = s.state ∧ (s.SendUnsent k).content_name = s.content_name ∧
      (s.SendUnsent k).pending_candidates = s.pending_candidates ∧
      (s.SendUnsent k).allow_local_ips = s.allow_local_ips := by
  rcases h : (s.transports[k]?).bind (unsentMessage k) with _ | m
  · rw [SendUnsent_of_none s k h]
    exact ⟨by simp, rfl, rfl, rfl, rfl⟩
  · have hsame := (s.emit (.outgoingMessage m)).sameBut_onProxy k (f := fun p => (p.ClearUnsentCandidates, []))
      fun _ => quiet_nil
    rw [SendUnsent_of_some s k h]
    exact ⟨hsame.signals.trans (signals_emit s rfl), hsame.state, hsame.content_name, hsame.pending_candidates,
      hsame.allow_local_ips⟩

end SendUnsent

theorem foldl_SendUnsent_frame (s : PPSession) {ks : List CString} (hks : ks.Nodup) :
    (ks.foldl SendUnsent s).signals =
        s.signals ++ (ks.filterMap fun k => (s.transports[k]?).bind (unsentMessage k)).map .outgoingMessage ∧
      (ks.foldl SendUnsent s).state = s.state ∧ (ks.foldl SendUnsent s).content_name = s.content_name ∧
      (ks.foldl SendUnsent s).pending_candidates = s.pending_candidates ∧
      (ks.foldl SendUnsent s).allow_local_ips = s.allow_local_ips := by
  induction ks generalizing s with
  | nil => simp
  | cons k ks ih =>
    rw [List.nodup_cons] at hks
    obtain ⟨hsignals, hframe⟩ := ih (s.SendUnsent k) hks.2
    obtain ⟨hfirst, hstate, hname, hpending, hallow⟩ := s.SendUnsent_frame k
    have hrest : (ks.filterMap fun j => ((s.SendUnsent k).transports[j]?).bind (unsentMessage j)) =
        ks.filterMap fun j => (s.transports[j]?).bind (unsentMessage j) := by
      refine List.filterMap_congr fun j hj => ?_
      rw [transports_SendUnsent, if_neg (by rintro rfl; exact hks.1 hj)]
    rw [List.foldl_cons]
    refine ⟨?_, hframe.1.trans hstate, hframe.2.1.trans hname, hframe.2.2.1.trans hpending, hframe.2.2.2.trans hallow⟩
    rw [hsignals, hfirst, hrest, List.filterMap_cons, List.append_assoc]
    cases (s.transports[k]?).bind (unsentMessage k) <;> rfl

@[simp] theorem SendAllUnsent_frame (s : PPSession) :
    s.SendAllUnsentTransportInfoMessages.signals = s.signals ++ s.unsentMessages.map .outgoingMessage ∧
      s.SendAllUnsentTransportInfoMessages.state = s.state ∧
      s.SendAllUnsentTransportInfoMessages.content_name = s.content_name ∧
      s.SendAllUnsentTransportInfoMessages.pending_candidates = false ∧
      s.SendAllUnsentTransportInfoMessages.allow_local_ips = s.allow_local_ips :=
  foldl_SendUnsent_frame { s with pending_candidates := false } Std.ExtTreeMap.nodup_keys

theorem transports_SendAllUnsent (s : PPSession) (j : CString) :
    s.SendAllUnsentTransportInfoMessages.transports[j]? =
      (s.transports[j]?).map TransportProxy.ClearUnsentCandidates :=
  transports_foldl_keys transports_SendUnsent { s with pending_candidates := false } j

/-! ### The operations -/

section operations
variable (s : PPSession)

theorem Initiate_refused {L : PPSession → PPSession} (h : s.state ≠ .init) (content : CString) :
    s.Initiate L content = (s, false) := by
  simp [Initiate, h]

/-- `Initiate` in the state `init`. -/
theorem Initiate_init (h : s.state = .init) (content : CString) :
    let t := (s.Initiate id content).1
    t.state = .sentInitiate ∧ t.content_name = content ∧ t.pending_candidates = true ∧
      t.allow_local_ips = s.allow_local_ips ∧
      t.signals = s.signals ++ [.outgoingMessage { type := .sessionInitiate, argvs := [content] },
        .stateChanged .sentInitiate content, .postState] ∧
      ∀ j : CString, t.transports[j]? =
        (if j = content then some (s.proxyOrNew content) else s.transports[j]?).map
          fun p => p.SpeculativelyConnectChannels.1 := by
  set s₁ := { s with content_name := content, local_description := true, pending_candidates := true } with hs₁
  set s₂ := s₁.GetOrCreateTransportProxy content with hs₂
  set s₃ := s₂.emit (.outgoingMessage { type := .sessionInitiate, argvs := [content] }) with hs₃
  have h₂ : s₁.SameBut s₂ := sameBut_GetOrCreateTransportProxy s₁ content
  have hne : SessionState.sentInitiate ≠ s₃.state := by
    rw [show s₃.state = .init from h₂.state.trans h]
    decide
  have ht : (s.Initiate id content).1 = (s₃.SetState id .sentInitiate).SpeculativelyConnectAllTransportChannels := by
    rw [Initiate, if_neg (by simp [h])]
    rfl
  have h₄ := (s₃.SetState id .sentInitiate).sameBut_SpeculativelyConnectAll
  obtain ⟨hstate, htransports, hname, hpending, hallow⟩ := s₃.SetState_frame .sentInitiate
  intro t
  rw [show t = _ from ht]
  refine ⟨h₄.state.trans hstate, (h₄.content_name.trans hname).trans h₂.content_name,
    (h₄.pending_candidates.trans hpending).trans h₂.pending_candidates,
    (h₄.allow_local_ips.trans hallow).trans h₂.allow_local_ips, ?_, fun j => ?_⟩
  · rw [h₄.signals, signals_SetState s₃ hne, signals_emit s₂ rfl, h₂.signals, List.append_assoc]
    rw [show s₃.stateSignals .sentInitiate = [.stateChanged .sentInitiate content, .postState] by
      rw [stateSignals, show s₃.content_name = content from h₂.content_name]]
    rfl
  · rw [transports_SpeculativelyConnectAll, htransports]
    exact congrArg (Option.map _) (transports_GetOrCreateTransportProxy s₁ content j)

theorem Accept_refused {L : PPSession → PPSession} (h : s.state ≠ .receivedInitiate) : s.Accept L = (s, false) := by
  simp [Accept, h]

/-- `Accept` in the state `receivedInitiate`. -/
theorem Accept_receivedInitiate (h : s.state = .receivedInitiate) :
    let t := (s.Accept id).1
    t.state = .sentAccept ∧ t.content_name = s.content_name ∧ t.pending_candidates = false ∧
      t.allow_local_ips = s.allow_local_ips ∧
      t.signals = s.signals ++ [.outgoingMessage { type := .sessionAccept, argvs := [s.content_name] },
        .stateChanged .sentAccept s.content_name, .postState] ++ s.unsentMessages.map SessionEffect.outgoingMessage ∧
      ∀ j : CString, t.transports[j]? = (s.transports[j]?).map TransportProxy.ClearUnsentCandidates := by
  set s₁ := { s with local_description := true }.emit
    (.outgoingMessage { type := .sessionAccept, argvs := [s.content_name] }) with hs₁
  have hne : SessionState.sentAccept ≠ s₁.state := by
    rw [show s₁.state = .receivedInitiate from h]
    decide
  have ht : (s.Accept id).1 = (s₁.SetState id .sentAccept).SendAllUnsentTransportInfoMessages := by
    rw [Accept, if_neg (by simp [h])]
  obtain ⟨hsignals, hstate, hname, hpending, hallow⟩ := (s₁.SetState id .sentAccept).SendAllUnsent_frame
  obtain ⟨hstate', htransports, hname', -, hallow'⟩ := s₁.SetState_frame .sentAccept
  have hunsent : (s₁.SetState id .sentAccept).unsentMessages = s.unsentMessages := by
    rw [unsentMessages, htransports]
    rfl
  intro t
  rw [show t = _ from ht]
  refine ⟨hstate.trans hstate', hname.trans hname', hpending, hallow.trans hallow', ?_, fun j => ?_⟩
  · have hname₁ : s₁.stateSignals .sentAccept = [.stateChanged .sentAccept s.content_name, .postState] := rfl
    have hs : ({ s with local_description := true } : PPSession).signals = s.signals := rfl
    rw [hsignals, hunsent, signals_SetState s₁ hne, signals_emit _ rfl, hs, hname₁]
    simp
  · rw [transports_SendAllUnsent, htransports]
    rfl

/-- The states in which `Reject` emits a message. -/
def rejects (state : SessionState) : Bool := state = .receivedInitiate ∨ state = .receivedModify

/-- The states in which `TerminateWithReason` emits a message. -/
def terminates (state : SessionState) : Bool :=
  state ≠ .sentTerminate ∧ state ≠ .receivedTerminate ∧ state ≠ .sentReject ∧ state ≠ .receivedReject

theorem messages_emit_outgoing (m : PPMessage) : (s.emit (.outgoingMessage m)).messages = s.messages ++ [m] :=
  messages_of_signals (signals_emit s rfl)

theorem messages_SetState (state : SessionState) : (s.SetState id state).messages = s.messages := by
  by_cases h : state = s.state
  · rw [h, SetState_self]
  · rw [messages_of_signals (signals_SetState s h)]
    exact List.append_nil _

theorem messages_Reject : (s.Reject id).1.messages =
    s.messages ++ if rejects s.state then [{ type := .sessionReject, argvs := [] }] else [] := by
  unfold Reject rejects
  by_cases h : s.state = .receivedInitiate ∨ s.state = .receivedModify
  · rw [if_neg (by simpa [not_or, imp_iff_not_or] using h), messages_SetState, messages_emit_outgoing]
    simp [h]
  · rw [if_pos (by simpa [not_or] using h)]
    simp [h]

theorem messages_TerminateWithReason : (s.TerminateWithReason id).1.messages =
    s.messages ++ if terminates s.state then [{ type := .sessionTerminate, argvs := [] }] else [] := by
  unfold TerminateWithReason terminates
  split
  · rename_i h
    simp [h]
  · rename_i h
    simp [h]
  · rename_i h
    rw [messages_SetState]
    simp [h]
  · rename_i h
    rw [messages_SetState]
    simp [h]
  · rename_i h₁ h₂ h₃ h₄
    rw [messages_SetState, messages_emit_outgoing, if_pos (decide_eq_true ⟨h₁, h₂, h₃, h₄⟩)]

/-- A batch of local candidates is sent at once, or kept back while `pending_candidates` is set. -/
theorem OnTransportCandidatesReady_of_some {k : CString} {p : TransportProxy} (h : s.transports[k]? = some p)
    (candidates : List Candidate) :
    s.OnTransportCandidatesReady k candidates =
      if s.pending_candidates then s.onProxy k fun p => (p.AddUnsentCandidates candidates, [])
      else s.emit (.outgoingMessage (transportInfo k candidates)) := by
  have hp : s.GetTransportProxy k = some p := h
  rw [OnTransportCandidatesReady, hp]
  rfl

theorem OnTransportCandidatesReady_of_none {k : CString} (h : s.transports[k]? = none) (candidates : List Candidate) :
    s.OnTransportCandidatesReady k candidates = s := by
  have hp : s.GetTransportProxy k = none := h
  rw [OnTransportCandidatesReady, hp]

/-! ### Incoming messages -/

theorem CheckState_eq {state : SessionState} (h : s.state = state) : s.CheckState state = (s, true) := if_pos h

theorem CheckState_ne {state : SessionState} (h : s.state ≠ state) :
    s.CheckState state = (s.emit (.assertFailed .expectedState), false) := if_neg h

theorem OnInitiateMessage_refused {L : PPSession → PPSession} (h : s.state ≠ .init) (msg : PPMessage) :
    s.OnInitiateMessage L msg = (s.emit (.assertFailed .expectedState), false) := by
  simp [OnInitiateMessage, s.CheckState_ne h]

theorem OnInitiateMessage_eq (L : PPSession → PPSession) (h : s.state = .init) (msg : PPMessage) :
    s.OnInitiateMessage L msg = s.withContent msg fun content =>
      let t := (({ s with content_name := content, remote_description := true } : PPSession).CreateTransportProxies
        { content_name := content, candidates := [] }).SetState L .receivedInitiate
      if t.state ≠ .sentReject then t.OnRemoteCandidates { content_name := content, candidates := [] } else (t, true) := by
  simp [OnInitiateMessage, s.CheckState_eq h]

theorem OnInitiateMessage_short (h : s.state = .init) {msg : PPMessage} (hargvs : msg.argvs = []) :
    s.OnInitiateMessage id msg = (s.emit .outOfRange, true) := by
  simp [OnInitiateMessage, CheckState, h, withContent, hargvs]

/-- An initiate message in the state `init`. -/
theorem OnInitiateMessage_init (h : s.state = .init) {msg : PPMessage} {content : CString} {rest : List CString}
    (hargvs : msg.argvs = content :: rest) :
    let t := (s.OnInitiateMessage id msg).1
    (s.OnInitiateMessage id msg).2 = true ∧ t.state = .receivedInitiate ∧ t.content_name = content ∧
      t.pending_candidates = true ∧ t.allow_local_ips = s.allow_local_ips ∧
      t.signals = s.signals ++ [.stateChanged .receivedInitiate content, .postState] ∧
      ∀ j : CString, t.transports[j]? =
        if j = content then some (takeCandidates (s.proxyOrNew content) []) else s.transports[j]? := by
  set s₁ := { s with content_name := content, remote_description := true, pending_candidates := true } with hs₁
  set s₂ := s₁.GetOrCreateTransportProxy content with hs₂
  have h₂ : s₁.SameBut s₂ := sameBut_GetOrCreateTransportProxy s₁ content
  have hne : SessionState.receivedInitiate ≠ s₂.state := by
    rw [show s₂.state = .init from h₂.state.trans h]
    decide
  have ht : s.OnInitiateMessage id msg =
      (s₂.SetState id .receivedInitiate).OnRemoteCandidates { content_name := content, candidates := [] } := by
    have hcheck : s.CheckState .init = (s, true) := by simp [CheckState, h]
    unfold OnInitiateMessage
    rw [hcheck]
    simp only [not_true_eq_false, if_false, withContent, hargvs, List.getElem?_cons_zero]
    refine if_pos ?_
    show (s₂.SetState id .receivedInitiate).state ≠ .sentReject
    rw [(s₂.SetState_frame .receivedInitiate).1]
    decide
  obtain ⟨hstate, htransports, hname, hpending, hallow⟩ := s₂.SetState_frame .receivedInitiate
  have h₃ := (s₂.SetState id .receivedInitiate).sameBut_OnRemoteCandidates { content_name := content, candidates := [] }
  have hproxy : (s₂.SetState id .receivedInitiate).transports[content]? = some (s.proxyOrNew content) := by
    rw [htransports]
    exact (transports_GetOrCreateTransportProxy s₁ content content).trans (if_pos rfl)
  obtain ⟨hvalid, hafter⟩ := (s₂.SetState id .receivedInitiate).OnRemoteCandidates_spec
    { content_name := content, candidates := [] }
  intro t
  rw [show t = _ from congrArg Prod.fst ht, ht]
  refine ⟨by rw [hvalid, hproxy]; rfl, h₃.state.trans hstate, (h₃.content_name.trans hname).trans h₂.content_name,
    (h₃.pending_candidates.trans hpending).trans h₂.pending_candidates,
    (h₃.allow_local_ips.trans hallow).trans h₂.allow_local_ips, ?_, fun j => ?_⟩
  · have hsignals : s₂.stateSignals .receivedInitiate = [.stateChanged .receivedInitiate content, .postState] := by
      rw [stateSignals, h₂.content_name]
    rw [h₃.signals, signals_SetState s₂ hne, h₂.signals, hsignals]
    rfl
  · rw [hafter, htransports, transports_GetOrCreateTransportProxy]
    by_cases hj : j = content
    · simp only [hj, if_true, Option.map_some]
      rfl
    · simp [hj, hs₁]

theorem OnAcceptMessage_refused {L : PPSession → PPSession} (h : s.state ≠ .sentInitiate) (msg : PPMessage) :
    s.OnAcceptMessage L msg = (s.emit (.assertFailed .expectedState), false) := by
  simp [OnAcceptMessage, s.CheckState_ne h]

theorem OnAcceptMessage_eq (L : PPSession → PPSession) (h : s.state = .sentInitiate) (msg : PPMessage) :
    s.OnAcceptMessage L msg = s.withContent msg fun content =>
      let t := ({ s.SendAllUnsentTransportInfoMessages with remote_description := true } : PPSession).SetState L
        .receivedAccept
      if t.state ≠ .sentReject then t.OnRemoteCandidates { content_name := content, candidates := [] } else (t, true) := by
  simp [OnAcceptMessage, s.CheckState_eq h]

theorem OnRejectMessage_refused {L : PPSession → PPSession} (h : s.state ≠ .sentInitiate) (msg : PPMessage) :
    s.OnRejectMessage L msg = (s.emit (.assertFailed .expectedState), false) := by
  simp [OnRejectMessage, s.CheckState_ne h]

theorem OnRejectMessage_eq (L : PPSession → PPSession) (h : s.state = .sentInitiate) (msg : PPMessage) :
    s.OnRejectMessage L msg = (s.SetState L .receivedReject, true) := by
  simp [OnRejectMessage, s.CheckState_eq h]

theorem OnAcceptMessage_short (h : s.state = .sentInitiate) {msg : PPMessage} (hargvs : msg.argvs = []) :
    s.OnAcceptMessage id msg = (s.emit .outOfRange, true) := by
  simp [OnAcceptMessage, CheckState, h, withContent, hargvs]

/-- An accept message in the state `sentInitiate`. -/
theorem OnAcceptMessage_sentInitiate (h : s.state = .sentInitiate) {msg : PPMessage} {content : CString}
    {rest : List CString} (hargvs : msg.argvs = content :: rest) :
    let t := (s.OnAcceptMessage id msg).1
    (s.OnAcceptMessage id msg).2 = (s.transports[content]?).isSome ∧ t.state = .receivedAccept ∧
      t.content_name = s.content_name ∧ t.pending_candidates = false ∧ t.allow_local_ips = s.allow_local_ips ∧
      t.signals = s.signals ++ s.unsentMessages.map SessionEffect.outgoingMessage ++
        [.stateChanged .receivedAccept s.content_name, .postState] ∧
      ∀ j : CString, t.transports[j]? = (s.transports[j]?).map fun p =>
        if j = content then takeCandidates p.ClearUnsentCandidates [] else p.ClearUnsentCandidates := by
  obtain ⟨hsignals₁, hstate₁, hname₁, hpending₁, hallow₁⟩ := s.SendAllUnsent_frame
  set s₁ := { s.SendAllUnsentTransportInfoMessages with remote_description := true } with hs₁
  have hne : SessionState.receivedAccept ≠ s₁.state := by
    rw [show s₁.state = .sentInitiate from hstate₁.trans h]
    decide
  have ht : s.OnAcceptMessage id msg =
      (s₁.SetState id .receivedAccept).OnRemoteCandidates { content_name := content, candidates := [] } := by
    have hcheck : s.CheckState .sentInitiate = (s, true) := by simp [CheckState, h]
    unfold OnAcceptMessage
    rw [hcheck]
    simp only [not_true_eq_false, if_false, withContent, hargvs, List.getElem?_cons_zero]
    refine if_pos ?_
    show (s₁.SetState id .receivedAccept).state ≠ .sentReject
    rw [(s₁.SetState_frame .receivedAccept).1]
    decide
  obtain ⟨hstate, htransports, hname, hpending, hallow⟩ := s₁.SetState_frame .receivedAccept
  have h₂ := (s₁.SetState id .receivedAccept).sameBut_OnRemoteCandidates { content_name := content, candidates := [] }
  have hproxies : ∀ j : CString, (s₁.SetState id .receivedAccept).transports[j]? =
      (s.transports[j]?).map TransportProxy.ClearUnsentCandidates := by
    intro j
    rw [htransports]
    exact transports_SendAllUnsent s j
  have hsignals : (s₁.SetState id .receivedAccept).signals = s.signals ++ s.unsentMessages.map SessionEffect.outgoingMessage ++
      [.stateChanged .receivedAccept s.content_name, .postState] := by
    rw [signals_SetState s₁ hne, stateSignals, show s₁.content_name = s.content_name from hname₁]
    exact congrArg (· ++ _) hsignals₁
  intro t
  rw [show t = _ from congrArg Prod.fst ht, ht]
  obtain ⟨hvalid, hafter⟩ := (s₁.SetState id .receivedAccept).OnRemoteCandidates_spec
    { content_name := content, candidates := [] }
  refine ⟨?_, h₂.state.trans hstate, (h₂.content_name.trans hname).trans hname₁,
    (h₂.pending_candidates.trans hpending).trans hpending₁, (h₂.allow_local_ips.trans hallow).trans hallow₁,
    h₂.signals.trans hsignals, fun j => ?_⟩
  · rw [hvalid, hproxies]
    cases s.transports[content]? <;> rfl
  · rw [hafter, hproxies, Option.map_map]
    rfl

/-! ### Candidates in messages -/

theorem ofWords_isSome {argvs : List CString} {i : Nat} (h : i + 9 < argvs.length) :
    (Candidate.ofWords argvs i).isSome := by
  have hget : ∀ k ≤ 9, ∃ w, argvs[i + k]? = some w := fun k hk => ⟨_, List.getElem?_eq_getElem (by omega)⟩
  obtain ⟨_, h₀⟩ := hget 0 (by decide)
  obtain ⟨_, h₁⟩ := hget 1 (by decide)
  obtain ⟨_, h₂⟩ := hget 2 (by decide)
  obtain ⟨_, h₃⟩ := hget 3 (by decide)
  obtain ⟨_, h₄⟩ := hget 4 (by decide)
  obtain ⟨_, h₅⟩ := hget 5 (by decide)
  obtain ⟨_, h₆⟩ := hget 6 (by decide)
  obtain ⟨_, h₇⟩ := hget 7 (by decide)
  obtain ⟨_, h₈⟩ := hget 8 (by decide)
  obtain ⟨_, h₉⟩ := hget 9 (by decide)
  rw [Nat.add_zero] at h₀
  simp only [Candidate.ofWords, h₀, h₁, h₂, h₃, h₄, h₅, h₆, h₇, h₈, h₉, Option.bind_eq_bind, Option.bind_some,
    Option.isSome_some]

omit [Host] in
theorem lt_of_nCandidates {argvs : List CString} {i : Nat} (h : i < nCandidates argvs) :
    i * 10 + 1 + 9 < argvs.length := by
  unfold nCandidates at h
  omega

/-- The loop of `OnTransportInfoMessage` stays inside of the vector. -/
theorem decodeCandidates_isSome (argvs : List CString) : (decodeCandidates argvs).isSome := by
  have hall : ∀ is : List Nat, (∀ i ∈ is, i < nCandidates argvs) →
      (is.mapM fun i => Candidate.ofWords argvs (i * 10 + 1)).isSome := by
    intro is
    induction is with
    | nil => simp
    | cons i is ih =>
      intro h
      obtain ⟨cand, hcand⟩ := Option.isSome_iff_exists.mp (ofWords_isSome (lt_of_nCandidates (h i List.mem_cons_self)))
      obtain ⟨cands, hcands⟩ := Option.isSome_iff_exists.mp (ih fun j hj => h j (List.mem_cons_of_mem _ hj))
      simp [hcand, hcands]
  exact hall _ fun i hi => List.mem_range.mp hi

/-- Each port that does not fit is one `ASSERT` that fails. -/
theorem foldl_badPorts (is : List Nat) : is.foldl (fun s _ => s.emit (.assertFailed .portFits)) s =
    { s with out := s.out ++ is.map fun _ => .assertFailed .portFits } := by
  induction is generalizing s with
  | nil => simp
  | cons i is ih =>
    rw [List.foldl_cons, ih]
    simp [emit]

theorem sameBut_badPorts (is : List Nat) : s.SameBut (is.foldl (fun s _ => s.emit (.assertFailed .portFits)) s) ∧
    (is.foldl (fun s _ => s.emit (.assertFailed .portFits)) s).transports = s.transports := by
  rw [foldl_badPorts]
  exact ⟨⟨rfl, rfl, rfl, rfl, by simp [signals, SessionEffect.isSignal]⟩, rfl⟩

theorem OnTransportInfoMessage_short {msg : PPMessage} (hargvs : msg.argvs = []) :
    s.OnTransportInfoMessage msg = (s.emit .outOfRange, true) := by
  simp [OnTransportInfoMessage, withContent, hargvs]

/-- A transport message that names its content. -/
theorem OnTransportInfoMessage_spec {msg : PPMessage} {content : CString} {rest : List CString}
    (hargvs : msg.argvs = content :: rest) {candidates : List Candidate}
    (hdecode : decodeCandidates msg.argvs = some candidates) :
    s.SameBut (s.OnTransportInfoMessage msg).1 ∧
      (s.OnTransportInfoMessage msg).2 =
        (s.transports[content]?).any (fun p => Acceptable p.CompleteNegotiation.1.transport candidates) ∧
      ∀ j : CString, (s.OnTransportInfoMessage msg).1.transports[j]? = (s.transports[j]?).map fun p =>
        if j = content then takeCandidates p candidates else p := by
  set s₁ := (badPorts msg.argvs).foldl (fun s _ => s.emit (.assertFailed .portFits)) s with hs₁
  obtain ⟨hsame, htransports⟩ := s.sameBut_badPorts (badPorts msg.argvs)
  have ht : s.OnTransportInfoMessage msg = s₁.OnRemoteCandidates { content_name := content, candidates } := by
    have hfirst : msg.argvs[0]? = some content := by rw [hargvs]; rfl
    simp only [OnTransportInfoMessage, withContent, hfirst, hdecode]
    rfl
  obtain ⟨hvalid, hafter⟩ := s₁.OnRemoteCandidates_spec { content_name := content, candidates }
  rw [htransports] at hvalid hafter
  rw [ht]
  exact ⟨hsame.trans (s₁.sameBut_OnRemoteCandidates _), hvalid, hafter⟩

theorem messages_emit_other {e : SessionEffect} (h : e.message? = none) : (s.emit e).messages = s.messages := by
  rw [messages, emit, List.filterMap_append, List.filterMap_cons_none h, List.filterMap_nil, List.append_nil, messages]

theorem SameBut.messages {t : PPSession} (h : s.SameBut t) : t.messages = s.messages := by
  rw [messages_eq, h.signals, ← messages_eq]

/-- From `s` to `t` nothing but transport messages has been emitted. -/
def EmitsTransport (t : PPSession) : Prop := ∃ ms, t.messages = s.messages ++ ms ∧ ∀ m ∈ ms, m.type = .transportInfo

theorem EmitsTransport.of_eq {t : PPSession} (h : t.messages = s.messages) : s.EmitsTransport t :=
  ⟨[], by simpa using h, by simp⟩

theorem EmitsTransport_OnInitiateMessage (msg : PPMessage) : s.EmitsTransport (s.OnInitiateMessage id msg).1 := by
  by_cases h : s.state = .init
  · rcases hargvs : msg.argvs with _ | ⟨content, rest⟩
    · rw [s.OnInitiateMessage_short h hargvs]
      exact .of_eq s (s.messages_emit_other rfl)
    · obtain ⟨-, -, -, -, -, hsignals, -⟩ := s.OnInitiateMessage_init h hargvs
      exact .of_eq s ((messages_of_signals hsignals).trans (List.append_nil _))
  · rw [s.OnInitiateMessage_refused h]
    exact .of_eq s (s.messages_emit_other rfl)

theorem EmitsTransport_OnAcceptMessage (msg : PPMessage) : s.EmitsTransport (s.OnAcceptMessage id msg).1 := by
  by_cases h : s.state = .sentInitiate
  · rcases hargvs : msg.argvs with _ | ⟨content, rest⟩
    · rw [s.OnAcceptMessage_short h hargvs]
      exact .of_eq s (s.messages_emit_other rfl)
    · obtain ⟨-, -, -, -, -, hsignals, -⟩ := s.OnAcceptMessage_sentInitiate h hargvs
      rw [List.append_assoc] at hsignals
      refine ⟨s.unsentMessages, (messages_of_signals hsignals).trans ?_, fun m => type_of_mem_unsentMessages⟩
      rw [List.filterMap_append, filterMap_message?_outgoing]
      exact congrArg _ (List.append_nil _)
  · rw [s.OnAcceptMessage_refused h]
    exact .of_eq s (s.messages_emit_other rfl)

theorem EmitsTransport_OnTransportInfoMessage (msg : PPMessage) : s.EmitsTransport (s.OnTransportInfoMessage msg).1 := by
  rcases hargvs : msg.argvs with _ | ⟨content, rest⟩
  · rw [s.OnTransportInfoMessage_short hargvs]
    exact .of_eq s (s.messages_emit_other rfl)
  · obtain ⟨candidates, hdecode⟩ := Option.isSome_iff_exists.mp (decodeCandidates_isSome msg.argvs)
    exact .of_eq s (s.OnTransportInfoMessage_spec hargvs hdecode).1.messages

theorem EmitsTransport_OnRejectMessage (msg : PPMessage) : s.EmitsTransport (s.OnRejectMessage id msg).1 := by
  by_cases h : s.state = .sentInitiate
  · rw [s.OnRejectMessage_eq id h]
    exact .of_eq s (s.messages_SetState .receivedReject)
  · rw [s.OnRejectMessage_refused h]
    exact .of_eq s (s.messages_emit_other rfl)

theorem EmitsTransport_OnInfoMessage (msg : PPMessage) : s.EmitsTransport (s.OnInfoMessage msg).1 := by
  unfold OnInfoMessage withContent
  split <;> exact .of_eq s (s.messages_emit_other rfl)

theorem EmitsTransport_OnTerminateMessage (msg : PPMessage) : s.EmitsTransport (s.OnTerminateMessage id msg).1 := by
  unfold OnTerminateMessage withContent
  split
  · exact .of_eq s ((messages_SetState _ .receivedTerminate).trans (s.messages_emit_other rfl))
  · exact .of_eq s (s.messages_emit_other rfl)

/-- What the handler of an incoming message returns. -/
def handled (msg : PPMessage) : PPSession × Bool :=
  match msg.type with
  | .sessionInitiate => s.OnInitiateMessage id msg
  | .sessionInfo => s.OnInfoMessage msg
  | .sessionAccept => s.OnAcceptMessage id msg
  | .sessionReject => s.OnRejectMessage id msg
  | .sessionTerminate => s.OnTerminateMessage id msg
  | .transportInfo => s.OnTransportInfoMessage msg
  | .other => (s, false)

/-- An incoming message is handled and, if the handler refuses it, reported. -/
theorem OnIncomingMessage_eq (msg : PPMessage) :
    s.OnIncomingMessage id msg =
      if (s.handled msg).2 then (s.handled msg).1 else (s.handled msg).1.emit (.errorMessage msg) := rfl

omit s in
/-- What a handler leaves behind, and what stays true when the message is reported, holds after the message. -/
theorem report_keeps {P : PPSession → Prop} {msg : PPMessage} (hemit : ∀ t, P t → P (t.emit (.errorMessage msg)))
    (r : PPSession × Bool) (hr : P r.1) : P (if r.2 then r.1 else r.1.emit (.errorMessage msg)) := by
  split
  · exact hr
  · exact hemit r.1 hr

theorem EmitsTransport_OnIncomingMessage (msg : PPMessage) : s.EmitsTransport (s.OnIncomingMessage id msg) := by
  rw [OnIncomingMessage_eq]
  have hfirst : s.EmitsTransport (s.handled msg).1 := by
    unfold handled
    cases msg.type with
    | sessionInitiate => exact s.EmitsTransport_OnInitiateMessage msg
    | sessionAccept => exact s.EmitsTransport_OnAcceptMessage msg
    | sessionReject => exact s.EmitsTransport_OnRejectMessage msg
    | sessionTerminate => exact s.EmitsTransport_OnTerminateMessage msg
    | sessionInfo => exact s.EmitsTransport_OnInfoMessage msg
    | transportInfo => exact s.EmitsTransport_OnTransportInfoMessage msg
    | other => exact .of_eq s rfl
  refine report_keeps (P := s.EmitsTransport) (fun t ht => ?_) _ hfirst
  obtain ⟨ms, hms, htype⟩ := ht
  exact ⟨ms, (messages_emit_other _ rfl).trans hms, htype⟩

/-! ### Reads behind the end of `argvs` -/

/-- The handler of this type of message reads `argvs[0]` in this state. -/
def reads (state : SessionState) : PPMessageType → Bool
  | .sessionInitiate => state = .init
  | .sessionAccept => state = .sentInitiate
  | .transportInfo | .sessionInfo | .sessionTerminate => true
  | .sessionReject | .other => false

theorem outOfRange_mem_out : .outOfRange ∈ s.out ↔ .outOfRange ∈ s.signals := by
  simp [signals, SessionEffect.isSignal]

theorem outOfRange_of_signals {t : PPSession} {es : List SessionEffect} (h : t.signals = s.signals ++ es)
    (hs : .outOfRange ∉ s.out) : .outOfRange ∈ t.out ↔ .outOfRange ∈ es := by
  rw [outOfRange_mem_out] at hs ⊢
  rw [h, List.mem_append, or_iff_right hs]

theorem outOfRange_emit (e : SessionEffect) : .outOfRange ∈ (s.emit e).out ↔ .outOfRange ∈ s.out ∨ e = .outOfRange := by
  rw [emit, List.mem_append, List.mem_singleton, eq_comm (b := e)]

/-- The read of `argvs[0]` is the only one that an incoming message can take out of range. -/
theorem outOfRange_OnIncomingMessage (hs : .outOfRange ∉ s.out) {msg : PPMessage}
    (htype : msg.type = .sessionInitiate ∨ msg.type = .sessionAccept ∨ msg.type = .transportInfo) :
    .outOfRange ∈ (s.OnIncomingMessage id msg).out ↔ reads s.state msg.type = true ∧ msg.argvs = [] := by
  have hreport : .outOfRange ∈ (s.OnIncomingMessage id msg).out ↔ .outOfRange ∈ (s.handled msg).1.out := by
    rw [OnIncomingMessage_eq]
    split
    · rfl
    · simp [outOfRange_emit]
  rw [hreport]
  rcases htype with htype | htype | htype
  · have hhandled : s.handled msg = s.OnInitiateMessage id msg := by rw [handled, htype]
    rw [hhandled, htype]
    by_cases h : s.state = .init
    · rcases hargvs : msg.argvs with _ | ⟨content, rest⟩
      · rw [s.OnInitiateMessage_short h hargvs]
        simp [outOfRange_emit, reads, h]
      · obtain ⟨-, -, -, -, -, hsignals, -⟩ := s.OnInitiateMessage_init h hargvs
        rw [outOfRange_of_signals s hsignals hs]
        simp
    · rw [s.OnInitiateMessage_refused h]
      simp [outOfRange_emit, reads, h, hs]
  · have hhandled : s.handled msg = s.OnAcceptMessage id msg := by rw [handled, htype]
    rw [hhandled, htype]
    by_cases h : s.state = .sentInitiate
    · rcases hargvs : msg.argvs with _ | ⟨content, rest⟩
      · rw [s.OnAcceptMessage_short h hargvs]
        simp [outOfRange_emit, reads, h]
      · obtain ⟨-, -, -, -, -, hsignals, -⟩ := s.OnAcceptMessage_sentInitiate h hargvs
        rw [List.append_assoc] at hsignals
        rw [outOfRange_of_signals s hsignals hs]
        simp
    · rw [s.OnAcceptMessage_refused h]
      simp [outOfRange_emit, reads, h, hs]
  · have hhandled : s.handled msg = s.OnTransportInfoMessage msg := by rw [handled, htype]
    rw [hhandled, htype]
    rcases hargvs : msg.argvs with _ | ⟨content, rest⟩
    · rw [s.OnTransportInfoMessage_short hargvs]
      simp [outOfRange_emit, reads]
    · obtain ⟨candidates, hdecode⟩ := Option.isSome_iff_exists.mp (decodeCandidates_isSome msg.argvs)
      obtain ⟨hsame, -⟩ := s.OnTransportInfoMessage_spec hargvs hdecode
      rw [outOfRange_mem_out, hsame.signals, ← outOfRange_mem_out]
      simp [hs]

/-! ### The other calls read nothing -/

/-- Nothing has been read out of range. -/
def NoRead : Prop := SessionEffect.outOfRange ∉ s.out

section NoRead
variable {s}

theorem NoRead.emit (h : s.NoRead) {e : SessionEffect} (he : e ≠ .outOfRange) : (s.emit e).NoRead := by
  rw [NoRead, outOfRange_emit, not_or]
  exact ⟨h, he⟩

theorem NoRead.of_signals (h : s.NoRead) {t : PPSession} {es : List SessionEffect} (hsignals : t.signals = s.signals ++ es)
    (hes : .outOfRange ∉ es) : t.NoRead := by
  rwa [NoRead, outOfRange_of_signals s hsignals h]

theorem NoRead.onProxy (h : s.NoRead) (k : CString) (f : TransportProxy → TransportProxy × List TransportEffect) :
    (s.onProxy k f).NoRead := by
  rcases hp : s.transports[k]? with _ | p
  · rwa [onProxy_of_none s k hp]
  · rw [onProxy_of_some s k hp, NoRead, List.mem_append, not_or]
    refine ⟨h, fun hmem => ?_⟩
    obtain ⟨e, -, he⟩ := List.mem_map.mp hmem
    cases e <;> cases he

theorem NoRead.SetState (h : s.NoRead) (state : SessionState) : (s.SetState id state).NoRead := by
  by_cases hstate : state = s.state
  · rwa [hstate, SetState_self]
  · exact h.of_signals (signals_SetState s hstate) (by simp [stateSignals])

theorem NoRead.Initiate (h : s.NoRead) (content : CString) : (s.Initiate id content).1.NoRead := by
  by_cases hstate : s.state = .init
  · obtain ⟨-, -, -, -, hsignals, -⟩ := s.Initiate_init hstate content
    exact h.of_signals hsignals (by simp)
  · rwa [s.Initiate_refused hstate]

theorem NoRead.Accept (h : s.NoRead) : (s.Accept id).1.NoRead := by
  by_cases hstate : s.state = .receivedInitiate
  · obtain ⟨-, -, -, -, hsignals, -⟩ := s.Accept_receivedInitiate hstate
    rw [List.append_assoc] at hsignals
    exact h.of_signals hsignals (by simp)
  · rwa [s.Accept_refused hstate]

theorem NoRead.OnStateMessage (h : s.NoRead) : (s.OnStateMessage id).NoRead := by
  unfold PPSession.OnStateMessage
  split
  · exact h.SetState .inProgress
  · exact h.SetState .inProgress
  · exact h

theorem NoRead.OnTransportWritable (h : s.NoRead) (k : CString) : (s.OnTransportWritable k).NoRead := by
  unfold PPSession.OnTransportWritable
  split
  · exact h
  · have hclear := h.emit (e := .clearTimeout) (by simp)
    simp only
    split
    · exact hclear.emit (by simp)
    · exact hclear

theorem NoRead.OnTransportCandidatesReady (h : s.NoRead) (k : CString) (candidates : List Candidate) :
    (s.OnTransportCandidatesReady k candidates).NoRead := by
  unfold PPSession.OnTransportCandidatesReady
  split
  · exact h
  · split
    · exact h.onProxy k _
    · exact h.emit (by simp)

theorem NoRead.OnTransportMessage (h : s.NoRead) (k : CString) (task : TransportTask) :
    (s.OnTransportMessage k task).NoRead := by
  unfold PPSession.OnTransportMessage
  split
  · exact h
  · exact h.OnTransportWritable k
  · have hproxy := h.onProxy k fun p =>
      ({ p with transport := p.transport.OnChannelCandidateReady_s.1 }, p.transport.OnChannelCandidateReady_s.2.1)
    simp only
    split
    · exact hproxy
    · exact hproxy.OnTransportCandidatesReady k _
  · have hproxy := h.onProxy k fun p => ({ p with transport := p.transport.OnChannelWritableState_s.1 }, [])
    simp only
    split
    · exact hproxy.OnTransportWritable k
    · exact hproxy
  · exact h.emit (by simp)

end NoRead

end operations

end PPSession

end ProbICE
