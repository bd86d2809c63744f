import ProbICE.Theorems.Callbacks

/-! # The channels of a transport and the order to connect

A transport that has been told to connect stays so, and it posts about candidates only then. The channels that it
has are channels of its proxy. Every event of a session keeps this, also those that a session should not meet. -/

namespace ProbICE

variable [Host]

/-! ### Transports -/

namespace Transport

/-- An operation keeps the order to connect and posts about candidates only under it. -/
structure Connects (t : Transport) (r : Transport × List TransportEffect) : Prop where
  keeps : t.connect_requested = true → r.1.connect_requested = true
  posts : .post .candidateReady ∈ r.2 → r.1.connect_requested = true

theorem Connects.silent {t : Transport} {r : Transport × List TransportEffect}
    (h : r.1.connect_requested = t.connect_requested) (hes : .post .candidateReady ∉ r.2) : t.Connects r :=
  ⟨fun hc => h.trans hc, fun hmem => absurd hmem hes⟩

theorem connects_CreateChannel (t : Transport) (name : CString) : t.Connects (t.CreateChannel name) := by
  refine .silent rfl ?_
  unfold CreateChannel
  simp only
  split <;> simp

theorem HasChannel_CreateChannel (t : Transport) (name j : CString) :
    (t.CreateChannel name).1.HasChannel j = true ↔ j = name ∨ t.HasChannel j = true := by
  simp only [CreateChannel, HasChannel, GetChannel, Std.ExtTreeMap.getElem?_insert, Std.compare_eq_iff_eq]
  by_cases hj : name = j
  · simp [hj]
  · simp [hj, Ne.symm hj]

theorem connects_DestroyChannel (t : Transport) (name : CString) : t.Connects (t.DestroyChannel name) := by
  unfold DestroyChannel
  split
  · exact .silent rfl (by simp)
  · refine .silent rfl ?_
    simp only [List.mem_append, not_or]
    constructor <;> split <;> simp

theorem HasChannel_of_DestroyChannel (t : Transport) {name j : CString}
    (h : (t.DestroyChannel name).1.HasChannel j = true) : t.HasChannel j = true := by
  unfold DestroyChannel at h
  split at h
  · exact h
  · rename_i entry hentry
    by_cases hj : name = j
    · subst hj
      rw [HasChannel, hentry]
      rfl
    · simp only [HasChannel, GetChannel] at h ⊢
      split at h
      · simpa [Std.ExtTreeMap.getElem?_erase, hj] using h
      · simpa [Std.ExtTreeMap.getElem?_insert, hj] using h

theorem connects_ConnectChannels (t : Transport) : t.Connects t.ConnectChannels := by
  unfold ConnectChannels
  split
  · exact .silent rfl (by simp)
  · exact ⟨fun _ => rfl, fun _ => rfl⟩

theorem channels_ConnectChannels (t : Transport) : t.ConnectChannels.1.channels = t.channels := by
  unfold ConnectChannels
  split <;> rfl

theorem OnRemoteCandidates_frame (t : Transport) (candidates : List Candidate) :
    (t.OnRemoteCandidates candidates).channels = t.channels ∧
      (t.OnRemoteCandidates candidates).connect_requested = t.connect_requested := by
  unfold OnRemoteCandidates
  induction candidates generalizing t with
  | nil => exact ⟨rfl, rfl⟩
  | cons cand candidates ih =>
    have hone : (t.OnRemoteCandidate cand).channels = t.channels ∧
        (t.OnRemoteCandidate cand).connect_requested = t.connect_requested := by
      unfold OnRemoteCandidate
      split
      · exact ⟨rfl, rfl⟩
      · split <;> exact ⟨rfl, rfl⟩
    obtain ⟨hchannels, hconnect⟩ := ih (t.OnRemoteCandidate cand)
    exact ⟨hchannels.trans hone.1, hconnect.trans hone.2⟩

theorem connects_OnChannelCandidateReady (t : Transport) (candidate : Candidate) :
    t.Connects (t.OnChannelCandidateReady candidate) := by
  refine ⟨id, fun hmem => ?_⟩
  by_contra hno
  have hconnect : ¬ t.connect_requested = true := hno
  simp [OnChannelCandidateReady, hconnect] at hmem

theorem HasChannel_OnChannelWritableState (t : Transport) (name : CString) (writable : Bool) (j : CString) :
    (t.OnChannelWritableState name writable).1.HasChannel j = t.HasChannel j := by
  simp only [OnChannelWritableState, HasChannel, GetChannel, Std.ExtTreeMap.getElem?_modify, Std.compare_eq_iff_eq]
  by_cases hj : name = j
  · simp [hj]
  · simp [hj]

end Transport

/-! ### Proxies -/

namespace TransportProxy

/-- The channels of the transport are channels of the proxy. -/
def Whole (p : TransportProxy) : Prop := ∀ name, p.transport.HasChannel name = true → (p.GetChannel name).isSome = true

theorem whole_new (content_name : CString) (allow_local_ips : Bool) :
    (new content_name (.new allow_local_ips)).Whole := by
  intro name h
  simp [new, Transport.new, Transport.HasChannel, Transport.GetChannel] at h

/-- What every operation of a proxy keeps. -/
structure Wires (p : TransportProxy) (r : TransportProxy × List TransportEffect) : Prop where
  connects : p.transport.Connects (r.1.transport, r.2)
  channels : ∀ name, (p.GetChannel name).isSome = true → (r.1.GetChannel name).isSome = true
  whole : p.Whole → r.1.Whole

section wires
variable {p : TransportProxy}

/-- The channels and the order to connect are left alone. -/
theorem Wires.silent {r : TransportProxy × List TransportEffect} (hchannels : r.1.channels = p.channels)
    (htransport : r.1.transport.channels = p.transport.channels)
    (hconnect : r.1.transport.connect_requested = p.transport.connect_requested)
    (hes : .post .candidateReady ∉ r.2) : p.Wires r where
  connects := .silent hconnect hes
  channels name h := by rwa [GetChannel, hchannels]
  whole h name hname := by
    rw [GetChannel, hchannels]
    exact h name (by rwa [Transport.HasChannel, Transport.GetChannel, ← htransport])

theorem wires_refl (p : TransportProxy) : p.Wires (p, []) := .silent rfl rfl rfl (by simp)

theorem Wires.andThen {m : TransportProxy × List TransportEffect} (h : p.Wires m)
    {f : TransportProxy → TransportProxy × List TransportEffect} (hf : m.1.Wires (f m.1)) : p.Wires (Emit.andThen m f) where
  connects := by
    refine ⟨hf.connects.keeps ∘ h.connects.keeps, fun hmem => ?_⟩
    rcases List.mem_append.mp hmem with hmem | hmem
    · exact hf.connects.keeps (h.connects.posts hmem)
    · exact hf.connects.posts hmem
  channels name := hf.channels name ∘ h.channels name
  whole := hf.whole ∘ h.whole

/-- A change without effects before the operation. -/
theorem Wires.after {p' : TransportProxy} (h : p.Wires (p', [])) {r : TransportProxy × List TransportEffect}
    (hr : p'.Wires r) : p.Wires r where
  connects := ⟨hr.connects.keeps ∘ h.connects.keeps, hr.connects.posts⟩
  channels name := hr.channels name ∘ h.channels name
  whole := hr.whole ∘ h.whole

theorem wires_forEach {f : TransportProxy → CString → TransportProxy × List TransportEffect}
    (hf : ∀ (p : TransportProxy) name, (p.GetChannel name).isSome = true → p.Wires (f p name)) {names : List CString}
    (hnames : ∀ name ∈ names, (p.GetChannel name).isSome = true) : p.Wires (Emit.forEach f p names) := by
  induction names generalizing p with
  | nil => exact wires_refl p
  | cons name names ih =>
    have hfirst := hf p name (hnames name List.mem_cons_self)
    exact hfirst.andThen (ih fun j hj => hfirst.channels j (hnames j (List.mem_cons_of_mem _ hj)))

/-- An operation of the transport that adds no channel behind the back of the proxy. -/
theorem wires_onTransport {f : Transport → Transport × List TransportEffect} (hf : p.transport.Connects (f p.transport))
    (hchannels : ∀ j, (f p.transport).1.HasChannel j = true → p.transport.HasChannel j = true ∨ (p.GetChannel j).isSome = true) :
    p.Wires (p.onTransport f) where
  connects := hf
  channels _ := id
  whole h name hname := (hchannels name hname).elim (h name) id

theorem wires_GetOrCreateImpl (p : TransportProxy) (name : CString) (h : (p.GetChannel name).isSome = true) :
    p.Wires (p.GetOrCreateImpl name) := by
  unfold GetOrCreateImpl
  split
  · exact wires_refl p
  · refine wires_onTransport (p.transport.connects_CreateChannel name) fun j hj => ?_
    rcases (p.transport.HasChannel_CreateChannel name j).mp hj with rfl | hj
    · exact .inr h
    · exact .inl hj

theorem GetChannel_insert (channels : Std.ExtTreeMap CString TransportChannelProxy) (p : TransportProxy) (name : CString)
    (entry : TransportChannelProxy) (j : CString) :
    ({ p with channels := channels.insert name entry }.GetChannel j).isSome = true ↔
      j = name ∨ (channels[j]?).isSome = true := by
  simp only [GetChannel, Std.ExtTreeMap.getElem?_insert, Std.compare_eq_iff_eq]
  by_cases hj : name = j
  · simp [hj]
  · simp [hj, Ne.symm hj]

theorem wires_insertChannel (p : TransportProxy) (name : CString) (entry : TransportChannelProxy)
    {es : List TransportEffect} (hes : .post .candidateReady ∉ es) :
    p.Wires ({ p with channels := p.channels.insert name entry }, es) where
  connects := .silent rfl hes
  channels j h := (GetChannel_insert p.channels p name entry j).mpr (.inr h)
  whole h j hj := (GetChannel_insert p.channels p name entry j).mpr (.inr (h j hj))

theorem wires_SetProxyImpl (p : TransportProxy) (name : CString) (h : (p.GetChannel name).isSome = true) :
    p.Wires (p.SetProxyImpl name) := by
  have himpl := wires_GetOrCreateImpl p name h
  refine himpl.andThen (Wires.andThen ?_ (wires_insertChannel _ name _ (by split <;> simp)))
  split
  · exact wires_onTransport (Transport.connects_DestroyChannel _ name)
      fun j hj => .inl (Transport.HasChannel_of_DestroyChannel _ hj)
  · exact wires_refl _

theorem wires_ConnectChannels (p : TransportProxy) : p.Wires (p.onTransport Transport.ConnectChannels) := by
  refine wires_onTransport p.transport.connects_ConnectChannels fun j hj => .inl ?_
  rwa [Transport.HasChannel, Transport.GetChannel, Transport.channels_ConnectChannels] at hj

theorem isSome_of_mem_keys {name : CString} (h : name ∈ p.channels.keys) : (p.GetChannel name).isSome = true := by
  rw [Std.ExtTreeMap.mem_keys] at h
  simpa [GetChannel] using h

theorem wires_SpeculativelyConnectChannels (p : TransportProxy) : p.Wires p.SpeculativelyConnectChannels := by
  have hstate : p.Wires ({ p with state := .connecting },
      if p.state = .negotiated then [.assertFailed .notNegotiated] else []) :=
    .silent rfl rfl rfl (by split <;> simp)
  unfold SpeculativelyConnectChannels
  apply hstate.andThen
  apply (wires_forEach wires_GetOrCreateImpl fun _ => isSome_of_mem_keys).andThen
  exact wires_ConnectChannels _

theorem wires_CompleteNegotiation (p : TransportProxy) : p.Wires p.CompleteNegotiation := by
  have hstate : p.Wires ({ p with state := .negotiated }, []) := .silent rfl rfl rfl (by simp)
  unfold CompleteNegotiation
  split
  · exact wires_refl p
  · refine hstate.after ?_
    apply (wires_forEach wires_SetProxyImpl fun _ => isSome_of_mem_keys).andThen
    exact wires_ConnectChannels _

theorem wires_CreateChannel (p : TransportProxy) (name : CString) : p.Wires (p.CreateChannel name) := by
  have hmem : ∀ p : TransportProxy,
      ({ p with channels := p.channels.insert name { impl := false } }.GetChannel name).isSome = true :=
    fun p => (GetChannel_insert p.channels p name _ name).mpr (.inl rfl)
  have hfailed : .post .candidateReady ∉ (if (p.GetChannel name).isSome then [.assertFailed .newChannel] else []) ++
      if p.transport.HasChannel name then [TransportEffect.assertFailed .newImpl] else [] := by
    simp only [List.mem_append, not_or]
    constructor <;> split <;> simp
  unfold CreateChannel
  apply (wires_insertChannel p name { impl := false } hfailed).andThen
  simp only
  split
  · exact wires_SetProxyImpl _ name (hmem p)
  · exact wires_GetOrCreateImpl _ name (hmem p)
  · exact wires_refl _

theorem wires_onWorkerEvent (p : TransportProxy) (e : PPSession.WorkerEvent) :
    p.Wires (p.onTransport fun t =>
      match e with
      | .candidateReady candidate => t.OnChannelCandidateReady candidate
      | .writableState name writable => t.OnChannelWritableState name writable
      | .requestSignaling => (t, [.post .requestSignaling])) := by
  cases e with
  | candidateReady candidate =>
    exact wires_onTransport (p.transport.connects_OnChannelCandidateReady candidate) fun _ => .inl
  | writableState name writable =>
    refine wires_onTransport (.silent rfl (by simp [Transport.OnChannelWritableState])) fun j hj => .inl ?_
    rwa [Transport.HasChannel_OnChannelWritableState] at hj
  | requestSignaling => exact wires_onTransport (.silent rfl (by simp)) fun _ => .inl

end wires

/-- Neither the state of the negotiation nor the order to connect changes. -/
def Stays (p p' : TransportProxy) : Prop :=
  p'.state = p.state ∧ p'.transport.connect_requested = p.transport.connect_requested

theorem Stays.trans {p p' p'' : TransportProxy} (h : p.Stays p') (h' : p'.Stays p'') : p.Stays p'' :=
  ⟨h'.1.trans h.1, h'.2.trans h.2⟩

theorem stays_GetOrCreateImpl (p : TransportProxy) (name : CString) : p.Stays (p.GetOrCreateImpl name).1 := by
  unfold GetOrCreateImpl
  split <;> exact ⟨rfl, rfl⟩

theorem stays_DestroyChannel (p : TransportProxy) (name : CString) :
    p.Stays (p.onTransport fun t => t.DestroyChannel name).1 := by
  refine ⟨rfl, ?_⟩
  show (p.transport.DestroyChannel name).1.connect_requested = _
  unfold Transport.DestroyChannel
  split <;> rfl

theorem stays_SetProxyImpl (p : TransportProxy) (name : CString) : p.Stays (p.SetProxyImpl name).1 := by
  refine (p.stays_GetOrCreateImpl name).trans ?_
  unfold SetProxyImpl Emit.andThen
  simp only
  split
  · exact (stays_DestroyChannel _ name).trans ⟨rfl, rfl⟩
  · exact ⟨rfl, rfl⟩

theorem stays_forEach {f : TransportProxy → CString → TransportProxy × List TransportEffect}
    (hf : ∀ (p : TransportProxy) name, p.Stays (f p name).1) (p : TransportProxy) (names : List CString) :
    p.Stays (Emit.forEach f p names).1 :=
  Emit.forEach_keeps (P := p.Stays) (fun _ name _ h => h.trans (hf _ name)) ⟨rfl, rfl⟩

theorem stays_CreateChannel (p : TransportProxy) (name : CString) : p.Stays (p.CreateChannel name).1 := by
  unfold CreateChannel Emit.andThen
  simp only
  split
  · exact stays_SetProxyImpl { p with channels := p.channels.insert name { impl := false } } name
  · exact stays_GetOrCreateImpl { p with channels := p.channels.insert name { impl := false } } name
  · exact ⟨rfl, rfl⟩

theorem state_SpeculativelyConnectChannels (p : TransportProxy) : p.SpeculativelyConnectChannels.1.state = .connecting :=
  (stays_forEach stays_GetOrCreateImpl { p with state := .connecting } p.channels.keys).1

theorem state_CompleteNegotiation (p : TransportProxy) : p.CompleteNegotiation.1.state = .negotiated := by
  unfold CompleteNegotiation
  split
  · rename_i h
    exact h
  · exact (stays_forEach stays_SetProxyImpl { p with state := .negotiated } p.channels.keys).1

end TransportProxy

/-! ### Operations of a proxy that do not fail -/

namespace TransportProxy

/-- The first implementation of a channel is not destroyed. -/
theorem posts_SetProxyImpl {p : TransportProxy} {name : CString} (h : (p.GetChannel name).any (·.impl) = false) :
    Posts (p.SetProxyImpl name).2 := by
  have hget : (p.GetOrCreateImpl name).1.GetChannel name = p.GetChannel name := by
    unfold GetOrCreateImpl
    split <;> rfl
  have hhas : (p.GetOrCreateImpl name).1.transport.HasChannel name = true := by
    unfold GetOrCreateImpl
    split
    · assumption
    · exact (p.transport.HasChannel_CreateChannel name name).mpr (.inl rfl)
  unfold SetProxyImpl Emit.andThen
  simp only [hget, h, Bool.false_eq_true, if_false, hhas, if_true, List.append_nil]
  exact p.posts_GetOrCreateImpl name

/-- A channel with a new name is new to the transport too. -/
theorem posts_CreateChannel {p : TransportProxy} (hwhole : p.Whole) {name : CString} (h : p.GetChannel name = none) :
    Posts (p.CreateChannel name).2 := by
  have hnew : ¬ p.transport.HasChannel name = true := fun hc => by simpa [h] using hwhole name hc
  refine ((posts_ite fun hc => ?_).append (posts_ite fun hc => absurd hc hnew)).append ?_
  · simp [h] at hc
  · simp only
    split
    · exact posts_SetProxyImpl (p := { p with channels := p.channels.insert name { impl := false } })
        (by simp [GetChannel])
    · exact posts_GetOrCreateImpl _ name
    · exact posts_nil

theorem posts_onWorkerEvent (p : TransportProxy) (e : PPSession.WorkerEvent) :
    Posts (p.onTransport fun t =>
      match e with
      | .candidateReady candidate => t.OnChannelCandidateReady candidate
      | .writableState name writable => t.OnChannelWritableState name writable
      | .requestSignaling => (t, [.post .requestSignaling])).2 := by
  cases e with
  | candidateReady candidate => exact posts_ite fun _ => posts_one .candidateReady
  | writableState name writable => exact posts_one .writeState
  | requestSignaling => exact posts_one .requestSignaling

end TransportProxy

/-! ### Sessions -/

namespace PPSession

/-- A post about candidates comes from a transport that has been told to connect, and the channels of a transport
    are channels of its proxy. -/
structure Wired (s : PPSession) : Prop where
  posted : ∀ k, .postTransport k .candidateReady ∈ s.out →
    ∃ p, s.transports[k]? = some p ∧ p.transport.connect_requested = true
  whole : ∀ (k : CString) p, s.transports[k]? = some p → p.Whole

theorem wired_new (allow_local_ips : Bool) : (new allow_local_ips).Wired :=
  ⟨by simp [new], by simp [new]⟩

section wired
variable {s : PPSession}

/-- The proxies are looked at through their channels and transports only. -/
theorem Wired.of_same (h : s.Wired) {t : PPSession} (hproxies : s.SameProxies t)
    (hout : ∀ k, .postTransport k .candidateReady ∈ t.out → .postTransport k .candidateReady ∈ s.out) : t.Wired where
  posted k hmem := by
    obtain ⟨p, hp, hconnect⟩ := h.posted k (hout k hmem)
    obtain ⟨p', hp', -, htransport, -⟩ := hproxies.symm.proxy hp
    exact ⟨p', hp', htransport ▸ hconnect⟩
  whole k p hp := by
    obtain ⟨p', hp', -, htransport, hchannels⟩ := hproxies.proxy hp
    have hwhole := h.whole k p' hp'
    unfold TransportProxy.Whole TransportProxy.GetChannel at hwhole ⊢
    rwa [← htransport, ← hchannels]

theorem Wired.carries (h : s.Wired) {t : PPSession} (hcarries : s.Carries t) : t.Wired := by
  obtain ⟨es, hes, hall⟩ := hcarries.out
  refine h.of_same hcarries.transports fun k hmem => ?_
  rw [hes] at hmem
  refine (List.mem_append.mp hmem).resolve_right fun hmem => ?_
  simpa [SessionEffect.isAnswer] using hall _ hmem

theorem Wired.emit (h : s.Wired) {e : SessionEffect} (he : ∀ k, e ≠ .postTransport k .candidateReady) : (s.emit e).Wired := by
  refine h.of_same (fun _ => rfl) fun k hmem => ?_
  refine (List.mem_append.mp hmem).resolve_right fun hmem => he k (List.mem_singleton.mp hmem).symm

theorem Wired.onProxy (h : s.Wired) (k : CString) {f : TransportProxy → TransportProxy × List TransportEffect}
    (hf : ∀ p : TransportProxy, p.Wires (f p)) : (s.onProxy k f).Wired := by
  rcases hp : s.transports[k]? with _ | p
  · rwa [onProxy_of_none s k hp]
  · refine ⟨fun j hmem => ?_, fun j q hq => ?_⟩
    · rw [transports_onProxy, hp, Option.map_some]
      rw [onProxy_of_some s k hp] at hmem
      rcases List.mem_append.mp hmem with hmem | hmem
      · obtain ⟨q, hq, hconnect⟩ := h.posted j hmem
        by_cases hj : j = k
        · subst hj
          obtain rfl := Option.some.inj (hp.symm.trans hq)
          exact ⟨(f p).1, by simp, (hf p).connects.keeps hconnect⟩
        · exact ⟨q, by simp [hj, hq], hconnect⟩
      · obtain ⟨e, he, heq⟩ := List.mem_map.mp hmem
        cases e with
        | post task =>
          cases heq
          exact ⟨(f p).1, by simp, (hf p).connects.posts he⟩
        | assertFailed a => cases heq
    · rw [transports_onProxy, hp, Option.map_some] at hq
      split at hq
      · obtain rfl := Option.some.inj hq
        exact (hf p).whole (h.whole k p hp)
      · exact h.whole j q hq

theorem Wired.GetOrCreateTransportProxy (h : s.Wired) (k : CString) : (s.GetOrCreateTransportProxy k).Wired := by
  refine ⟨fun j hmem => ?_, fun j p hp => ?_⟩
  · obtain ⟨p, hp, hconnect⟩ := h.posted j (s.out_GetOrCreateTransportProxy k ▸ hmem)
    rw [transports_GetOrCreateTransportProxy]
    split
    · rename_i hj
      subst hj
      exact ⟨p, by simp [proxyOrNew, hp], hconnect⟩
    · exact ⟨p, hp, hconnect⟩
  · rw [transports_GetOrCreateTransportProxy] at hp
    split at hp
    · rw [← Option.some.inj hp, proxyOrNew]
      rcases hk : s.transports[k]? with _ | q
      · exact TransportProxy.whole_new _ _
      · exact h.whole k q hk
    · exact h.whole j p hp

theorem Wired.CreateTransportProxies (h : s.Wired) (p2pInfo : P2PInfo) : (s.CreateTransportProxies p2pInfo).Wired :=
  Wired.GetOrCreateTransportProxy (h.of_same (t := { s with pending_candidates := true }) (fun _ => rfl) fun _ => id)
    p2pInfo.content_name

theorem Wired.OnRemoteCandidates (h : s.Wired) (p2pInfo : P2PInfo) : (s.OnRemoteCandidates p2pInfo).1.Wired := by
  have hnegotiated := h.onProxy p2pInfo.content_name TransportProxy.wires_CompleteNegotiation
  unfold PPSession.OnRemoteCandidates
  split
  · exact h
  · simp only
    split
    · exact hnegotiated
    · split
      · refine hnegotiated.onProxy _ fun p => ?_
        obtain ⟨hchannels, hconnect⟩ := p.transport.OnRemoteCandidates_frame p2pInfo.candidates
        exact .silent rfl hchannels hconnect (by simp)
      · exact hnegotiated

theorem Wired.OnTransportCandidatesReady (h : s.Wired) (k : CString) (candidates : List Candidate) :
    (s.OnTransportCandidatesReady k candidates).Wired := by
  unfold PPSession.OnTransportCandidatesReady
  split
  · exact h
  · split
    · exact h.onProxy k fun p => .silent rfl rfl rfl (by simp)
    · exact h.emit (by simp)

theorem Wired.OnTransportWritable (h : s.Wired) (k : CString) : (s.OnTransportWritable k).Wired := by
  unfold PPSession.OnTransportWritable
  split
  · exact h
  · simp only
    split
    · exact (h.emit (by simp)).emit (by simp)
    · exact h.emit (by simp)

theorem Wired.OnTransportMessage (h : s.Wired) (k : CString) (task : TransportTask) : (s.OnTransportMessage k task).Wired := by
  unfold PPSession.OnTransportMessage
  split
  · exact h
  · exact h.OnTransportWritable k
  · have hproxy := h.onProxy k (f := fun p =>
      ({ p with transport := p.transport.OnChannelCandidateReady_s.1 }, p.transport.OnChannelCandidateReady_s.2.1))
      fun p => .silent rfl rfl rfl (by simp only [Transport.OnChannelCandidateReady_s]; split <;> simp)
    simp only
    split
    · exact hproxy
    · exact hproxy.OnTransportCandidatesReady k _
  · have hproxy := h.onProxy k (f := fun p => ({ p with transport := p.transport.OnChannelWritableState_s.1 }, []))
      fun p => .silent rfl rfl rfl (by simp)
    simp only
    split
    · exact hproxy.OnTransportWritable k
    · exact hproxy
  · exact h.emit (by simp)

theorem Wired.foldl {f : PPSession → CString → PPSession} (hf : ∀ (s : PPSession) k, s.Wired → (f s k).Wired)
    (h : s.Wired) (ks : List CString) : (ks.foldl f s).Wired := by
  induction ks generalizing s with
  | nil => exact h
  | cons k ks ih => exact ih (hf s k h)

theorem Wired.withContent (h : s.Wired) (msg : PPMessage) {rest : CString → PPSession × Bool}
    (hrest : ∀ content, (rest content).1.Wired) : (s.withContent msg rest).1.Wired := by
  unfold PPSession.withContent
  split
  · exact hrest _
  · exact h.emit (by simp)

theorem Wired.OnTransportInfoMessage (h : s.Wired) (msg : PPMessage) : (s.OnTransportInfoMessage msg).1.Wired := by
  have hports : ((badPorts msg.argvs).foldl (fun s _ => s.emit (.assertFailed .portFits)) s).Wired := by
    rw [foldl_badPorts]
    exact h.of_same (fun _ => rfl) fun k hmem => by simpa using hmem
  refine h.withContent msg fun content => ?_
  split
  · exact h.emit (by simp)
  · exact Wired.OnRemoteCandidates hports _

section listeners
variable {L : PPSession → PPSession} (hL : Answers L)
include hL

theorem Wired.SetState (h : s.Wired) {state : SessionState} (hinit : state ≠ .init) : (s.SetState L state).Wired := by
  by_cases hne : state = s.state
  · rwa [PPSession.SetState, if_pos hne]
  · have hchange : ({ s with state }.emit (.stateChanged state s.content_name)).Wired :=
      Wired.emit (h.of_same (t := { s with state }) (fun _ => rfl) fun _ => id) (by simp)
    exact hchange.carries (carries_after_change hL hne hinit)

theorem Wired.Initiate (h : s.Wired) (content : CString) : (s.Initiate L content).1.Wired := by
  by_cases hstate : s.state = .init
  · rw [PPSession.Initiate, if_neg (by simpa using hstate)]
    have hproxies := Wired.CreateTransportProxies
      (h.of_same (t := { s with content_name := content, local_description := true }) (fun _ => rfl) fun _ => id)
      { content_name := content, candidates := [] }
    have hchange := Wired.SetState hL
      (hproxies.emit (e := .outgoingMessage { type := .sessionInitiate, argvs := [content] }) (by simp))
      (by decide : SessionState.sentInitiate ≠ .init)
    exact hchange.foldl (fun s k h => h.onProxy k TransportProxy.wires_SpeculativelyConnectChannels) _
  · rwa [s.Initiate_refused hstate]

theorem Wired.callLocal (h : s.Wired) (c : LocalCall) : (s.callLocal L c).Wired := by
  by_cases hstate : s.state = .init
  · refine callLocal_of_init (P := Wired) hstate c (fun content _ => h.Initiate hL content) h ?_
    exact Wired.SetState hL (h.emit (by simp)) (by decide)
  · exact h.carries (carries_callLocal hL hstate c)

theorem Wired.OnInitiateMessage (h : s.Wired) (msg : PPMessage) : (s.OnInitiateMessage L msg).1.Wired := by
  by_cases hstate : s.state = .init
  · rw [s.OnInitiateMessage_eq L hstate]
    refine h.withContent msg fun content => ?_
    have hproxies := Wired.CreateTransportProxies
      (h.of_same (t := { s with content_name := content, remote_description := true }) (fun _ => rfl) fun _ => id)
      { content_name := content, candidates := [] }
    have hchange := Wired.SetState hL hproxies (by decide : SessionState.receivedInitiate ≠ .init)
    simp only
    split
    · exact hchange.OnRemoteCandidates _
    · exact hchange
  · rw [s.OnInitiateMessage_refused hstate]
    exact h.emit (by simp)

theorem Wired.OnAcceptMessage (h : s.Wired) (msg : PPMessage) : (s.OnAcceptMessage L msg).1.Wired := by
  by_cases hstate : s.state = .sentInitiate
  · rw [s.OnAcceptMessage_eq L hstate]
    refine h.withContent msg fun content => ?_
    have hsent : s.SendAllUnsentTransportInfoMessages.Wired := h.carries (carries_SendAllUnsent (by simp [hstate]))
    have hremote : ({ s.SendAllUnsentTransportInfoMessages with remote_description := true } : PPSession).Wired :=
      hsent.of_same (fun _ => rfl) fun _ => id
    have hchange := Wired.SetState hL hremote (by decide : SessionState.receivedAccept ≠ .init)
    simp only
    split
    · exact hchange.OnRemoteCandidates _
    · exact hchange
  · rw [s.OnAcceptMessage_refused hstate]
    exact h.emit (by simp)

theorem Wired.OnRejectMessage (h : s.Wired) (msg : PPMessage) : (s.OnRejectMessage L msg).1.Wired := by
  by_cases hstate : s.state = .sentInitiate
  · rw [s.OnRejectMessage_eq L hstate]
    exact Wired.SetState hL h (by decide)
  · rw [s.OnRejectMessage_refused hstate]
    exact h.emit (by simp)

theorem Wired.OnIncomingMessage (h : s.Wired) (msg : PPMessage) : (s.OnIncomingMessage L msg).Wired := by
  refine report_keeps (P := Wired) (fun _ ht => ht.emit (by simp)) _ ?_
  cases msg.type with
  | sessionInitiate => exact h.OnInitiateMessage hL msg
  | sessionInfo => exact h.withContent msg fun _ => h.emit (by simp)
  | sessionAccept => exact h.OnAcceptMessage hL msg
  | sessionReject => exact h.OnRejectMessage hL msg
  | sessionTerminate => exact h.withContent msg fun _ => Wired.SetState hL (h.emit (by simp)) (by decide)
  | transportInfo => exact h.OnTransportInfoMessage msg
  | other => exact h

theorem Wired.OnStateMessage (h : s.Wired) : (s.OnStateMessage L).Wired := by
  unfold PPSession.OnStateMessage
  split
  · exact Wired.SetState hL h (by decide)
  · exact Wired.SetState hL h (by decide)
  · exact h

end listeners

theorem Wired.OnSignalingReady (h : s.Wired) : s.OnSignalingReady.Wired := by
  have hget : ∀ k : CString, s.OnSignalingReady.transports[k]? =
      (s.transports[k]?).map fun p => { p with transport := p.transport.OnSignalingReady } := by
    intro k
    simp [PPSession.OnSignalingReady]
  have hframe : ∀ t : Transport, t.OnSignalingReady.channels = t.channels ∧
      t.OnSignalingReady.connect_requested = t.connect_requested := by
    intro t
    unfold Transport.OnSignalingReady
    split <;> exact ⟨rfl, rfl⟩
  refine ⟨fun k hmem => ?_, fun k p hp => ?_⟩
  · obtain ⟨p, hp, hconnect⟩ := h.posted k hmem
    exact ⟨_, by rw [hget, hp]; rfl, (hframe p.transport).2.trans hconnect⟩
  · rw [hget, Option.map_eq_some_iff] at hp
    obtain ⟨q, hq, rfl⟩ := hp
    have hwires : q.Wires ({ q with transport := q.transport.OnSignalingReady }, []) :=
      .silent rfl (hframe q.transport).1 (hframe q.transport).2 (by simp)
    exact hwires.whole (h.whole k q hq)

/-- The wiring outlasts every event. -/
theorem Wired.handle (h : s.Wired) {e : SessionEvent} (he : s.Enabled e) : (s.handle e).Wired := by
  cases e with
  | call L c => exact h.callLocal (Listener.answers he) c
  | incoming L msg => exact h.OnIncomingMessage (Listener.answers he) msg
  | state L => exact h.OnStateMessage (Listener.answers he)
  | timeout => exact h.of_same (fun _ => rfl) fun k hmem => by simpa [PPSession.handle, OnTimeoutMessage, PPSession.emit] using hmem
  | transport k task => exact h.OnTransportMessage k task
  | candidatesReady k candidates => exact h.OnTransportCandidatesReady k candidates
  | worker k e => exact h.onProxy k fun p => p.wires_onWorkerEvent e
  | createChannel k name => exact (h.GetOrCreateTransportProxy k).onProxy k fun p => p.wires_CreateChannel name
  | signalingReady => exact h.OnSignalingReady

end wired

end PPSession

end ProbICE
