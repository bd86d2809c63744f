import ProbICE.Theorems.Assertions

/-! # A batch of candidates is taken as a whole

A transport message is checked candidate by candidate and handed on only when every candidate is good, but the proxy is
negotiated first. The negotiation gives the transport the channels of the proxy, except those that have an
implementation already, and the program gets to it only when the ports of all candidates fit. -/

namespace ProbICE

section
variable [Host]

namespace Transport

/-- Each channel has been created once, and the transport has not been destroyed. -/
structure Single (t : Transport) : Prop where
  ref : ∀ name entry, t.GetChannel name = some entry → entry.ref = 1
  alive : t.destroyed = false

section single
variable {t : Transport}

theorem single_new (allow_local_ips : Bool) : (new allow_local_ips).Single :=
  ⟨by simp [new, GetChannel], rfl⟩

theorem Single.of_channels (h : t.Single) {t' : Transport} (hchannels : t'.channels = t.channels)
    (halive : t'.destroyed = t.destroyed) : t'.Single where
  ref name entry hentry := h.ref name entry (by rwa [GetChannel, ← hchannels])
  alive := halive.trans h.alive

theorem Single.CreateChannel (h : t.Single) {name : CString} (hnew : t.HasChannel name = false) :
    (t.CreateChannel name).1.Single where
  ref j entry hentry := by
    have hnone : t.GetChannel name = none := by simpa [HasChannel] using hnew
    simp only [Transport.CreateChannel, GetChannel, Std.ExtTreeMap.getElem?_insert, Std.compare_eq_iff_eq] at hentry
    split at hentry
    · obtain rfl := Option.some.inj hentry
      simp only [GetChannel] at hnone
      rw [hnone, Option.getD_none]
    · exact h.ref j entry hentry
  alive := rfl

/-- A channel that was created once is gone when it is destroyed. -/
theorem Single.DestroyChannel (h : t.Single) (name : CString) :
    (t.DestroyChannel name).1.Single ∧
      ∀ j, (t.DestroyChannel name).1.HasChannel j = true ↔ j ≠ name ∧ t.HasChannel j = true := by
  rcases hentry : t.GetChannel name with _ | entry
  · have hsame : t.DestroyChannel name = (t, []) := by
      unfold Transport.DestroyChannel
      rw [hentry]
    rw [hsame]
    refine ⟨h, fun j => ⟨fun hj => ⟨?_, hj⟩, And.right⟩⟩
    rintro rfl
    rw [HasChannel, hentry] at hj
    cases hj
  · have herase : (t.DestroyChannel name).1 = { t with channels := t.channels.erase name } := by
      unfold Transport.DestroyChannel
      rw [hentry]
      simp [h.ref name entry hentry]
    have hget : ∀ j, (t.DestroyChannel name).1.GetChannel j = if name = j then none else t.GetChannel j := by
      intro j
      rw [herase]
      simp only [GetChannel, Std.ExtTreeMap.getElem?_erase, Std.compare_eq_iff_eq]
    refine ⟨⟨fun j entry' hj => ?_, ?_⟩, fun j => ?_⟩
    · rw [hget] at hj
      split at hj
      · cases hj
      · exact h.ref j entry' hj
    · rw [herase]
      exact h.alive
    · rw [HasChannel, hget, HasChannel]
      by_cases hj : name = j
      · simp [hj]
      · simp [hj, Ne.symm hj]

theorem Single.OnChannelWritableState (h : t.Single) (name : CString) (writable : Bool) :
    (t.OnChannelWritableState name writable).1.Single where
  ref j entry hentry := by
    simp only [Transport.OnChannelWritableState, GetChannel, Std.ExtTreeMap.getElem?_modify, Std.compare_eq_iff_eq] at hentry
    split at hentry
    · obtain ⟨entry', hentry', rfl⟩ := Option.map_eq_some_iff.mp hentry
      exact h.ref name entry' hentry'
    · exact h.ref j entry hentry
  alive := h.alive

theorem Single.ConnectChannels (h : t.Single) : t.ConnectChannels.1.Single :=
  h.of_channels t.channels_ConnectChannels (TransportProxy.ConnectChannels_frame t).2.1

end single

end Transport

namespace TransportProxy

/-- Each channel of the transport has been created once, for a channel of the proxy. -/
structure Made (p : TransportProxy) : Prop where
  whole : p.Whole
  single : p.transport.Single

section made
variable {p : TransportProxy}

theorem single_GetOrCreateImpl (h : p.transport.Single) (name : CString) : (p.GetOrCreateImpl name).1.transport.Single := by
  unfold GetOrCreateImpl
  split
  · exact h
  · rename_i hno
    exact h.CreateChannel (Bool.not_eq_true _ ▸ hno)

/-- An implementation that is set a second time is destroyed. -/
theorem single_SetProxyImpl (h : p.transport.Single) (name : CString) :
    (p.SetProxyImpl name).1.transport.Single ∧
      (∀ j, (p.SetProxyImpl name).1.transport.HasChannel j = true ↔
        if j = name then (p.GetChannel name).any (·.impl) = false else p.transport.HasChannel j = true) ∧
      ∀ j, j ≠ name → (p.SetProxyImpl name).1.GetChannel j = p.GetChannel j := by
  have himpl := single_GetOrCreateImpl h name
  have hchannels := (p.GetOrCreateImpl_frame name).1
  have hget : (p.GetOrCreateImpl name).1.GetChannel name = p.GetChannel name := congrArg (·[name]?) hchannels
  have hother : ∀ (q : TransportProxy), q.channels = p.channels → ∀ j, j ≠ name →
      ({ q with channels := q.channels.insert name { impl := true } } : TransportProxy).GetChannel j = p.GetChannel j := by
    intro q hq j hj
    simp [GetChannel, Std.ExtTreeMap.getElem?_insert, Ne.symm hj, hq]
  by_cases hset : (p.GetChannel name).any (·.impl) = true
  · have hresult : (p.SetProxyImpl name).1 =
        { ((p.GetOrCreateImpl name).1.onTransport fun t => t.DestroyChannel name).1 with
          channels := (p.GetOrCreateImpl name).1.channels.insert name { impl := true } } := by
      unfold SetProxyImpl Emit.andThen
      simp only [hget, hset, if_true]
      rfl
    obtain ⟨hsingle, hhas⟩ := himpl.DestroyChannel name
    rw [hresult]
    refine ⟨hsingle, fun j => (hhas j).trans ?_, fun j hj => hother _ hchannels j hj⟩
    rw [p.HasChannel_GetOrCreateImpl name j]
    by_cases hj : j = name
    · simp [hj, hset]
    · simp [hj]
  · rw [Bool.not_eq_true] at hset
    rw [SetProxyImpl_first hset]
    refine ⟨himpl, fun j => (p.HasChannel_GetOrCreateImpl name j).trans ?_, fun j hj => ?_⟩
    · by_cases hj : j = name
      · simp [hj, hset]
      · simp [hj]
    · rw [← hother p rfl j hj]
      rfl

theorem single_forEach_SetProxyImpl {names : List CString} (hnodup : names.Nodup) (h : p.transport.Single) :
    (Emit.forEach SetProxyImpl p names).1.transport.Single ∧
      ∀ j, (Emit.forEach SetProxyImpl p names).1.transport.HasChannel j = true ↔
        if j ∈ names then (p.GetChannel j).any (·.impl) = false else p.transport.HasChannel j = true := by
  induction names generalizing p with
  | nil => exact ⟨h, by simp⟩
  | cons name names ih =>
    rw [List.nodup_cons] at hnodup
    obtain ⟨hsingle, hhas, hget⟩ := single_SetProxyImpl h name
    obtain ⟨hsingle', hhas'⟩ := ih hnodup.2 hsingle
    refine ⟨hsingle', fun j => (hhas' j).trans ?_⟩
    by_cases hj : j = name
    · subst hj
      simp only [hnodup.1, if_false, List.mem_cons_self, if_true, hhas j]
    · simp only [List.mem_cons, hj, false_or, hget j hj, hhas j, if_false]

/-- The transport has lost a channel of the proxy, or the negotiation is going to take it away. -/
def Lost (p : TransportProxy) (name : CString) : Prop :=
  if p.state = .negotiated then p.transport.HasChannel name = false else (p.GetChannel name).any (·.impl) = true

theorem Made.CompleteNegotiation (h : p.Made) : p.CompleteNegotiation.1.Made ∧
    ∀ name, p.CompleteNegotiation.1.transport.HasChannel name = true ↔ (p.GetChannel name).isSome = true ∧ ¬ p.Lost name := by
  have hwhole : p.CompleteNegotiation.1.Whole := p.wires_CompleteNegotiation.whole h.whole
  by_cases hstate : p.state = .negotiated
  · rw [CompleteNegotiation_of_negotiated hstate] at hwhole ⊢
    refine ⟨h, fun name => ?_⟩
    rw [Lost, if_pos hstate, Bool.not_eq_false]
    exact ⟨fun hname => ⟨h.whole name hname, hname⟩, And.right⟩
  · set q := (Emit.forEach SetProxyImpl { p with state := .negotiated } p.channels.keys).1 with hq
    have hresult : p.CompleteNegotiation.1 = (q.onTransport Transport.ConnectChannels).1 := by
      rw [TransportProxy.CompleteNegotiation, if_neg hstate]
      rfl
    obtain ⟨hsingle, hhas⟩ := single_forEach_SetProxyImpl (p := { p with state := .negotiated })
      (Std.ExtTreeMap.nodup_keys (t := p.channels)) h.single
    refine ⟨⟨hwhole, hresult ▸ hsingle.ConnectChannels⟩, fun name => ?_⟩
    have hkeys : name ∈ p.channels.keys ↔ (p.GetChannel name).isSome = true := by
      simp [GetChannel, Std.ExtTreeMap.mem_keys]
    rw [hresult]
    refine ((Bool.eq_iff_iff.mp (HasChannel_ConnectChannels q.transport name)).trans (hhas name)).trans ?_
    rw [Lost, if_neg hstate, Bool.not_eq_true]
    by_cases hname : (p.GetChannel name).isSome = true
    · rw [if_pos (hkeys.mpr hname)]
      exact (and_iff_right hname).symm
    · rw [if_neg fun hk => hname (hkeys.mp hk)]
      exact ⟨fun hhas => absurd (h.whole name hhas) hname, fun hboth => absurd hboth.1 hname⟩

theorem Made.of_channels (h : p.Made) {p' : TransportProxy} (hchannels : p'.channels = p.channels)
    (htransport : p'.transport.channels = p.transport.channels) (halive : p'.transport.destroyed = p.transport.destroyed) :
    p'.Made where
  whole name hname := by
    rw [GetChannel, hchannels]
    exact h.whole name (by rwa [Transport.HasChannel, Transport.GetChannel, ← htransport])
  single := h.single.of_channels htransport halive

theorem made_new (content_name : CString) (allow_local_ips : Bool) : (new content_name (.new allow_local_ips)).Made :=
  ⟨whole_new content_name allow_local_ips, Transport.single_new allow_local_ips⟩

theorem Made.CreateChannel (h : p.Made) (name : CString) : (p.CreateChannel name).1.Made := by
  refine ⟨(p.wires_CreateChannel name).whole h.whole, ?_⟩
  unfold TransportProxy.CreateChannel Emit.andThen
  dsimp only
  split
  · exact (single_SetProxyImpl (p := { p with channels := p.channels.insert name { impl := false } }) h.single name).1
  · exact single_GetOrCreateImpl (p := { p with channels := p.channels.insert name { impl := false } }) h.single name
  · exact h.single

theorem Made.SpeculativelyConnectChannels (h : p.Made) : p.SpeculativelyConnectChannels.1.Made := by
  refine ⟨p.wires_SpeculativelyConnectChannels.whole h.whole, ?_⟩
  have hall : (Emit.forEach GetOrCreateImpl { p with state := .connecting } p.channels.keys).1.transport.Single :=
    Emit.forEach_keeps (P := fun q : TransportProxy => q.transport.Single)
      (fun _ name _ hq => single_GetOrCreateImpl hq name) h.single
  exact hall.ConnectChannels

/-- Every operation of a session keeps it. -/
theorem Made.operation {connects : Prop} {p' : TransportProxy} (h : p.Made) (hop : Operation connects p p') : p'.Made := by
  cases hop with
  | createChannel name => exact h.CreateChannel name
  | connect _ => exact h.SpeculativelyConnectChannels
  | complete => exact h.CompleteNegotiation.1
  | remoteCandidates candidates =>
    exact h.of_channels rfl (p.transport.OnRemoteCandidates_frame candidates).1 (p.transport.destroyed_OnRemoteCandidates candidates)
  | unsent candidates => exact h.of_channels rfl rfl rfl
  | signalingReady =>
    unfold Transport.OnSignalingReady
    split
    · exact h
    · exact h.of_channels rfl rfl rfl
  | candidatesReady => exact h.of_channels rfl rfl rfl
  | writeState => exact h.of_channels rfl rfl rfl
  | candidateReady candidate => exact h.of_channels rfl rfl rfl
  | writableState name writable =>
    refine ⟨fun j hj => h.whole j ?_, h.single.OnChannelWritableState name writable⟩
    rwa [Transport.HasChannel_OnChannelWritableState] at hj

end made

end TransportProxy

/-! ### Sessions -/

namespace PPSession

/-- `OnRemoteCandidates` with any `VerifyCandidate`. -/
def OnRemoteCandidatesBy (verify : Transport → Candidate → Bool) (s : PPSession) (p2pInfo : P2PInfo) : PPSession × Bool :=
  match s.GetTransportProxy p2pInfo.content_name with
  | none => (s, false)
  | some _ =>
    let s := s.onProxy p2pInfo.content_name TransportProxy.CompleteNegotiation
    match s.GetTransport p2pInfo.content_name with
    | none => (s, false)
    | some t =>
      if p2pInfo.candidates.all fun cand => verify t cand && t.HasChannel cand.name then
        (s.onProxy p2pInfo.content_name fun p =>
          ({ p with transport := p.transport.OnRemoteCandidates p2pInfo.candidates }, []), true)
      else (s, false)

/-- `OnTransportInfoMessage` with any `VerifyCandidate`. -/
def OnTransportInfoMessageBy (verify : Transport → Candidate → Bool) (s : PPSession) (msg : PPMessage) : PPSession × Bool :=
  s.withContent msg fun content =>
    match decodeCandidates msg.argvs with
    | none => (s.emit .outOfRange, true)
    | some candidates =>
      let s := (badPorts msg.argvs).foldl (fun s _ => s.emit (.assertFailed .portFits)) s
      s.OnRemoteCandidatesBy verify { content_name := content, candidates }

theorem OnTransportInfoMessageBy_VerifyCandidate (s : PPSession) (msg : PPMessage) :
    s.OnTransportInfoMessageBy Transport.VerifyCandidate msg = s.OnTransportInfoMessage msg := rfl

/-- What the transport of a content has posted to the worker thread. -/
def posted (s : PPSession) (k : CString) : List WorkerTask := ((s.transports[k]?).map (·.transport.worker)).getD []

/-- A candidate that a transport info message may carry: its address passes, and its channel is one of the proxy or of
    the transport. -/
def Welcome (verify : Transport → Candidate → Bool) (p : TransportProxy) (cand : Candidate) : Prop :=
  verify p.CompleteNegotiation.1.transport cand = true ∧
    ((p.GetChannel cand.name).isSome = true ∨ p.transport.HasChannel cand.name = true)

/-- The batch is taken as a whole and posted in order when the proxy is there and every candidate is welcome, and
    otherwise nothing is posted. -/
structure AllOrNothing (verify : Transport → Candidate → Bool) (s : PPSession) (content : CString)
    (candidates : List Candidate) (r : PPSession × Bool) : Prop where
  answer : r.2 = true ↔ ∃ p, s.transports[content]? = some p ∧ ∀ cand ∈ candidates, Welcome verify p cand
  posted : ∀ k, r.1.posted k =
    s.posted k ++ if r.2 = true ∧ k = content then candidates.map .remoteCandidate else []

section acceptance
variable {s : PPSession} (verify : Transport → Candidate → Bool)

theorem OnRemoteCandidatesBy_of_none {p2pInfo : P2PInfo} (h : s.transports[p2pInfo.content_name]? = none) :
    s.OnRemoteCandidatesBy verify p2pInfo = (s, false) := by
  simp [OnRemoteCandidatesBy, GetTransportProxy, h]

theorem OnRemoteCandidatesBy_of_some {p2pInfo : P2PInfo} {p : TransportProxy}
    (h : s.transports[p2pInfo.content_name]? = some p) :
    ((s.OnRemoteCandidatesBy verify p2pInfo).2 = true ↔ ∀ cand ∈ p2pInfo.candidates,
        verify p.CompleteNegotiation.1.transport cand = true ∧ p.CompleteNegotiation.1.transport.HasChannel cand.name = true) ∧
      ∀ k : CString, (s.OnRemoteCandidatesBy verify p2pInfo).1.transports[k]? =
        if k = p2pInfo.content_name then
          some { p.CompleteNegotiation.1 with
            transport :=
              if (s.OnRemoteCandidatesBy verify p2pInfo).2 then
                p.CompleteNegotiation.1.transport.OnRemoteCandidates p2pInfo.candidates
              else p.CompleteNegotiation.1.transport }
        else s.transports[k]? := by
  have hget : (s.onProxy p2pInfo.content_name TransportProxy.CompleteNegotiation).GetTransport p2pInfo.content_name =
      some p.CompleteNegotiation.1.transport := by
    simp [GetTransport, GetTransportProxy, transports_onProxy, h]
  have hp : s.GetTransportProxy p2pInfo.content_name = some p := h
  unfold OnRemoteCandidatesBy
  simp only [hp, hget]
  by_cases hgood : (p2pInfo.candidates.all fun cand => verify p.CompleteNegotiation.1.transport cand &&
      p.CompleteNegotiation.1.transport.HasChannel cand.name) = true
  · rw [if_pos hgood]
    refine ⟨by simpa using hgood, fun k => ?_⟩
    by_cases hk : k = p2pInfo.content_name
    · simp [hk, transports_onProxy, h]
    · simp [hk, transports_onProxy]
  · rw [if_neg hgood]
    refine ⟨by simpa using hgood, fun k => ?_⟩
    by_cases hk : k = p2pInfo.content_name
    · simp [hk, transports_onProxy, h]
    · simp [hk, transports_onProxy]

/-- What is posted agrees with the answer in any case. -/
theorem posted_OnRemoteCandidatesBy (hmade : ∀ (k : CString) p, s.transports[k]? = some p → p.Made) (p2pInfo : P2PInfo)
    (k : CString) :
    (s.OnRemoteCandidatesBy verify p2pInfo).1.posted k = s.posted k ++
      if (s.OnRemoteCandidatesBy verify p2pInfo).2 = true ∧ k = p2pInfo.content_name then
        p2pInfo.candidates.map .remoteCandidate
      else [] := by
  rcases hp : s.transports[p2pInfo.content_name]? with _ | p
  · simp [OnRemoteCandidatesBy_of_none verify hp]
  · obtain ⟨hanswer, htransports⟩ := OnRemoteCandidatesBy_of_some verify hp
    by_cases hk : k = p2pInfo.content_name
    · have hworker : p.CompleteNegotiation.1.transport.worker = p.transport.worker :=
        p.sameCandidates_CompleteNegotiation.1
      have hbefore : s.posted k = p.transport.worker := by rw [posted, hk, hp, Option.map_some, Option.getD_some]
      rw [posted, htransports, if_pos hk, Option.map_some, Option.getD_some, hbefore]
      by_cases hyes : (s.OnRemoteCandidatesBy verify p2pInfo).2 = true
      · have halive := ((hmade _ p hp).CompleteNegotiation).1.single.alive
        rw [if_pos hyes, if_pos ⟨hyes, hk⟩,
          Transport.OnRemoteCandidates_all halive fun cand hcand => (hanswer.mp hyes cand hcand).2, hworker]
      · rw [if_neg hyes, if_neg fun hboth => hyes hboth.1, List.append_nil, hworker]
    · rw [posted, htransports, if_neg hk, if_neg fun hboth => hk hboth.2, List.append_nil, posted]

/-- A batch is taken when the proxy is there and every candidate is welcome and names a channel that the transport has
    not lost. -/
theorem answer_OnRemoteCandidatesBy (hmade : ∀ (k : CString) p, s.transports[k]? = some p → p.Made) (p2pInfo : P2PInfo) :
    (s.OnRemoteCandidatesBy verify p2pInfo).2 = true ↔ ∃ p, s.transports[p2pInfo.content_name]? = some p ∧
      ∀ cand ∈ p2pInfo.candidates, Welcome verify p cand ∧ ¬ p.Lost cand.name := by
  rcases hp : s.transports[p2pInfo.content_name]? with _ | p
  · rw [OnRemoteCandidatesBy_of_none verify hp]
    simp
  · obtain ⟨hanswer, -⟩ := OnRemoteCandidatesBy_of_some verify hp
    obtain ⟨-, hhas⟩ := (hmade _ p hp).CompleteNegotiation
    have hwelcome : ∀ cand, Welcome verify p cand ↔
        verify p.CompleteNegotiation.1.transport cand = true ∧ (p.GetChannel cand.name).isSome = true := fun cand =>
      and_congr_right fun _ => or_iff_left_of_imp ((hmade _ p hp).whole cand.name)
    have hexact : (s.OnRemoteCandidatesBy verify p2pInfo).2 = true ↔
        ∀ cand ∈ p2pInfo.candidates, Welcome verify p cand ∧ ¬ p.Lost cand.name := by
      rw [hanswer]
      refine forall₂_congr fun cand _ => ?_
      rw [hwelcome, hhas, and_assoc]
    rw [hexact]
    exact ⟨fun h => ⟨p, rfl, h⟩, fun ⟨p', hp', h⟩ => Option.some.inj hp' ▸ h⟩

/-- A batch is taken as it should be unless all its candidates are welcome and the transport has lost a channel of
    one. -/
theorem allOrNothing_OnRemoteCandidatesBy (hmade : ∀ (k : CString) p, s.transports[k]? = some p → p.Made)
    (p2pInfo : P2PInfo) :
    AllOrNothing verify s p2pInfo.content_name p2pInfo.candidates (s.OnRemoteCandidatesBy verify p2pInfo) ↔
      ¬ ∃ p, s.transports[p2pInfo.content_name]? = some p ∧ (∀ cand ∈ p2pInfo.candidates, Welcome verify p cand) ∧
        ∃ cand ∈ p2pInfo.candidates, p.Lost cand.name := by
  have hposted := posted_OnRemoteCandidatesBy verify hmade p2pInfo
  have hanswer := answer_OnRemoteCandidatesBy verify hmade p2pInfo
  constructor
  · rintro h ⟨p, hp, hall, cand, hcand, hlost⟩
    obtain ⟨p', hp', hgood⟩ := hanswer.mp (h.answer.mpr ⟨p, hp, hall⟩)
    obtain rfl := Option.some.inj (hp.symm.trans hp')
    exact (hgood cand hcand).2 hlost
  · intro h
    refine ⟨hanswer.trans ⟨fun ⟨p, hp, hgood⟩ => ⟨p, hp, fun cand hcand => (hgood cand hcand).1⟩, ?_⟩, hposted⟩
    rintro ⟨p, hp, hall⟩
    exact ⟨p, hp, fun cand hcand => ⟨hall cand hcand, fun hlost => h ⟨p, hp, hall, cand, hcand, hlost⟩⟩⟩

/-- The candidates of a message are decoded before any of them is looked at. -/
theorem OnTransportInfoMessageBy_eq (verify : Transport → Candidate → Bool) (s : PPSession) {content : CString}
    {rest : List CString} {candidates : List Candidate} (hdecode : decodeCandidates (content :: rest) = some candidates) :
    ∃ u : PPSession, u.transports = s.transports ∧
      s.OnTransportInfoMessageBy verify { type := .transportInfo, argvs := content :: rest } =
        u.OnRemoteCandidatesBy verify { content_name := content, candidates } := by
  refine ⟨_, (s.sameBut_badPorts (badPorts (content :: rest))).2, ?_⟩
  simp only [OnTransportInfoMessageBy, withContent, List.getElem?_cons_zero, hdecode]

end acceptance

/-- Each proxy of a session that has been created and run is whole, and its transport is alive. -/
theorem made_run {allow_local_ips : Bool} {es : List SessionEvent} (hes : ∀ e ∈ es, e.Proper) (k : CString)
    (p : TransportProxy) (hp : ((new allow_local_ips).run es).transports[k]? = some p) : p.Made := by
  have hall : ∀ (k : CString) p, ((new allow_local_ips).run es).transports[k]? = some p → p.Made :=
    (operates_run (new allow_local_ips) hes).keeps (fun _ _ => TransportProxy.made_new _ _)
      (fun _ _ hp hop => hp.operation hop) (by simp [new])
  exact hall k p hp

/-- In a sound session no channel is lost. -/
theorem not_lost {p : TransportProxy} (hsound : p.Sound) {name : CString} (hchannel : (p.GetChannel name).isSome = true) :
    ¬ p.Lost name := by
  rw [TransportProxy.Lost]
  by_cases hstate : p.state = .negotiated
  · rw [if_pos hstate, hsound.connected hstate name hchannel]
    nofun
  · rw [if_neg hstate, hsound.waiting hstate name]
    nofun

/-- In a sound session every batch is taken as it should be. -/
theorem Sound.allOrNothing {s : PPSession} (h : s.Sound) (hmade : ∀ (k : CString) p, s.transports[k]? = some p → p.Made)
    (verify : Transport → Candidate → Bool) (p2pInfo : P2PInfo) :
    AllOrNothing verify s p2pInfo.content_name p2pInfo.candidates (s.OnRemoteCandidatesBy verify p2pInfo) := by
  refine (allOrNothing_OnRemoteCandidatesBy verify hmade p2pInfo).mpr ?_
  rintro ⟨p, hp, hwelcome, cand, hcand, hlost⟩
  refine not_lost (h _ p hp) ?_ hlost
  exact (hwelcome cand hcand).2.elim id ((hmade _ p hp).whole cand.name)

theorem Sound.survived_OnRemoteCandidatesBy {s : PPSession} (h : s.Sound) (verify : Transport → Candidate → Bool)
    (p2pInfo : P2PInfo) : s.Survived (s.OnRemoteCandidatesBy verify p2pInfo).1 := by
  have hnegotiation := s.survived_onProxy p2pInfo.content_name fun p hp => (h _ p hp).posts_CompleteNegotiation
  unfold OnRemoteCandidatesBy
  split
  · exact .refl s
  · dsimp only
    split
    · exact hnegotiation
    · split
      · exact hnegotiation.trans (survived_onProxy _ _ fun _ _ => posts_nil)
      · exact hnegotiation

/-- What a session has sent and posted stays. -/
theorem out_OnRemoteCandidatesBy (s : PPSession) (verify : Transport → Candidate → Bool) (p2pInfo : P2PInfo) :
    s.out <+: (s.OnRemoteCandidatesBy verify p2pInfo).1.out := by
  have hproxy : ∀ (u : PPSession) k f, u.out <+: (u.onProxy k f).out := fun u k f => (u.unmoved_onProxy k f).grows
  unfold OnRemoteCandidatesBy
  split
  · exact List.prefix_rfl
  · dsimp only
    split
    · exact hproxy s _ _
    · split
      · exact (hproxy s _ _).trans (hproxy _ _ _)
      · exact hproxy s _ _

/-- What a session is that the build with `_DEBUG` has come to. -/
structure Fit (s : PPSession) : Prop where
  wired : s.Wired
  sound : s.Sound
  made : ∀ (k : CString) p, s.transports[k]? = some p → p.Made

theorem fit_new (allow_local_ips : Bool) : (new allow_local_ips).Fit :=
  ⟨wired_new allow_local_ips, sound_init allow_local_ips, by simp [new]⟩

theorem Fit.handle {s : PPSession} (h : s.Fit) {e : SessionEvent} (henabled : s.Enabled e) (hplace : s.InPlace e) :
    (s.handle e).Fit where
  wired := h.wired.handle henabled
  sound := h.sound.handle henabled hplace
  made := (s.operates_handle (listens_of_enabled s henabled)).keeps (fun _ _ => TransportProxy.made_new _ _)
    (fun _ _ hp hop => hp.operation hop) h.made

theorem Fit.run {s : PPSession} (h : s.Fit) {es : List SessionEvent} (henabled : s.Along Enabled es)
    (hplace : s.Along InPlace es) : (s.run es).Fit := by
  induction es generalizing s with
  | nil => exact h
  | cons e es ih => exact ih (h.handle henabled.1 hplace.1) henabled.2 hplace.2

/-- The program gets through the message, which is taken as a whole or not at all. -/
structure TakenWhole (verify : Transport → Candidate → Bool) (s : PPSession) (content : CString)
    (candidates : List Candidate) (r : PPSession × Bool) : Prop where
  survived : s.Survived r.1
  whole : AllOrNothing verify s content candidates r

theorem Fit.takenWhole_iff {s : PPSession} (h : s.Fit) (verify : Transport → Candidate → Bool) {content : CString}
    {rest : List CString} {candidates : List Candidate} (hdecode : decodeCandidates (content :: rest) = some candidates) :
    TakenWhole verify s content candidates
        (s.OnTransportInfoMessageBy verify { type := .transportInfo, argvs := content :: rest }) ↔
      badPorts (content :: rest) = [] := by
  have hrun : s.OnTransportInfoMessageBy verify { type := .transportInfo, argvs := content :: rest } =
      ((badPorts (content :: rest)).foldl (fun s _ => s.emit (.assertFailed .portFits)) s).OnRemoteCandidatesBy verify
        { content_name := content, candidates } := by
    simp only [OnTransportInfoMessageBy, withContent, List.getElem?_cons_zero, hdecode]
  rw [hrun]
  constructor
  · rintro ⟨hsurvived, -⟩
    exact survived_behind_badPorts hsurvived (out_OnRemoteCandidatesBy _ verify _)
  · intro hports
    rw [hports]
    exact ⟨h.sound.survived_OnRemoteCandidatesBy verify _, h.sound.allOrNothing h.made verify { content_name := content, candidates }⟩

/-- The build with `_DEBUG` takes a transport info message as a whole or not at all, in every state that it comes to,
    exactly when the ports in it fit. -/
theorem batches_whole {allow_local_ips : Bool} {es : List SessionEvent} (henabled : (new allow_local_ips).Along Enabled es)
    (hsurvives : (new allow_local_ips).Along Survives es) (verify : Transport → Candidate → Bool) (content : CString)
    (rest : List CString) :
    ∃ candidates, decodeCandidates (content :: rest) = some candidates ∧
      (TakenWhole verify ((new allow_local_ips).run es) content candidates
          (((new allow_local_ips).run es).OnTransportInfoMessageBy verify
            { type := .transportInfo, argvs := content :: rest }) ↔
        badPorts (content :: rest) = []) := by
  obtain ⟨candidates, hdecode⟩ := Option.isSome_iff_exists.mp (decodeCandidates_isSome (content :: rest))
  have hplace := (along_survives_iff (wired_new allow_local_ips) (sound_init allow_local_ips) (by simp [Alive, new])
    henabled).mp hsurvives
  exact ⟨candidates, hdecode, ((fit_new allow_local_ips).run henabled hplace).takenWhole_iff verify hdecode⟩

end PPSession

end

/-! ### A batch that is taken, and one that ends the program -/

namespace PPSession
attribute [local instance] Host.plain

/-- The words of a candidate for the channel of the prober. -/
def goodCandidate : List CString :=
  ["prober", "udp", "1", "10.0.0.1", "5000", "user", "password", "local", "eth0", "0"].map cstr

/-- A session that has taken an initiate message and has accepted. -/
def acceptedInitiate : List SessionEvent :=
  [.createChannel (cstr "data") (cstr "prober"), .incoming id { type := .sessionInitiate, argvs := [cstr "data"] },
    .call id .accept]

theorem proper_acceptedInitiate : ∀ e ∈ acceptedInitiate, e.Proper := by
  simp only [acceptedInitiate, List.mem_cons, List.not_mem_nil, or_false]
  rintro e (rfl | rfl | rfl)
  · trivial
  · exact ⟨listener_id, by simp⟩
  · exact listener_id

theorem live_acceptedInitiate : (new true).Along Enabled acceptedInitiate ∧ (new true).Along Survives acceptedInitiate := by
  have henabled : (new true).Along Enabled acceptedInitiate := by
    simp only [acceptedInitiate, Along]
    refine ⟨fun p hp => ?_, listener_id, listener_id, trivial⟩
    simp [new, GetTransportProxy] at hp
  refine ⟨henabled, (along_survives_iff (wired_new true) (sound_init true) (by simp [Alive, new]) henabled).mpr ?_⟩
  simp only [acceptedInitiate, Along]
  exact ⟨trivial, ⟨by decide, by simp, by simp⟩, trivial, trivial⟩

theorem batches_whole_accepted :
    ∃ candidates, decodeCandidates (cstr "data" :: goodCandidate) = some candidates ∧
      TakenWhole Transport.VerifyCandidate ((new true).run acceptedInitiate) (cstr "data") candidates
        (((new true).run acceptedInitiate).OnTransportInfoMessageBy Transport.VerifyCandidate
          { type := .transportInfo, argvs := cstr "data" :: goodCandidate }) := by
  obtain ⟨candidates, hdecode, hexact⟩ := batches_whole live_acceptedInitiate.1 live_acceptedInitiate.2
    Transport.VerifyCandidate (cstr "data") goodCandidate
  exact ⟨candidates, hdecode, hexact.mpr (by decide)⟩

/-- The same words with a port that does not fit. -/
def largePort : List CString :=
  ["prober", "udp", "1", "10.0.0.1", "70000", "user", "password", "local", "eth0", "0"].map cstr

/-- The message is neither taken nor refused, since the program does not get through it. -/
theorem large_port_not_whole :
    ¬ ((new true).run acceptedInitiate).Survived
        (((new true).run acceptedInitiate).OnTransportInfoMessageBy Transport.VerifyCandidate
          { type := .transportInfo, argvs := cstr "data" :: largePort }).1 ∧
      ∀ candidates, ¬ TakenWhole Transport.VerifyCandidate ((new true).run acceptedInitiate) (cstr "data") candidates
        (((new true).run acceptedInitiate).OnTransportInfoMessageBy Transport.VerifyCandidate
          { type := .transportInfo, argvs := cstr "data" :: largePort }) := by
  have hended : ¬ ((new true).run acceptedInitiate).Survived
      (((new true).run acceptedInitiate).OnTransportInfoMessageBy Transport.VerifyCandidate
        { type := .transportInfo, argvs := cstr "data" :: largePort }).1 := by
    intro h
    have hports : badPorts (cstr "data" :: largePort) = [] := by
      obtain ⟨candidates, hdecode⟩ := Option.isSome_iff_exists.mp (decodeCandidates_isSome (cstr "data" :: largePort))
      simp only [OnTransportInfoMessageBy, withContent, List.getElem?_cons_zero, hdecode] at h
      exact survived_behind_badPorts h (out_OnRemoteCandidatesBy _ _ _)
    exact absurd hports (by decide)
  exact ⟨hended, fun _ h => hended h.survived⟩

end PPSession

end ProbICE
