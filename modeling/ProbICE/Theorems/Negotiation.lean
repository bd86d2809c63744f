import ProbICE.Handshake
import ProbICE.Theorems.Candidates
import ProbICE.Theorems.Refusals

/-! # What a negotiated proxy takes

Before the negotiation no channel of a proxy has its implementation, and behind it the transport has every channel of
the proxy. So a transport that has been negotiated takes the candidates for the channels of its proxy, and hands each
of them on to the worker thread. -/

namespace ProbICE
variable [Host]

namespace Transport

theorem VerifyCandidate_congr {t t' : Transport} (h : t'.allow_local_ips = t.allow_local_ips) (cand : Candidate) :
    t'.VerifyCandidate cand = t.VerifyCandidate cand := by
  rw [VerifyCandidate, VerifyCandidate, h]

/-- An IPv4 address passes as well when it is read back from its texts. -/
theorem VerifyCandidate_reread (t : Transport) {cand : Candidate} (h : cand.address.IsIPv4) :
    t.VerifyCandidate cand.reread = t.VerifyCandidate cand := by
  obtain ⟨hip, hport⟩ := SocketAddress.ofHostname_texts h
  have hip' : cand.reread.address.ip = cand.address.ip := hip
  have hport' : cand.reread.address.port = cand.address.port := hport
  by_cases hany : IPIsAny cand.address.ip = true
  · simp [VerifyCandidate, SocketAddress.IsAny, hip', hany]
  · simp [VerifyCandidate, SocketAddress.IsAny, SocketAddress.IsLocalIP, SocketAddress.IsLoopbackIP, SocketAddress.IsPrivateIP,
      hip', hport', hany]

/-- The candidates that the transport has handed on to the worker thread, oldest first. -/
def handed (t : Transport) : List Candidate :=
  t.worker.filterMap fun
    | .remoteCandidate candidate => some candidate
    | _ => none

/-- A transport that has a channel for each candidate hands all of them on. -/
theorem OnRemoteCandidates_all {t : Transport} (halive : t.destroyed = false) {candidates : List Candidate}
    (h : ∀ cand ∈ candidates, t.HasChannel cand.name = true) :
    t.OnRemoteCandidates candidates = { t with worker := t.worker ++ candidates.map .remoteCandidate } := by
  induction candidates generalizing t with
  | nil => simp [OnRemoteCandidates]
  | cons cand candidates ih =>
    have hone : t.OnRemoteCandidate cand = { t with worker := t.worker ++ [.remoteCandidate cand] } := by
      simp [OnRemoteCandidate, halive, h cand List.mem_cons_self]
    have hrest := ih (t := { t with worker := t.worker ++ [.remoteCandidate cand] }) halive
      fun c hc => h c (List.mem_cons_of_mem _ hc)
    have hfold : t.OnRemoteCandidates (cand :: candidates) = (t.OnRemoteCandidate cand).OnRemoteCandidates candidates := rfl
    rw [hfold, hone, hrest]
    simp

theorem handed_OnRemoteCandidates {t : Transport} (halive : t.destroyed = false) {candidates : List Candidate}
    (h : ∀ cand ∈ candidates, t.HasChannel cand.name = true) :
    (t.OnRemoteCandidates candidates).handed = t.handed ++ candidates ∧
      (t.OnRemoteCandidates candidates).destroyed = false ∧
      (t.OnRemoteCandidates candidates).allow_local_ips = t.allow_local_ips := by
  rw [OnRemoteCandidates_all halive h]
  refine ⟨?_, halive, rfl⟩
  simp [handed]

end Transport

namespace TransportProxy

/-- The proxy has the same channels, and its transport takes the same addresses. -/
structure SameChannels (p p' : TransportProxy) : Prop where
  channels : ∀ name, (p'.GetChannel name).isSome = (p.GetChannel name).isSome
  allow_local_ips : p'.transport.allow_local_ips = p.transport.allow_local_ips

theorem SameChannels.refl (p : TransportProxy) : p.SameChannels p := ⟨fun _ => rfl, rfl⟩

theorem SameChannels.trans {p p' p'' : TransportProxy} (h : p.SameChannels p') (h' : p'.SameChannels p'') :
    p.SameChannels p'' :=
  ⟨fun name => (h'.channels name).trans (h.channels name), h'.allow_local_ips.trans h.allow_local_ips⟩

/-- No channel has its implementation before the negotiation, and the transport has every channel behind it. -/
structure Sound (p : TransportProxy) : Prop where
  waiting : p.state ≠ .negotiated → ∀ name, (p.GetChannel name).any (·.impl) = false
  connected : p.state = .negotiated → ∀ name, (p.GetChannel name).isSome = true → p.transport.HasChannel name = true
  alive : p.transport.destroyed = false

section operations
variable {p : TransportProxy}

theorem HasChannel_GetOrCreateImpl (p : TransportProxy) (name j : CString) :
    (p.GetOrCreateImpl name).1.transport.HasChannel j = true ↔ j = name ∨ p.transport.HasChannel j = true := by
  unfold GetOrCreateImpl
  split
  · rename_i h
    exact ⟨.inr, fun hj => hj.elim (fun hj => hj ▸ h) fun hj => hj⟩
  · exact p.transport.HasChannel_CreateChannel name j

theorem GetOrCreateImpl_frame (p : TransportProxy) (name : CString) :
    (p.GetOrCreateImpl name).1.channels = p.channels ∧
      (p.GetOrCreateImpl name).1.transport.allow_local_ips = p.transport.allow_local_ips ∧
      (p.transport.destroyed = false → (p.GetOrCreateImpl name).1.transport.destroyed = false) := by
  unfold GetOrCreateImpl
  split
  · exact ⟨rfl, rfl, id⟩
  · exact ⟨rfl, rfl, fun _ => rfl⟩

/-- The first implementation of a channel replaces none. -/
theorem SetProxyImpl_first {name : CString} (h : (p.GetChannel name).any (·.impl) = false) :
    (p.SetProxyImpl name).1 = { (p.GetOrCreateImpl name).1 with channels := p.channels.insert name { impl := true } } := by
  have hchannels := (p.GetOrCreateImpl_frame name).1
  have hno : ((p.GetOrCreateImpl name).1.GetChannel name).any (·.impl) = false := by
    rwa [GetChannel, hchannels]
  unfold SetProxyImpl Emit.andThen
  simp only [hno, Bool.false_eq_true, if_false, hchannels]

/-- Making the implementations of channels of the proxy. -/
theorem forEach_GetOrCreateImpl_frame (p : TransportProxy) (names : List CString) :
    (Emit.forEach GetOrCreateImpl p names).1.channels = p.channels ∧
      (Emit.forEach GetOrCreateImpl p names).1.transport.allow_local_ips = p.transport.allow_local_ips ∧
      (p.transport.destroyed = false → (Emit.forEach GetOrCreateImpl p names).1.transport.destroyed = false) := by
  refine Emit.forEach_keeps (P := fun q : TransportProxy => q.channels = p.channels ∧
    q.transport.allow_local_ips = p.transport.allow_local_ips ∧
    (p.transport.destroyed = false → q.transport.destroyed = false)) ?_ ⟨rfl, rfl, id⟩
  intro q name _ ⟨hchannels, hallow, halive⟩
  obtain ⟨hchannels', hallow', halive'⟩ := q.GetOrCreateImpl_frame name
  exact ⟨hchannels'.trans hchannels, hallow'.trans hallow, halive' ∘ halive⟩

/-- The negotiation gives each channel its first implementation. -/
theorem forEach_SetProxyImpl {names : List CString} (hnodup : names.Nodup)
    (hwaiting : ∀ name ∈ names, (p.GetChannel name).any (·.impl) = false)
    (hnames : ∀ name ∈ names, (p.GetChannel name).isSome = true) :
    p.SameChannels (Emit.forEach SetProxyImpl p names).1 ∧
      (∀ j, j ∈ names ∨ p.transport.HasChannel j = true →
        (Emit.forEach SetProxyImpl p names).1.transport.HasChannel j = true) ∧
      (p.transport.destroyed = false → (Emit.forEach SetProxyImpl p names).1.transport.destroyed = false) := by
  induction names generalizing p with
  | nil => exact ⟨.refl p, by simp, id⟩
  | cons name names ih =>
    rw [List.nodup_cons] at hnodup
    have hfirst := SetProxyImpl_first (hwaiting name List.mem_cons_self)
    obtain ⟨hchannels, hallow, halive⟩ := p.GetOrCreateImpl_frame name
    have hget : ∀ j, j ≠ name → (p.SetProxyImpl name).1.GetChannel j = p.GetChannel j := by
      intro j hj
      rw [hfirst, GetChannel, GetChannel]
      simp [Std.ExtTreeMap.getElem?_insert, Ne.symm hj]
    have hself : ((p.SetProxyImpl name).1.GetChannel name).isSome = true := by
      rw [hfirst, GetChannel]
      simp
    have hsame : p.SameChannels (p.SetProxyImpl name).1 := by
      refine ⟨fun j => ?_, by rw [hfirst]; exact hallow⟩
      by_cases hj : j = name
      · rw [hj, hself, hnames name List.mem_cons_self]
      · rw [hget j hj]
    have hne : ∀ j ∈ names, j ≠ name := by
      rintro j hj rfl
      exact hnodup.1 hj
    obtain ⟨hrest, hhas, hdestroyed⟩ := ih (p := (p.SetProxyImpl name).1) hnodup.2
      (fun j hj => by rw [hget j (hne j hj)]; exact hwaiting j (List.mem_cons_of_mem _ hj))
      (fun j hj => by rw [hget j (hne j hj)]; exact hnames j (List.mem_cons_of_mem _ hj))
    have hhere : ∀ j, j = name ∨ p.transport.HasChannel j = true → (p.SetProxyImpl name).1.transport.HasChannel j = true := by
      intro j hj
      rw [hfirst]
      exact (p.HasChannel_GetOrCreateImpl name j).mpr hj
    refine ⟨hsame.trans hrest, fun j hj => hhas j ?_, fun h => hdestroyed ?_⟩
    · rcases hj with hj | hj
      · rcases List.mem_cons.mp hj with rfl | hj
        · exact .inr (hhere j (.inl rfl))
        · exact .inl hj
      · exact .inr (hhere j (.inr hj))
    · rw [hfirst]
      exact halive h

theorem ConnectChannels_frame (t : Transport) :
    t.ConnectChannels.1.allow_local_ips = t.allow_local_ips ∧ t.ConnectChannels.1.destroyed = t.destroyed ∧
      t.ConnectChannels.1.worker = t.worker := by
  unfold Transport.ConnectChannels
  split <;> exact ⟨rfl, rfl, rfl⟩

theorem HasChannel_ConnectChannels (t : Transport) (name : CString) : t.ConnectChannels.1.HasChannel name = t.HasChannel name := by
  rw [Transport.HasChannel, Transport.GetChannel, Transport.channels_ConnectChannels, Transport.HasChannel, Transport.GetChannel]

/-- From `p` to `p'` the transport has handed on the candidates `taken`. Behind the candidates that wait to be sent come
    the ones that are `added`, and the first of them are `gone`. -/
structure Turns (p p' : TransportProxy) (taken added gone : List Candidate) : Prop where
  same : p.SameChannels p'
  sound : p'.Sound
  handed : p'.transport.handed = p.transport.handed ++ taken
  unsent : p.unsent_candidates ++ added = gone ++ p'.unsent_candidates

theorem Sound.turns (h : p.Sound) : p.Turns p [] [] [] := ⟨.refl p, h, by simp, by simp⟩

theorem turns_of_sameCandidates {p' : TransportProxy} (hsame : p.SameChannels p') (hsound : p'.Sound)
    (hcandidates : p.SameCandidates p') : p.Turns p' [] [] [] :=
  ⟨hsame, hsound, by rw [Transport.handed, hcandidates.1, Transport.handed, List.append_nil], by
    rw [hcandidates.2, List.append_nil, List.nil_append]⟩

theorem turns_SpeculativelyConnectChannels (h : p.Sound) (hstate : p.state ≠ .negotiated) :
    p.Turns p.SpeculativelyConnectChannels.1 [] [] [] := by
  set q := (Emit.forEach GetOrCreateImpl { p with state := .connecting } p.channels.keys).1 with hq
  obtain ⟨hchannels, hallow, halive⟩ := forEach_GetOrCreateImpl_frame { p with state := .connecting } p.channels.keys
  obtain ⟨hallow', halive', hworker⟩ := ConnectChannels_frame q.transport
  have hcandidates : p.SameCandidates q := Emit.forEach_keeps (P := p.SameCandidates)
    (fun r name _ hr => hr.trans (r.sameCandidates_GetOrCreateImpl name)) ⟨rfl, rfl⟩
  have hget : ∀ name, q.GetChannel name = p.GetChannel name := fun name => congrArg (·[name]?) hchannels
  refine turns_of_sameCandidates ⟨fun name => ?_, hallow'.trans hallow⟩ ⟨fun _ name => ?_, fun hnegotiated => ?_, ?_⟩
    (hcandidates.trans ⟨hworker, rfl⟩)
  · exact congrArg Option.isSome (hget name)
  · exact (congrArg _ (hget name)).trans (h.waiting hstate name)
  · rw [state_SpeculativelyConnectChannels] at hnegotiated
    cases hnegotiated
  · exact halive'.trans (halive h.alive)

theorem turns_CompleteNegotiation (h : p.Sound) : p.Turns p.CompleteNegotiation.1 [] [] [] := by
  by_cases hstate : p.state = .negotiated
  · rw [CompleteNegotiation_of_negotiated hstate]
    exact h.turns
  · set q := (Emit.forEach SetProxyImpl { p with state := .negotiated } p.channels.keys).1 with hq
    have hfirst : p.CompleteNegotiation.1 = (q.onTransport Transport.ConnectChannels).1 := by
      rw [CompleteNegotiation, if_neg hstate]
      rfl
    obtain ⟨hsame, hhas, halive⟩ := forEach_SetProxyImpl (p := { p with state := .negotiated })
      Std.ExtTreeMap.nodup_keys (fun name _ => h.waiting hstate name) fun _ => p.isSome_of_mem_keys
    obtain ⟨hallow', halive', -⟩ := ConnectChannels_frame q.transport
    have hall : ∀ name, (p.GetChannel name).isSome = true → q.transport.HasChannel name = true := fun name hname =>
      hhas name (.inl (by simpa [GetChannel, Std.ExtTreeMap.mem_keys] using hname))
    refine turns_of_sameCandidates ?_ ⟨fun hno => absurd p.state_CompleteNegotiation hno, fun _ name hname => ?_, ?_⟩
      p.sameCandidates_CompleteNegotiation
    · rw [hfirst]
      exact ⟨hsame.channels, hallow'.trans hsame.allow_local_ips⟩
    · rw [hfirst] at hname ⊢
      refine (HasChannel_ConnectChannels q.transport name).trans (hall name ?_)
      exact (hsame.channels name).symm.trans hname
    · rw [hfirst]
      exact halive'.trans (halive h.alive)

/-- A candidate for a channel of the proxy with an address that its transport takes. -/
def Takes (p : TransportProxy) (cand : Candidate) : Prop :=
  p.transport.VerifyCandidate cand = true ∧ (p.GetChannel cand.name).isSome = true

theorem Takes.of_same {p' : TransportProxy} {cand : Candidate} (h : p.Takes cand) (hsame : p.SameChannels p') : p'.Takes cand :=
  ⟨(Transport.VerifyCandidate_congr hsame.allow_local_ips cand).trans h.1, (hsame.channels cand.name).trans h.2⟩

theorem takes_reread (p : TransportProxy) {cand : Candidate} (h : cand.address.IsIPv4) : p.Takes cand.reread ↔ p.Takes cand := by
  rw [Takes, p.transport.VerifyCandidate_reread h]
  rfl

/-- A negotiated proxy accepts the candidates that it takes. -/
theorem acceptable_CompleteNegotiation (h : p.Sound) {candidates : List Candidate} (hcandidates : ∀ cand ∈ candidates, p.Takes cand) :
    PPSession.Acceptable p.CompleteNegotiation.1.transport candidates = true := by
  have hturns := turns_CompleteNegotiation h
  refine List.all_eq_true.mpr fun cand hcand => ?_
  obtain ⟨hverify, hchannel⟩ := (hcandidates cand hcand).of_same hturns.same
  rw [hverify, hturns.sound.connected p.state_CompleteNegotiation _ hchannel, Bool.and_self]

theorem turns_takeCandidates (h : p.Sound) {candidates : List Candidate} (hcandidates : ∀ cand ∈ candidates, p.Takes cand) :
    p.Turns (PPSession.takeCandidates p candidates) candidates [] [] := by
  have hturns := turns_CompleteNegotiation h
  have hacc := acceptable_CompleteNegotiation h hcandidates
  have hhas : ∀ cand ∈ candidates, p.CompleteNegotiation.1.transport.HasChannel cand.name = true := fun cand hcand =>
    (Bool.and_eq_true_iff.mp (List.all_eq_true.mp hacc cand hcand)).2
  obtain ⟨hhanded, halive, hallow⟩ := Transport.handed_OnRemoteCandidates hturns.sound.alive hhas
  rw [PPSession.takeCandidates, if_pos hacc]
  refine ⟨⟨hturns.same.channels, hallow.trans hturns.same.allow_local_ips⟩,
    ⟨hturns.sound.waiting, fun hstate name hname => ?_, halive⟩, ?_, hturns.unsent⟩
  · have hchannels := (p.CompleteNegotiation.1.transport.OnRemoteCandidates_frame candidates).1
    rw [Transport.HasChannel, Transport.GetChannel, hchannels]
    exact hturns.sound.connected hstate name hname
  · rw [hhanded, hturns.handed, List.append_nil]

theorem turns_ClearUnsentCandidates (h : p.Sound) : p.Turns p.ClearUnsentCandidates [] [] p.unsent_candidates :=
  ⟨⟨fun _ => rfl, rfl⟩, ⟨h.waiting, h.connected, h.alive⟩, (List.append_nil _).symm, rfl⟩

theorem turns_AddUnsentCandidates (h : p.Sound) (candidates : List Candidate) :
    p.Turns (p.AddUnsentCandidates candidates) [] candidates [] :=
  ⟨⟨fun _ => rfl, rfl⟩, ⟨h.waiting, h.connected, h.alive⟩, (List.append_nil _).symm, rfl⟩

end operations

end TransportProxy

end ProbICE
