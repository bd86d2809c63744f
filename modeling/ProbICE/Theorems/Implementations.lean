import ProbICE.Theorems.Negotiation
import ProbICE.Theorems.Proxies

/-! # Every implementation is set once

The negotiation gives each channel of a proxy its implementation. A channel has none before and is there behind it,
as long as no proxy that is negotiated is connected anew: the next negotiation would set the implementations again, and
destroy them. -/

namespace ProbICE
variable [Host]

/-! ### Proxies -/

theorem Transport.destroyed_OnRemoteCandidates (t : Transport) (candidates : List Candidate) :
    (t.OnRemoteCandidates candidates).destroyed = t.destroyed := by
  unfold Transport.OnRemoteCandidates
  induction candidates generalizing t with
  | nil => rfl
  | cons cand candidates ih =>
    refine (ih (t.OnRemoteCandidate cand)).trans ?_
    unfold Transport.OnRemoteCandidate
    split
    · rfl
    · split <;> rfl

namespace TransportProxy
variable {p : TransportProxy}

theorem sound_new (content_name : CString) (allow_local_ips : Bool) : (new content_name (.new allow_local_ips)).Sound :=
  ⟨fun _ name => by simp [new, GetChannel], (by cases ·), rfl⟩

/-- The channels are looked at only. -/
theorem Sound.of_channels (h : p.Sound) {p' : TransportProxy} (hstate : p'.state = p.state)
    (hchannels : p'.channels = p.channels) (hhas : ∀ name, p'.transport.HasChannel name = p.transport.HasChannel name)
    (halive : p'.transport.destroyed = p.transport.destroyed) : p'.Sound where
  waiting hno name := by
    rw [GetChannel, hchannels]
    exact h.waiting (hstate ▸ hno) name
  connected hyes name hname := by
    rw [GetChannel, hchannels] at hname
    rw [hhas]
    exact h.connected (hstate ▸ hyes) name hname
  alive := halive.trans h.alive

/-- A new channel has no implementation, or it gets its first. -/
theorem Sound.CreateChannel (h : p.Sound) (name : CString) : (p.CreateChannel name).1.Sound := by
  set q : TransportProxy := { p with channels := p.channels.insert name { impl := false } } with hq
  have hget : ∀ j, q.GetChannel j = if j = name then some { impl := false } else p.GetChannel j := by
    intro j
    simp only [hq, GetChannel, Std.ExtTreeMap.getElem?_insert, Std.compare_eq_iff_eq]
    by_cases hj : j = name
    · simp [hj]
    · simp [hj, Ne.symm hj]
  have hwaiting : p.state ≠ .negotiated → ∀ j, (q.GetChannel j).any (·.impl) = false := by
    intro hstate j
    rw [hget]
    split
    · rfl
    · exact h.waiting hstate j
  cases hstate : p.state with
  | init =>
    have hresult : (p.CreateChannel name).1 = q := by
      unfold TransportProxy.CreateChannel Emit.andThen
      dsimp only
      rw [hq, hstate]
    rw [hresult]
    exact ⟨hwaiting, fun hno => (by cases hstate.symm.trans hno), h.alive⟩
  | connecting =>
    have hresult : (p.CreateChannel name).1 = (q.GetOrCreateImpl name).1 := by
      unfold TransportProxy.CreateChannel Emit.andThen
      dsimp only
      rw [hq, hstate]
    obtain ⟨hchannels, -, halive⟩ := q.GetOrCreateImpl_frame name
    have hstays : (q.GetOrCreateImpl name).1.state = .connecting := (q.stays_GetOrCreateImpl name).1.trans hstate
    rw [hresult]
    refine ⟨fun _ j => ?_, fun hno => (by cases hstays.symm.trans hno), halive h.alive⟩
    rw [GetChannel, hchannels]
    exact hwaiting (fun hyes => by cases hstate.symm.trans hyes) j
  | negotiated =>
    have hresult : (p.CreateChannel name).1 = (q.SetProxyImpl name).1 := by
      unfold TransportProxy.CreateChannel Emit.andThen
      dsimp only
      rw [hq, hstate]
    have hnone : (q.GetChannel name).any (·.impl) = false := by
      rw [hget, if_pos rfl]
      rfl
    have hfirst := SetProxyImpl_first hnone
    obtain ⟨hchannels, -, halive⟩ := q.GetOrCreateImpl_frame name
    have hstays : (q.SetProxyImpl name).1.state = .negotiated := (q.stays_SetProxyImpl name).1.trans hstate
    rw [hresult]
    refine ⟨fun hno => absurd hstays hno, fun _ j hj => ?_, ?_⟩
    · rw [hfirst] at hj ⊢
      refine (q.HasChannel_GetOrCreateImpl name j).mpr ?_
      by_cases hname : j = name
      · exact .inl hname
      · refine .inr (h.connected hstate j ?_)
        simpa [GetChannel, hq, Std.ExtTreeMap.getElem?_insert, Ne.symm hname] using hj
    · rw [hfirst]
      exact halive h.alive

theorem Sound.SpeculativelyConnectChannels (h : p.Sound) (hstate : p.state ≠ .negotiated) :
    p.SpeculativelyConnectChannels.1.Sound := (turns_SpeculativelyConnectChannels h hstate).sound

theorem Sound.CompleteNegotiation (h : p.Sound) : p.CompleteNegotiation.1.Sound := (turns_CompleteNegotiation h).sound

/-- Every operation but a second connection keeps it. -/
theorem Sound.operation {p' : TransportProxy} (h : p.Sound) (hop : Operation False p p') : p'.Sound := by
  cases hop with
  | createChannel name => exact h.CreateChannel name
  | connect hconnects => exact hconnects.elim
  | complete => exact h.CompleteNegotiation
  | remoteCandidates candidates =>
    have hchannels := (p.transport.OnRemoteCandidates_frame candidates).1
    refine h.of_channels rfl rfl (fun name => ?_) (p.transport.destroyed_OnRemoteCandidates candidates)
    rw [Transport.HasChannel, Transport.GetChannel, hchannels, Transport.HasChannel, Transport.GetChannel]
  | unsent candidates => exact h.of_channels rfl rfl (fun _ => rfl) rfl
  | signalingReady =>
    unfold Transport.OnSignalingReady
    split
    · exact h
    · exact h.of_channels rfl rfl (fun _ => rfl) rfl
  | candidatesReady => exact h.of_channels rfl rfl (fun _ => rfl) rfl
  | writeState => exact h.of_channels rfl rfl (fun _ => rfl) rfl
  | candidateReady candidate => exact h.of_channels rfl rfl (fun _ => rfl) rfl
  | writableState name writable =>
    exact h.of_channels rfl rfl (fun j => Transport.HasChannel_OnChannelWritableState _ name writable j) rfl

/-- Where no channel has an implementation, none is destroyed. -/
theorem posts_forEach_SetProxyImpl {names : List CString} (hnodup : names.Nodup)
    (hwaiting : ∀ name ∈ names, (p.GetChannel name).any (·.impl) = false) :
    Posts (Emit.forEach SetProxyImpl p names).2 := by
  induction names generalizing p with
  | nil => exact posts_nil
  | cons name names ih =>
    rw [List.nodup_cons] at hnodup
    have hhere := hwaiting name List.mem_cons_self
    refine (posts_SetProxyImpl hhere).append (ih hnodup.2 fun j hj => ?_)
    have hne : j ≠ name := by
      rintro rfl
      exact hnodup.1 hj
    have hget : (p.SetProxyImpl name).1.GetChannel j = p.GetChannel j := by
      rw [SetProxyImpl_first hhere, GetChannel, GetChannel]
      simp [Std.ExtTreeMap.getElem?_insert, Ne.symm hne]
    rw [hget]
    exact hwaiting j (List.mem_cons_of_mem _ hj)

theorem Sound.posts_CompleteNegotiation (h : p.Sound) : Posts p.CompleteNegotiation.2 := by
  unfold TransportProxy.CompleteNegotiation
  split
  · exact posts_nil
  · rename_i hstate
    have hall : Posts (Emit.forEach SetProxyImpl { p with state := .negotiated } p.channels.keys).2 :=
      posts_forEach_SetProxyImpl Std.ExtTreeMap.nodup_keys fun name _ => h.waiting hstate name
    exact hall.append (posts_ConnectChannels _)

end TransportProxy

/-! ### Sessions -/

namespace PPSession

def Sound (s : PPSession) : Prop := ∀ (k : CString) p, s.transports[k]? = some p → p.Sound

/-- No proxy of the session is negotiated. -/
def NoneNegotiated (s : PPSession) : Prop := ∀ (k : CString) p, s.transports[k]? = some p → p.state ≠ .negotiated

variable {s t : PPSession}

theorem sound_init (allow_local_ips : Bool) : (new allow_local_ips).Sound := by
  intro k p hp
  simp [new] at hp

theorem Sound.operates (h : s.Sound) (hst : s.Operates False t) : t.Sound :=
  hst.keeps (fun _ _ => TransportProxy.sound_new _ _) (fun _ _ hp hop => hp.operation hop) h

end PPSession

end ProbICE
