import ProbICE.Theorems.Interruptions
import ProbICE.Theorems.Negotiation
import ProbICE.Theorems.Timers

/-! # A terminated session

A session that has terminated refuses all calls, and its state does not change any more. What does not look at the state
goes on: the callbacks of the transports, the transport messages, and the rest of a handler whose listeners have terminated
the session. -/

namespace ProbICE

section
variable [Host]

namespace Transport

theorem hasChannels_iff {t : Transport} : t.HasChannels = true ↔ ∃ name, t.HasChannel name = true := by
  rw [HasChannels, Bool.not_eq_true', Std.ExtTreeMap.isEmpty_eq_false_iff, Std.ExtTreeMap.eq_empty_iff_forall_not_mem,
    not_forall]
  exact exists_congr fun name => not_not.trans Std.ExtTreeMap.mem_iff_isSome_getElem?

theorem requested_ConnectChannels (t : Transport) :
    t.ConnectChannels.1.connect_requested = true ↔ t.connect_requested = true ∨ t.HasChannels = true := by
  unfold ConnectChannels
  split
  · rename_i h
    rcases h with h | h
    · simp [h]
    · simp [h]
  · rename_i h
    exact iff_of_true rfl (.inr (not_not.mp (not_or.mp h).2))

end Transport

namespace TransportProxy

/-- From `p` to `p'` the proxy has not been negotiated and not been told to connect. -/
structure NoFurther (p p' : TransportProxy) : Prop where
  negotiated : p'.state = .negotiated → p.state = .negotiated
  connecting : p'.state ≠ .init → p.state ≠ .init
  requested : p'.transport.connect_requested = true → p.transport.connect_requested = true

section noFurther
variable {p p' p'' : TransportProxy}

theorem NoFurther.refl (p : TransportProxy) : p.NoFurther p := ⟨id, id, id⟩

theorem NoFurther.trans (h : p.NoFurther p') (h' : p'.NoFurther p'') : p.NoFurther p'' where
  negotiated := h.negotiated ∘ h'.negotiated
  connecting := h.connecting ∘ h'.connecting
  requested := h.requested ∘ h'.requested

theorem Stays.noFurther (h : p.Stays p') : p.NoFurther p' where
  negotiated := h.1.symm.trans
  connecting := by
    rw [h.1]
    exact id
  requested := h.2.symm.trans

theorem Stays.symm (h : p.Stays p') : p'.Stays p := ⟨h.1.symm, h.2.symm⟩

theorem noFurther_new (p : TransportProxy) (content_name : CString) (allow_local_ips : Bool) :
    p.NoFurther (new content_name (.new allow_local_ips)) where
  negotiated h := by cases h
  connecting h := absurd rfl h
  requested h := by cases h

/-- Candidates of the other side complete the negotiation first. -/
theorem noFurther_takeCandidates (p : TransportProxy) (candidates : List Candidate) :
    p.NoFurther (PPSession.takeCandidates p candidates) ↔ p.state = .negotiated := by
  have hstate : (PPSession.takeCandidates p candidates).state = .negotiated := by
    unfold PPSession.takeCandidates
    simp only
    split
    · exact p.state_CompleteNegotiation
    · exact p.state_CompleteNegotiation
  refine ⟨fun h => h.negotiated hstate, fun h => ?_⟩
  have hcomplete : p.CompleteNegotiation.1 = p := by rw [CompleteNegotiation_of_negotiated h]
  refine Stays.noFurther ⟨hstate.trans h.symm, ?_⟩
  unfold PPSession.takeCandidates
  simp only [hcomplete]
  split
  · exact (p.transport.OnRemoteCandidates_frame candidates).2
  · rfl

/-- The proxy has been told to connect before, and it has no channel that was not there then. -/
def Told (p : TransportProxy) : Prop :=
  p.state ≠ .init ∧
    (p.transport.connect_requested = true ∨ p.channels.isEmpty = true ∧ p.transport.HasChannels = false)

theorem HasChannel_forEach_GetOrCreateImpl (p : TransportProxy) (names : List CString) (j : CString) :
    (Emit.forEach GetOrCreateImpl p names).1.transport.HasChannel j = true ↔
      j ∈ names ∨ p.transport.HasChannel j = true := by
  induction names generalizing p with
  | nil => simp
  | cons name names ih =>
    rw [Emit.forEach_cons]
    refine (ih _).trans ?_
    rw [HasChannel_GetOrCreateImpl, List.mem_cons]
    tauto

/-- The channels of the proxy and those of its transport are told to connect. -/
theorem requested_SpeculativelyConnectChannels (p : TransportProxy) :
    p.SpeculativelyConnectChannels.1.transport.connect_requested = true ↔
      p.transport.connect_requested = true ∨ p.channels.isEmpty = false ∨ p.transport.HasChannels = true := by
  set q := (Emit.forEach GetOrCreateImpl { p with state := .connecting } p.channels.keys).1 with hq
  have hrun : p.SpeculativelyConnectChannels.1.transport = q.transport.ConnectChannels.1 := rfl
  have hrequested : q.transport.connect_requested = p.transport.connect_requested :=
    (stays_forEach stays_GetOrCreateImpl { p with state := .connecting } p.channels.keys).2
  have hchannels : q.transport.HasChannels = true ↔ p.channels.isEmpty = false ∨ p.transport.HasChannels = true := by
    rw [Transport.hasChannels_iff, Transport.hasChannels_iff, Std.ExtTreeMap.isEmpty_eq_false_iff,
      Std.ExtTreeMap.eq_empty_iff_forall_not_mem, not_forall]
    simp only [hq, HasChannel_forEach_GetOrCreateImpl, Std.ExtTreeMap.mem_keys, not_not]
    exact exists_or
  rw [hrun, Transport.requested_ConnectChannels, hrequested, hchannels]

theorem noFurther_SpeculativelyConnectChannels (p : TransportProxy) :
    p.NoFurther p.SpeculativelyConnectChannels.1 ↔ p.Told := by
  have hstate := p.state_SpeculativelyConnectChannels
  have hrequested := p.requested_SpeculativelyConnectChannels
  constructor
  · intro h
    refine ⟨h.connecting (by rw [hstate]; decide), ?_⟩
    by_contra hno
    rw [not_or, not_and_or, Bool.not_eq_true, Bool.not_eq_true, Bool.not_eq_false] at hno
    exact absurd (h.requested (hrequested.mpr (.inr hno.2))) (by rw [hno.1]; decide)
  · rintro ⟨hinit, htold⟩
    refine ⟨fun h => ?_, fun _ => hinit, fun h => ?_⟩
    · rw [hstate] at h
      cases h
    · obtain h | ⟨hempty, hnone⟩ := htold
      · exact h
      · simpa [hempty, hnone] using hrequested.mp h

end noFurther

end TransportProxy

namespace PPSession

def Terminated (s : PPSession) : Prop := s.state = .sentTerminate ∨ s.state = .receivedTerminate

/-- How often a `MSG_TIMEOUT` has been posted. -/
def timeouts (s : PPSession) : Nat := s.out.count .postTimeout

/-- From `s` to `t` the session has stayed terminated and has been silent. A proxy that has not been made counts as a new
    one. -/
structure Silent (s t : PPSession) : Prop where
  terminated : t.Terminated
  messages : t.messages = s.messages
  timeouts : t.timeouts = s.timeouts
  proxies : ∀ k : CString, (s.proxyOrNew k).NoFurther (t.proxyOrNew k)

section silent
variable {s t u : PPSession}

theorem Silent.refl (h : s.Terminated) : s.Silent s := ⟨h, rfl, rfl, fun _ => .refl _⟩

theorem Silent.trans (h : s.Silent t) (h' : t.Silent u) : s.Silent u where
  terminated := h'.terminated
  messages := h'.messages.trans h.messages
  timeouts := h'.timeouts.trans h.timeouts
  proxies k := (h.proxies k).trans (h'.proxies k)

/-- Two terminated sessions that differ in nothing that matters here. -/
structure Alike (s t : PPSession) : Prop where
  state : t.state = s.state
  messages : t.messages = s.messages
  timeouts : t.timeouts = s.timeouts
  proxies : ∀ k : CString, (s.proxyOrNew k).Stays (t.proxyOrNew k)

theorem Alike.refl (s : PPSession) : s.Alike s := ⟨rfl, rfl, rfl, fun _ => ⟨rfl, rfl⟩⟩

theorem Alike.trans (h : s.Alike t) (h' : t.Alike u) : s.Alike u where
  state := h'.state.trans h.state
  messages := h'.messages.trans h.messages
  timeouts := h'.timeouts.trans h.timeouts
  proxies k := (h.proxies k).trans (h'.proxies k)

theorem Alike.symm (h : s.Alike t) : t.Alike s where
  state := h.state.symm
  messages := h.messages.symm
  timeouts := h.timeouts.symm
  proxies k := (h.proxies k).symm

theorem Alike.terminated (h : s.Alike t) (hs : s.Terminated) : t.Terminated := by rwa [Terminated, h.state]

theorem Alike.silent (h : s.Alike t) (hs : s.Terminated) : s.Silent t :=
  ⟨h.terminated hs, h.messages, h.timeouts, fun k => (h.proxies k).noFurther⟩

/-- What comes before may be left out. -/
theorem Alike.silent_left (h : s.Alike t) (hs : s.Terminated) : s.Silent u ↔ t.Silent u :=
  ⟨fun hu => (h.symm.silent (h.terminated hs)).trans hu, fun hu => (h.silent hs).trans hu⟩

/-- What comes behind may be left out. -/
theorem Alike.silent_right (h : s.Alike t) : u.Silent t ↔ u.Silent s :=
  ⟨fun ht => ht.trans (h.symm.silent ht.terminated), fun hs => hs.trans (h.silent hs.terminated)⟩

theorem alike_of_map {g : CString → TransportProxy → TransportProxy} (hstate : t.state = s.state)
    (hmessages : t.messages = s.messages) (htimeouts : t.timeouts = s.timeouts)
    (hmap : ∀ k : CString, t.transports[k]? = (s.transports[k]?).map (g k)) (hg : ∀ k p, TransportProxy.Stays p (g k p)) :
    s.Alike t := by
  refine ⟨hstate, hmessages, htimeouts, fun k => ?_⟩
  rw [proxyOrNew, proxyOrNew, hmap]
  cases s.transports[k]? with
  | none => exact ⟨rfl, rfl⟩
  | some p => exact hg k p

theorem alike_of_same (hstate : t.state = s.state) (hmessages : t.messages = s.messages)
    (htimeouts : t.timeouts = s.timeouts) (htransports : t.transports = s.transports) : s.Alike t :=
  alike_of_map (g := fun _ p => p) hstate hmessages htimeouts (fun k => by rw [htransports, Option.map_id'])
    fun _ _ => ⟨rfl, rfl⟩

/-- An operation on proxies that emits nothing. -/
theorem silent_iff_of_map {g : CString → TransportProxy → TransportProxy} (hs : s.Terminated) (hstate : t.state = s.state)
    (hmessages : t.messages = s.messages) (htimeouts : t.timeouts = s.timeouts)
    (hmap : ∀ k : CString, t.transports[k]? = (s.transports[k]?).map (g k)) :
    s.Silent t ↔ ∀ (k : CString) p, s.transports[k]? = some p → p.NoFurther (g k p) := by
  constructor
  · intro h k p hp
    have hk := h.proxies k
    rwa [proxyOrNew, proxyOrNew, hmap, hp] at hk
  · intro h
    refine ⟨by rwa [Terminated, hstate], hmessages, htimeouts, fun k => ?_⟩
    rw [proxyOrNew, proxyOrNew, hmap]
    rcases hp : s.transports[k]? with _ | p
    · exact TransportProxy.noFurther_new _ k _
    · exact h k p hp

theorem timeouts_emit {e : SessionEffect} (he : e ≠ .postTimeout) : (s.emit e).timeouts = s.timeouts := by
  rw [PPSession.timeouts, emit, List.count_append, List.count_singleton, if_neg (by simpa using he), Nat.add_zero]
  rfl

theorem timeouts_emit_postTimeout : (s.emit .postTimeout).timeouts = s.timeouts + 1 := by
  rw [PPSession.timeouts, emit, List.count_append, List.count_singleton_self]
  rfl

theorem timeouts_foldl {α : Type} {f : PPSession → α → PPSession} (hf : ∀ s x, (f s x).timeouts = s.timeouts) (xs : List α) :
    (xs.foldl f s).timeouts = s.timeouts := by
  induction xs generalizing s with
  | nil => rfl
  | cons x xs ih => exact ih.trans (hf s x)

theorem alike_emit {e : SessionEffect} (hmessage : e.message? = none) (he : e ≠ .postTimeout) : s.Alike (s.emit e) :=
  alike_of_same rfl (s.messages_emit_other hmessage) (timeouts_emit he) rfl

theorem onProxy_frame (k : CString) (f : TransportProxy → TransportProxy × List TransportEffect) :
    (s.onProxy k f).state = s.state ∧ (s.onProxy k f).messages = s.messages ∧ (s.onProxy k f).timeouts = s.timeouts ∧
      (s.onProxy k f).pending_candidates = s.pending_candidates := by
  rcases hp : s.transports[k]? with _ | p
  · rw [onProxy_of_none s k hp]
    exact ⟨rfl, rfl, rfl, rfl⟩
  · rw [onProxy_of_some s k hp]
    refine ⟨rfl, ?_, ?_, rfl⟩
    · have hnone : ((f p).2.map (TransportEffect.ofContent k)).filterMap SessionEffect.message? = [] := by
        refine List.filterMap_eq_nil_iff.mpr fun e he => ?_
        obtain ⟨e', -, rfl⟩ := List.mem_map.mp he
        cases e' <;> rfl
      rw [messages, List.filterMap_append, hnone, List.append_nil]
      rfl
    · have hnone : ((f p).2.map (TransportEffect.ofContent k)).count .postTimeout = 0 := by
        refine List.count_eq_zero.mpr fun hmem => ?_
        obtain ⟨e', -, he⟩ := List.mem_map.mp hmem
        cases e' <;> cases he
      rw [PPSession.timeouts, List.count_append, hnone, Nat.add_zero]
      rfl

theorem timeouts_SendUnsent (s : PPSession) (k : CString) : (s.SendUnsent k).timeouts = s.timeouts := by
  unfold SendUnsent
  split
  · rfl
  · split
    · exact (onProxy_frame k _).2.2.1.trans (timeouts_emit (by simp))
    · rfl

theorem transports_onProxy_map (k : CString) (f : TransportProxy → TransportProxy × List TransportEffect) (j : CString) :
    (s.onProxy k f).transports[j]? = (s.transports[j]?).map fun p => if j = k then (f p).1 else p := by
  rw [transports_onProxy]
  split
  · rename_i hj
    rw [hj]
  · rw [Option.map_id']

theorem alike_onProxy (k : CString) {f : TransportProxy → TransportProxy × List TransportEffect}
    (hf : ∀ p : TransportProxy, p.Stays (f p).1) : s.Alike (s.onProxy k f) := by
  obtain ⟨hstate, hmessages, htimeouts, -⟩ := s.onProxy_frame k f
  refine alike_of_map hstate hmessages htimeouts (s.transports_onProxy_map k f) fun j p => ?_
  split
  · exact hf p
  · exact ⟨rfl, rfl⟩

theorem alike_GetOrCreateTransportProxy (k : CString) : s.Alike (s.GetOrCreateTransportProxy k) := by
  have hsame := s.sameBut_GetOrCreateTransportProxy k
  refine ⟨hsame.state, hsame.messages, ?_, fun j => ?_⟩
  · rw [PPSession.timeouts, out_GetOrCreateTransportProxy]
    rfl
  · rw [proxyOrNew, proxyOrNew, transports_GetOrCreateTransportProxy]
    split
    · rename_i hj
      rw [hj]
      exact ⟨rfl, rfl⟩
    · cases s.transports[j]? <;> exact ⟨rfl, rfl⟩

theorem alike_CreateChannel (k name : CString) : s.Alike (s.CreateChannel k name) :=
  (s.alike_GetOrCreateTransportProxy k).trans (alike_onProxy k fun p => p.stays_CreateChannel name)

theorem alike_OnSignalingReady (s : PPSession) : s.Alike s.OnSignalingReady := by
  refine alike_of_map (g := fun _ p => { p with transport := p.transport.OnSignalingReady }) rfl rfl rfl
    (fun k => by simp [OnSignalingReady]) fun _ p => ⟨rfl, ?_⟩
  unfold Transport.OnSignalingReady
  split <;> rfl

theorem alike_OnTimeoutMessage (s : PPSession) : s.Alike s.OnTimeoutMessage := by
  have herror : s.Alike { s with error := .time } := alike_of_same rfl rfl rfl rfl
  exact herror.trans (alike_emit rfl (by decide))

theorem alike_OnWorkerEvent (k : CString) (e : WorkerEvent) : s.Alike (s.OnWorkerEvent k e) := by
  refine alike_onProxy k fun p => ?_
  cases e <;> exact ⟨rfl, rfl⟩

theorem alike_badPorts (is : List Nat) : s.Alike (is.foldl (fun s _ => s.emit (.assertFailed .portFits)) s) := by
  induction is generalizing s with
  | nil => exact .refl s
  | cons i is ih => exact (alike_emit rfl (by decide)).trans ih

/-! ### What may break the silence -/

/-- The messages of a transport that leave a terminated session silent. -/
def HushedTask (s : PPSession) (t : Transport) : TransportTask → Prop
  | .connecting => t.HasChannels = true → t.writable = true
  | .candidateReady => t.ready_candidates ≠ [] → s.pending_candidates = true
  | .writeState => t.writable = true → t.HasChannels = true → t.GetTransportState_s = true
  | .requestSignaling => True

variable (hs : s.Terminated)
include hs

theorem silent_OnRemoteCandidates (p2pInfo : P2PInfo) :
    s.Silent (s.OnRemoteCandidates p2pInfo).1 ↔
      ∀ p, s.transports[p2pInfo.content_name]? = some p → p.state = .negotiated := by
  have hsame := s.sameBut_OnRemoteCandidates p2pInfo
  have htimeouts : (s.OnRemoteCandidates p2pInfo).1.timeouts = s.timeouts := by
    have hneg := (s.onProxy_frame p2pInfo.content_name TransportProxy.CompleteNegotiation).2.2.1
    unfold OnRemoteCandidates
    split
    · rfl
    · simp only
      split
      · exact hneg
      · split
        · exact (onProxy_frame p2pInfo.content_name _).2.2.1.trans hneg
        · exact hneg
  rw [silent_iff_of_map hs hsame.state hsame.messages htimeouts (s.OnRemoteCandidates_spec p2pInfo).2]
  constructor
  · intro h p hp
    have hp' := h _ p hp
    rwa [if_pos rfl, TransportProxy.noFurther_takeCandidates] at hp'
  · intro h k p hp
    split
    · rename_i hk
      rw [TransportProxy.noFurther_takeCandidates]
      exact h p (hk ▸ hp)
    · exact .refl p

theorem silent_OnTransportWritable (k : CString) :
    s.Silent (s.OnTransportWritable k) ↔
      ∀ t, s.GetTransport k = some t → t.HasChannels = true → t.writable = true := by
  unfold OnTransportWritable
  rcases ht : s.GetTransport k with _ | t
  · exact iff_of_true (.refl hs) fun t ht => by cases ht
  · have hclear : s.Alike (s.emit .clearTimeout) := alike_emit rfl (by decide)
    simp only
    split
    · rename_i hnot
      refine iff_of_false (fun h => ?_) fun h => hnot.2 (h t rfl hnot.1)
      have hcount := h.timeouts
      rw [timeouts_emit_postTimeout, hclear.timeouts] at hcount
      omega
    · rename_i hnot
      refine iff_of_true (hclear.silent hs) fun u hu hchannels => ?_
      obtain rfl := Option.some.inj hu
      by_contra hw
      exact hnot ⟨hchannels, hw⟩

theorem silent_OnTransportCandidatesReady (k : CString) (candidates : List Candidate) :
    s.Silent (s.OnTransportCandidatesReady k candidates) ↔
      ((s.transports[k]?).isSome = true → s.pending_candidates = true) := by
  rcases hp : s.transports[k]? with _ | p
  · rw [s.OnTransportCandidatesReady_of_none hp]
    exact iff_of_true (.refl hs) fun h => by cases h
  · rw [s.OnTransportCandidatesReady_of_some hp]
    cases hpending : s.pending_candidates with
    | true =>
      rw [if_pos rfl]
      exact iff_of_true ((alike_onProxy k fun p => ⟨rfl, rfl⟩).silent hs) fun _ => rfl
    | false =>
      rw [if_neg (by decide)]
      refine iff_of_false (fun h => ?_) fun h => by cases h rfl
      have hmessages := h.messages
      rw [messages_emit_outgoing] at hmessages
      simp at hmessages

theorem silent_SpeculativelyConnectAll :
    s.Silent s.SpeculativelyConnectAllTransportChannels ↔ ∀ (k : CString) p, s.transports[k]? = some p → p.Told := by
  have hsame := s.sameBut_SpeculativelyConnectAll
  have htimeouts : s.SpeculativelyConnectAllTransportChannels.timeouts = s.timeouts :=
    timeouts_foldl (fun s k => (s.onProxy_frame k _).2.2.1) _
  rw [silent_iff_of_map hs hsame.state hsame.messages htimeouts s.transports_SpeculativelyConnectAll]
  exact forall₃_congr fun k p _ => p.noFurther_SpeculativelyConnectChannels

theorem silent_SendAllUnsent :
    s.Silent s.SendAllUnsentTransportInfoMessages ↔
      ∀ (k : CString) p, s.transports[k]? = some p → p.unsent_candidates = [] := by
  obtain ⟨hsignals, hstate, -⟩ := s.SendAllUnsent_frame
  have hmessages : s.SendAllUnsentTransportInfoMessages.messages = s.messages ++ s.unsentMessages := by
    rw [messages_of_signals hsignals, filterMap_message?_outgoing]
  have htimeouts : s.SendAllUnsentTransportInfoMessages.timeouts = s.timeouts :=
    timeouts_foldl timeouts_SendUnsent _
  have hnone : s.unsentMessages = [] ↔ ∀ (k : CString) p, s.transports[k]? = some p → p.unsent_candidates = [] := by
    rw [unsentMessages, List.filterMap_eq_nil_iff]
    constructor
    · intro h k p hp
      have hmem : k ∈ s.transports.keys := Std.ExtTreeMap.mem_keys.mpr (Std.ExtTreeMap.mem_iff_isSome_getElem?.mpr (by simp [hp]))
      have hk := h k hmem
      rw [hp, Option.bind_some, unsentMessage] at hk
      by_contra hunsent
      rw [if_neg hunsent] at hk
      cases hk
    · intro h k _
      rcases hp : s.transports[k]? with _ | p
      · rfl
      · exact if_pos (h k p hp)
  rw [← hnone]
  constructor
  · intro h
    have heq := h.messages
    rwa [hmessages, List.append_right_eq_self] at heq
  · intro h
    refine (alike_of_map hstate ?_ htimeouts s.transports_SendAllUnsent fun _ p => ⟨rfl, rfl⟩).silent hs
    rw [hmessages, h, List.append_nil]

omit hs in
theorem getTransport_eq_some {k : CString} {t : Transport} (ht : s.GetTransport k = some t) :
    ∃ p, s.transports[k]? = some p ∧ p.transport = t := Option.map_eq_some_iff.mp ht

theorem silent_OnTransportMessage (k : CString) (task : TransportTask) :
    s.Silent (s.OnTransportMessage k task) ↔ ∀ t, s.GetTransport k = some t → s.HushedTask t task := by
  rcases ht : s.GetTransport k with _ | t
  · have hnone : s.OnTransportMessage k task = s := by
      unfold OnTransportMessage
      cases task <;> rw [ht]
    rw [hnone]
    exact iff_of_true (.refl hs) fun t ht => by cases ht
  · have hone : (∀ t', some t = some t' → s.HushedTask t' task) ↔ s.HushedTask t task :=
      ⟨fun h => h t rfl, fun h t' ht' => Option.some.inj ht' ▸ h⟩
    obtain ⟨p, hp, hpt⟩ := getTransport_eq_some ht
    rw [hone]
    cases task with
    | connecting =>
      simp only [OnTransportMessage, ht]
      rw [silent_OnTransportWritable hs, ht]
      exact ⟨fun h => h t rfl, fun h t' ht' => Option.some.inj ht' ▸ h⟩
    | candidateReady =>
      simp only [OnTransportMessage, ht]
      set u := s.onProxy k fun p =>
        ({ p with transport := p.transport.OnChannelCandidateReady_s.1 }, p.transport.OnChannelCandidateReady_s.2.1) with hu
      have halike : s.Alike u := alike_onProxy k fun p => ⟨rfl, rfl⟩
      split
      · rename_i hready
        exact iff_of_true (halike.silent hs) fun h => absurd hready h
      · rename_i hready
        have hsome : (u.transports[k]?).isSome = true := by
          rw [hu, transports_onProxy_map, hp]
          rfl
        have hpending : u.pending_candidates = s.pending_candidates := (s.onProxy_frame k _).2.2.2
        rw [halike.silent_left hs, silent_OnTransportCandidatesReady (halike.terminated hs), hpending]
        exact ⟨fun h _ => h hsome, fun h _ => h hready⟩
    | writeState =>
      simp only [OnTransportMessage, ht]
      set u := s.onProxy k fun p => ({ p with transport := p.transport.OnChannelWritableState_s.1 }, []) with hu
      have halike : s.Alike u := alike_onProxy k fun p => ⟨rfl, rfl⟩
      have hget : u.GetTransport k = some t.OnChannelWritableState_s.1 := by
        rw [GetTransport, GetTransportProxy, hu, transports_onProxy_map, hp, ← hpt]
        simp
      split
      · rename_i hchanged
        have hne : t.writable ≠ t.GetTransportState_s := of_decide_eq_true hchanged
        rw [halike.silent_left hs, silent_OnTransportWritable (halike.terminated hs), hget]
        constructor
        · exact fun h _ hchannels => h _ rfl hchannels
        · rintro h t' ht' hchannels
          obtain rfl := Option.some.inj ht'
          by_contra hw
          have hnow : t.GetTransportState_s = false := Bool.eq_false_iff.mpr hw
          have hbefore : t.writable = true := by
            by_contra hno
            exact hne ((Bool.eq_false_iff.mpr hno).trans hnow.symm)
          exact hw (h hbefore hchannels)
      · rename_i hsame
        have heq : t.writable = t.GetTransportState_s := by
          by_contra hne
          exact hsame (decide_eq_true hne)
        exact iff_of_true (halike.silent hs) fun h _ => heq ▸ h
    | requestSignaling =>
      simp only [OnTransportMessage, ht]
      exact iff_of_true ((alike_emit rfl (by decide)).silent hs) trivial

end silent

/-! ### Runs -/

/-- The events of a terminated session that leave it silent. -/
def Hushed (s : PPSession) : SessionEvent → Prop
  | .incoming _ msg =>
    msg.type = .transportInfo → ∀ content, msg.argvs[0]? = some content →
      ∀ p, s.transports[content]? = some p → p.state = .negotiated
  | .candidatesReady k _ => (s.transports[k]?).isSome = true → s.pending_candidates = true
  | .transport k task => ∀ t, s.GetTransport k = some t → s.HushedTask t task
  | _ => True

/-- The rests of handlers that leave a terminated session silent. -/
def HushedRest (s : PPSession) : Rest → Prop
  | .post => True
  | .initiate => ∀ (k : CString) p, s.transports[k]? = some p → p.Told
  | .accept => ∀ (k : CString) p, s.transports[k]? = some p → p.unsent_candidates = []
  | .negotiate _ content => ∀ p, s.transports[content]? = some p → p.state = .negotiated

theorem silent_reported {s : PPSession} (msg : PPMessage) (r : PPSession × Bool) :
    s.Silent (reported msg r) ↔ s.Silent r.1 := by
  unfold reported
  split
  · rfl
  · exact (alike_emit rfl (by simp)).silent_right

theorem unmoved_reported {s : PPSession} (msg : PPMessage) {r : PPSession × Bool} (h : s.Unmoved r.1) :
    s.Unmoved (reported msg r) := report_keeps (P := s.Unmoved) (fun _ ht => ht.trans (unmoved_emit _ rfl)) r h

/-- The rest of the handler of an offer or of its answer asks for `sentReject` only. -/
theorem finish_negotiate {s : PPSession} (hs : s.Terminated) (msg : PPMessage) (content : CString) :
    s.finish (.negotiate msg content) =
      reported msg ((s.emit .postState).OnRemoteCandidates { content_name := content, candidates := [] }) := by
  have hreject : (s.emit .postState).state ≠ .sentReject := by
    rcases hs with h | h <;> rw [emit, h] <;> decide
  unfold finish
  simp only [if_pos hreject]
  rfl

theorem silent_finish {s : PPSession} (hs : s.Terminated) (rest : Rest) : s.Silent (s.finish rest) ↔ s.HushedRest rest := by
  have hpost : s.Alike (s.emit .postState) := alike_emit rfl (by decide)
  have hs' := hpost.terminated hs
  cases rest with
  | post => exact iff_of_true (hpost.silent hs) trivial
  | initiate => exact (hpost.silent_left hs).trans (silent_SpeculativelyConnectAll hs')
  | accept => exact (hpost.silent_left hs).trans (silent_SendAllUnsent hs')
  | negotiate msg content =>
    rw [finish_negotiate hs, silent_reported, hpost.silent_left hs]
    exact silent_OnRemoteCandidates hs' { content_name := content, candidates := [] }

/-- A call of a terminated session is refused. -/
theorem callLocal_terminated {s : PPSession} (hs : s.Terminated) (L : PPSession → PPSession) (c : LocalCall) :
    s.callLocal L c = s := by
  rcases hs with h | h <;> cases c <;> simp [callLocal, Initiate, Accept, Reject, TerminateWithReason, h]

/-- A terminated session changes its state only when the other side terminates too. -/
theorem silent_upToSignal {s t : PPSession} (hs : s.Terminated) {e : SessionEvent} {rest : Rest}
    (hup : s.upToSignal e = some (t, rest)) : s.Silent t ∧ s.Hushed e := by
  have hinit : s.state ≠ .init := by rcases hs with h | h <;> rw [h] <;> decide
  have hinitiate : s.state ≠ .sentInitiate := by rcases hs with h | h <;> rw [h] <;> decide
  have hreceived : s.state ≠ .receivedInitiate := by rcases hs with h | h <;> rw [h] <;> decide
  have hmodify : s.state ≠ .receivedModify := by rcases hs with h | h <;> rw [h] <;> decide
  cases e with
  | call L c =>
    cases c with
    | initiate content => simp [upToSignal, hinit] at hup
    | accept => simp [upToSignal, hreceived] at hup
    | reject => simp [upToSignal, hreceived, hmodify] at hup
    | terminate => rcases hs with h | h <;> simp [upToSignal, h] at hup
  | incoming L msg =>
    unfold upToSignal at hup
    simp only at hup
    split at hup
    · simp [hinit] at hup
    · simp [hinitiate] at hup
    · simp [hinitiate] at hup
    · rename_i reason htype hfirst
      refine ⟨?_, fun htransport => by rw [htype] at htransport; cases htransport⟩
      split at hup
      · cases hup
      · obtain ⟨rfl, -⟩ := Prod.mk.inj (Option.some.inj hup)
        refine ⟨.inr rfl, ?_, ?_, fun k => .refl _⟩
        · exact (messages_emit_other { s.emit (.receivedTerminateReason reason) with state := .receivedTerminate } rfl).trans
            (s.messages_emit_other rfl)
        · exact (timeouts_emit (s := { s.emit (.receivedTerminateReason reason) with state := .receivedTerminate })
            (by simp)).trans (timeouts_emit (by simp))
    · cases hup
  | state L => rcases hs with h | h <;> simp [upToSignal, h] at hup
  | _ => cases hup

/-- Of the messages of the other side only candidates can make a terminated session do something. -/
theorem silent_incoming {s : PPSession} (hs : s.Terminated) (L : PPSession → PPSession) (msg : PPMessage)
    (hup : s.upToSignal (.incoming L msg) = none) :
    s.Silent (s.handle (SessionEvent.incoming L msg).bare) ↔ s.Hushed (.incoming L msg) := by
  have hinit : s.state ≠ .init := by rcases hs with h | h <;> rw [h] <;> decide
  have hinitiate : s.state ≠ .sentInitiate := by rcases hs with h | h <;> rw [h] <;> decide
  have hrefused : s.Alike (s.emit (.assertFailed .expectedState)) := alike_emit rfl (by decide)
  have hrange : s.Alike (s.emit .outOfRange) := alike_emit rfl (by decide)
  have hreport : s.handle (SessionEvent.incoming L msg).bare = reported msg (s.handled msg) := rfl
  rw [hreport, silent_reported, handled]
  rcases htype : msg.type with _ | _ | _ | _ | _ | _ | _
  case transportInfo =>
    have hone : s.Hushed (.incoming L msg) ↔ ∀ content, msg.argvs[0]? = some content →
        ∀ p, s.transports[content]? = some p → p.state = .negotiated := ⟨fun h => h htype, fun h _ => h⟩
    rw [hone]
    simp only [OnTransportInfoMessage, withContent]
    rcases hfirst : msg.argvs[0]? with _ | content
    · exact iff_of_true (hrange.silent hs) fun content hcontent => by cases hcontent
    · obtain ⟨candidates, hdecode⟩ := Option.isSome_iff_exists.mp (decodeCandidates_isSome msg.argvs)
      have halike := s.alike_badPorts (badPorts msg.argvs)
      simp only [hdecode]
      rw [halike.silent_left hs, silent_OnRemoteCandidates (halike.terminated hs), (s.sameBut_badPorts _).2]
      exact ⟨fun h content' hcontent => Option.some.inj hcontent ▸ h, fun h => h content rfl⟩
  all_goals refine iff_of_true ?_ fun htransport => by rw [htype] at htransport; cases htransport
  case sessionInitiate =>
    rw [s.OnInitiateMessage_refused hinit]
    exact hrefused.silent hs
  case sessionAccept =>
    rw [s.OnAcceptMessage_refused hinitiate]
    exact hrefused.silent hs
  case sessionReject =>
    rw [s.OnRejectMessage_refused hinitiate]
    exact hrefused.silent hs
  case sessionTerminate =>
    simp only [OnTerminateMessage, withContent]
    rcases hfirst : msg.argvs[0]? with _ | reason
    · exact hrange.silent hs
    · have hreason : s.Alike (s.emit (.receivedTerminateReason reason)) := alike_emit rfl (by simp)
      have hstate : s.state = .receivedTerminate := by
        by_contra hne
        simp [upToSignal, htype, hfirst, hne] at hup
      simp only [SetState, if_pos (show SessionState.receivedTerminate = (s.emit _).state from hstate.symm)]
      exact hreason.silent hs
  case sessionInfo =>
    simp only [OnInfoMessage, withContent]
    split
    · exact (alike_emit rfl (by simp)).silent hs
    · exact hrange.silent hs
  case other => exact .refl hs

/-- What a terminated session does about an event that does not change its state. -/
theorem silent_handle {s : PPSession} (hs : s.Terminated) {e : SessionEvent} (hup : s.upToSignal e = none) :
    s.Silent (s.handle e.bare) ↔ s.Hushed e := by
  cases e with
  | call L c =>
    refine iff_of_true ?_ trivial
    rw [SessionEvent.bare, handle, callLocal_terminated hs]
    exact .refl hs
  | incoming L msg => exact silent_incoming hs L msg hup
  | state L =>
    refine iff_of_true ?_ trivial
    have hsame : s.OnStateMessage id = s := by rcases hs with h | h <;> rw [OnStateMessage, h]
    rw [SessionEvent.bare, handle, hsame]
    exact .refl hs
  | timeout => exact iff_of_true (s.alike_OnTimeoutMessage.silent hs) trivial
  | transport k task => exact silent_OnTransportMessage hs k task
  | candidatesReady k candidates => exact silent_OnTransportCandidatesReady hs k candidates
  | worker k e => exact iff_of_true ((alike_OnWorkerEvent k e).silent hs) trivial
  | createChannel k name => exact iff_of_true ((alike_CreateChannel k name).silent hs) trivial
  | signalingReady => exact iff_of_true (s.alike_OnSignalingReady.silent hs) trivial

theorem Unmoved.terminated {s t : PPSession} (h : s.Unmoved t) (hs : s.Terminated) : t.Terminated := by
  rwa [Terminated, h.state]

theorem terminated_handle {s : PPSession} (hs : s.Terminated) {e : SessionEvent} (hup : s.upToSignal e = none) :
    (s.handle e.bare).Terminated := by
  cases e with
  | transport k task => exact (s.unmoved_OnTransportMessage k task).terminated hs
  | candidatesReady k candidates => exact (s.unmoved_OnTransportCandidatesReady k candidates).terminated hs
  | incoming L msg =>
    by_cases htype : msg.type = .transportInfo
    · have hreport : s.handle (SessionEvent.incoming L msg).bare = reported msg (s.OnTransportInfoMessage msg) := by
        rw [SessionEvent.bare, handle, OnIncomingMessage_answer, answer, htype]
        rfl
      rw [hreport]
      exact (unmoved_reported msg (s.unmoved_OnTransportInfoMessage msg)).terminated hs
    · exact ((silent_handle hs hup).mpr fun h => absurd h htype).terminated
  | _ => exact ((silent_handle hs hup).mpr trivial).terminated

theorem terminated_finish {s : PPSession} (hs : s.Terminated) (rest : Rest) : (s.finish rest).Terminated := by
  have hpost : s.Unmoved (s.emit .postState) := s.unmoved_emit rfl
  cases rest with
  | post => exact hpost.terminated hs
  | initiate => exact (hpost.trans (unmoved_SpeculativelyConnectAll _)).terminated hs
  | accept => exact (hpost.trans (unmoved_SendAllUnsent _)).terminated hs
  | negotiate msg content =>
    rw [finish_negotiate hs]
    exact (unmoved_reported msg (hpost.trans (unmoved_OnRemoteCandidates _ _))).terminated hs

end PPSession

namespace Interrupted

/-- An event is handled in one piece or up to a signal, or a handler is finished. -/
theorem step_cases {i j : Interrupted} {e : Event} (hstep : i.step e = some j) :
    (∃ e', e = .enter e' ∧ i.session.upToSignal e' = none ∧ j.session = i.session.handle e'.bare) ∨
      (∃ e' rest, e = .enter e' ∧ i.session.upToSignal e' = some (j.session, rest)) ∨
      (∃ rest, e = .resume ∧ i.rests.head? = some rest ∧ j.session = i.session.finish rest) := by
  cases e with
  | enter e' =>
    rcases hup : i.session.upToSignal e' with _ | ⟨t, rest⟩
    · simp only [step, hup, Option.some.injEq] at hstep
      subst hstep
      exact .inl ⟨e', rfl, hup, rfl⟩
    · simp only [step, hup, Option.some.injEq] at hstep
      subst hstep
      exact .inr (.inl ⟨e', rest, rfl, hup⟩)
  | resume =>
    rcases hrests : i.rests with _ | ⟨rest, rests⟩
    · simp [step, hrests] at hstep
    · simp only [step, hrests, Option.some.injEq] at hstep
      subst hstep
      exact .inr (.inr ⟨rest, rfl, rfl, rfl⟩)

/-- Whatever happens, a terminated session stays terminated. -/
theorem terminated_run {i j : Interrupted} {es : List Event} (hi : i.session.Terminated)
    (hrun : Machine.run step i es = some j) : j.session.Terminated := by
  refine Machine.run_keeps (I := fun i => i.session.Terminated) (fun i j e _ hi hstep => ?_) hi hrun
  obtain ⟨e', rfl, hup, hj⟩ | ⟨e', rest, rfl, hup⟩ | ⟨rest, rfl, -, hj⟩ := step_cases hstep
  · rw [hj]
    exact PPSession.terminated_handle hi hup
  · exact (PPSession.silent_upToSignal hi hup).1.terminated
  · rw [hj]
    exact PPSession.terminated_finish hi rest

/-- A terminated session has nothing to do but what leaves it silent. -/
def Hushed (i : Interrupted) (e : Event) : Prop :=
  i.session.Terminated →
    match e with
    | .enter e => i.session.Hushed e
    | .resume => ∀ rest ∈ i.rests.head?, i.session.HushedRest rest

theorem silent_step {i j : Interrupted} {e : Event} (hstep : i.step e = some j) :
    (i.session.Terminated → i.session.Silent j.session) ↔ i.Hushed e := by
  refine forall_congr' fun hs => ?_
  obtain ⟨e', rfl, hup, hj⟩ | ⟨e', rest, rfl, hup⟩ | ⟨rest, rfl, hrest, hj⟩ := step_cases hstep
  · rw [hj]
    exact PPSession.silent_handle hs hup
  · obtain ⟨hsilent, hhushed⟩ := PPSession.silent_upToSignal hs hup
    exact iff_of_true hsilent hhushed
  · rw [hj]
    simpa [hrest] using PPSession.silent_finish hs rest

/-- In every run a session is silent from its termination on, exactly if all that happens to it then leaves it silent. -/
theorem terminated_silent {allow_local_ips : Bool} {es : List Event} {i : Interrupted}
    (hrun : Machine.run step (new allow_local_ips) es = some i) :
    (∀ es₁ es₂ es₃, es = es₁ ++ es₂ ++ es₃ → ∀ j k, Machine.run step (new allow_local_ips) es₁ = some j →
      Machine.run step j es₂ = some k → j.session.Terminated → j.session.Silent k.session) ↔
    Machine.Along step Hushed (new allow_local_ips) es := by
  refine (Machine.along_iff_keeps_to (R := fun i j => i.session.Terminated → i.session.Silent j.session)
    (fun _ hi => .refl hi) (fun _ _ _ h h' hi => (h hi).trans (h' (h hi).terminated)) ?_ hrun).symm
  exact fun _ _ _ hstep => silent_step hstep

end Interrupted

end

attribute [local instance] Host.plain

namespace Interrupted

def terminating : List Event := [.enter (.call id .terminate), .resume]

def refused : List Event :=
  [.enter (.call id (.initiate (cstr "data"))), .enter (.incoming id { type := .sessionInitiate, argvs := [cstr "data"] })]

theorem terminated_silent_refused :
    ∃ j k, Machine.run step (new false) terminating = some j ∧ j.session.Terminated ∧ Machine.run step j refused = some k ∧
      j.session.Silent k.session := by
  have halong : Machine.Along step Hushed (new false) (terminating ++ refused) := by
    refine ⟨fun _ => trivial, fun i hi => ⟨fun _ rest hrest => ?_, fun j _ => ⟨fun _ => trivial, fun k _ => ⟨fun _ h => ?_,
      fun _ _ => trivial⟩⟩⟩⟩
    · obtain rfl := Option.some.inj hi
      obtain rfl := Option.some.inj hrest
      trivial
    · cases h
  obtain ⟨k, hk⟩ : ∃ k, Machine.run step (new false) (terminating ++ refused) = some k := ⟨_, rfl⟩
  obtain ⟨j, hj, hjk⟩ := Option.bind_eq_some_iff.mp ((Machine.run_append (new false) terminating refused).symm.trans hk)
  have hterminated : j.session.Terminated := by
    obtain rfl := Option.some.inj hj
    exact .inl rfl
  exact ⟨j, k, hj, hterminated, hjk, (terminated_silent hk).mpr halong terminating refused [] rfl j k hj hjk hterminated⟩

/-- A listener of the state change terminates the session that has taken an offer. -/
def hungUp : List Event :=
  [.enter (.incoming id { type := .sessionInitiate, argvs := [cstr "data"] }), .enter (.call id .terminate)]

/-- The content is negotiated all the same when the listener has returned. -/
theorem hungUp_negotiated :
    ∃ j k, Machine.run step (new false) hungUp = some j ∧ j.session.state = .sentTerminate ∧
      Machine.run step j [.resume, .resume] = some k ∧ ¬ j.session.Silent k.session := by
  refine ⟨_, _, rfl, rfl, rfl, fun h => ?_⟩
  have hdata := (h.proxies (cstr "data")).negotiated
  revert hdata
  decide

end Interrupted

end ProbICE
