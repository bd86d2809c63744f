import ProbICE.Theorems.Codec
import ProbICE.Theorems.Implementations

/-! # What a session does with candidates

A session hands the candidates of the other side on to its transports, and it sends the candidates of its own
transports or keeps them back. Each of its functions is told by what it emits, by the candidates that it hands on and
by the ones that it sends. -/

namespace ProbICE
variable [Host]

namespace PPSession

/-- The candidates that the transport of a content has handed on to its worker thread. -/
def handed (s : PPSession) (k : CString) : List Candidate := ((s.transports[k]?).map (·.transport.handed)).getD []

/-- `unsent_candidates()` of the proxy of a content. -/
def unsent (s : PPSession) (k : CString) : List Candidate := ((s.transports[k]?).map (·.unsent_candidates)).getD []

/-- The candidates for a content in a message. -/
def carried (msg : PPMessage) (k : CString) : List Candidate :=
  if msg.type = .transportInfo ∧ msg.argvs[0]? = some k then (decodeCandidates msg.argvs).getD [] else []

/-- The candidates for a content in messages, in order. -/
def inFlight (ms : List PPMessage) (k : CString) : List Candidate := ms.flatMap fun msg => carried msg k

@[simp] theorem inFlight_nil (k : CString) : inFlight [] k = [] := rfl

@[simp] theorem inFlight_append (ms ms' : List PPMessage) (k : CString) :
    inFlight (ms ++ ms') k = inFlight ms k ++ inFlight ms' k :=
  List.flatMap_append

theorem inFlight_cons (msg : PPMessage) (ms : List PPMessage) (k : CString) :
    inFlight (msg :: ms) k = carried msg k ++ inFlight ms k :=
  List.flatMap_cons

/-- The candidates in a transport message are the ones that have been put in, read back from their words. -/
theorem carried_transportInfo (content : CString) (cs : List Candidate) (k : CString) :
    carried (transportInfo content cs) k = if k = content then cs.map Candidate.reread else [] := by
  unfold carried
  by_cases hk : k = content
  · subst hk
    rw [if_pos ⟨rfl, rfl⟩, if_pos rfl]
    show (decodeCandidates (k :: cs.flatMap Candidate.words)).getD [] = _
    rw [decodeCandidates_words]
    rfl
  · rw [if_neg fun h => hk (Option.some.inj h.2).symm, if_neg hk]

theorem inFlight_unsentMessages (s : PPSession) (k : CString) :
    inFlight s.unsentMessages k = (s.unsent k).map Candidate.reread := by
  -- the loop goes over every content once
  have hloop : ∀ ks : List CString, ks.Nodup →
      inFlight (ks.filterMap fun k => (s.transports[k]?).bind (unsentMessage k)) k =
        if k ∈ ks then (s.unsent k).map Candidate.reread else [] := by
    intro ks
    induction ks with
    | nil => simp
    | cons j ks ih =>
      intro hks
      rw [List.nodup_cons] at hks
      have hone : inFlight (((s.transports[j]?).bind (unsentMessage j)).toList) k =
          if k = j then (s.unsent k).map Candidate.reread else [] := by
        rcases hp : s.transports[j]? with _ | p
        · by_cases hk : k = j
          · simp [hk, unsent, hp]
          · simp [hk]
        · rw [Option.bind_some, unsentMessage]
          by_cases hunsent : p.unsent_candidates = []
          · by_cases hk : k = j
            · simp [hk, unsent, hp, hunsent]
            · simp [hk, hunsent]
          · rw [if_neg hunsent, Option.toList_some, inFlight_cons, carried_transportInfo, inFlight_nil, List.append_nil]
            by_cases hk : k = j
            · simp [hk, unsent, hp]
            · simp [hk]
      have hcons : (j :: ks).filterMap (fun k => (s.transports[k]?).bind (unsentMessage k)) =
          ((s.transports[j]?).bind (unsentMessage j)).toList ++
            ks.filterMap fun k => (s.transports[k]?).bind (unsentMessage k) := by
        rw [List.filterMap_cons]
        split
        · rename_i hm
          rw [hm]
          rfl
        · rename_i hm
          rw [hm]
          rfl
      rw [hcons, inFlight_append, ih hks.2, hone]
      by_cases hk : k = j
      · subst hk
        simp [hks.1]
      · simp [hk]
  rw [unsentMessages, hloop _ Std.ExtTreeMap.nodup_keys]
  by_cases hk : k ∈ s.transports.keys
  · rw [if_pos hk]
  · have hnone : s.transports[k]? = none := Std.ExtTreeMap.getElem?_eq_none (by simpa using hk)
    simp [unsent, hnone]

/-! ### The proxies of a session -/

/-- Every proxy is there still, with the same channels. -/
def Keeps (s t : PPSession) : Prop :=
  ∀ (k : CString) p, s.transports[k]? = some p → ∃ p', t.transports[k]? = some p' ∧ p.SameChannels p'

/-- From `s` to `t` the transports have handed on the candidates `taken`. Behind the candidates that wait to be sent
    come the ones that are `added`, and the first of them are `gone`. -/
structure Turns (s t : PPSession) (taken added gone : CString → List Candidate) : Prop where
  keeps : s.Keeps t
  sound : t.Sound
  handed : ∀ k, t.handed k = s.handed k ++ taken k
  unsent : ∀ k, s.unsent k ++ added k = gone k ++ t.unsent k

section turns
variable {s t : PPSession} {taken added gone : CString → List Candidate}

/-- Each proxy has been changed on its own. -/
theorem turns_of_map {g : CString → TransportProxy → TransportProxy}
    (hmap : ∀ k : CString, t.transports[k]? = (s.transports[k]?).map (g k))
    (hg : ∀ (k : CString) p, s.transports[k]? = some p → p.Turns (g k p) (taken k) (added k) (gone k))
    (hnone : ∀ k : CString, s.transports[k]? = none → taken k = [] ∧ added k = gone k) : s.Turns t taken added gone where
  keeps k p hp := ⟨g k p, by rw [hmap, hp, Option.map_some], (hg k p hp).same⟩
  sound k p' hp' := by
    rw [hmap] at hp'
    obtain ⟨p, hp, rfl⟩ := Option.map_eq_some_iff.mp hp'
    exact (hg k p hp).sound
  handed k := by
    rcases hp : s.transports[k]? with _ | p
    · simp [PPSession.handed, hmap, hp, (hnone k hp).1]
    · simp [PPSession.handed, hmap, hp, (hg k p hp).handed]
  unsent k := by
    rcases hp : s.transports[k]? with _ | p
    · simp [PPSession.unsent, hmap, hp, (hnone k hp).2]
    · simp [PPSession.unsent, hmap, hp, (hg k p hp).unsent]

theorem Sound.turns (h : s.Sound) (htransports : t.transports = s.transports) :
    s.Turns t (fun _ => []) (fun _ => []) fun _ => [] :=
  turns_of_map (g := fun _ p => p) (fun k => by rw [htransports, Option.map_id']) (fun k p hp => (h k p hp).turns)
    fun _ _ => ⟨rfl, rfl⟩

/-- A proxy that is new has nothing yet. -/
theorem Sound.turns_created (h : s.Sound) (k : CString) :
    s.Turns (s.GetOrCreateTransportProxy k) (fun _ => []) (fun _ => []) fun _ => [] := by
  have hnew : (TransportProxy.new k (.new s.allow_local_ips)).Sound :=
    ⟨fun _ name => by simp [TransportProxy.new, TransportProxy.GetChannel], (by cases ·), rfl⟩
  have hat : ∀ j : CString, (s.GetOrCreateTransportProxy k).transports[j]? =
      if j = k ∧ s.transports[k]? = none then some (.new k (.new s.allow_local_ips)) else s.transports[j]? := by
    intro j
    rw [transports_GetOrCreateTransportProxy, proxyOrNew]
    by_cases hj : j = k
    · subst hj
      cases s.transports[j]? <;> simp
    · simp [hj]
  refine ⟨fun j p hp => ⟨p, ?_, .refl p⟩, fun j p hp => ?_, fun j => ?_, fun j => ?_⟩
  · rw [hat, if_neg ?_, hp]
    rintro ⟨rfl, hnone⟩
    rw [hp] at hnone
    cases hnone
  · rw [hat] at hp
    split at hp
    · obtain rfl := Option.some.inj hp
      exact hnew
    · exact h j p hp
  · rw [PPSession.handed, hat]
    split
    · rename_i hj
      rw [PPSession.handed, hj.1, hj.2]
      rfl
    · exact (List.append_nil _).symm
  · rw [PPSession.unsent, PPSession.unsent, hat]
    split
    · rename_i hj
      rw [hj.1, hj.2]
      rfl
    · simp

theorem Turns.after {u : PPSession} (h : s.Turns u (fun _ => []) (fun _ => []) fun _ => []) (h' : u.Turns t taken added gone) :
    s.Turns t taken added gone where
  keeps k p hp := by
    obtain ⟨p', hp', hsame⟩ := h.keeps k p hp
    obtain ⟨p'', hp'', hsame'⟩ := h'.keeps k p' hp'
    exact ⟨p'', hp'', hsame.trans hsame'⟩
  sound := h'.sound
  handed k := by rw [h'.handed, h.handed, List.append_nil]
  unsent k := by
    have hunsent := h.unsent k
    rw [List.append_nil, List.nil_append] at hunsent
    rw [hunsent, h'.unsent]

end turns

/-! ### The functions of a session -/

/-- The message that `Initiate` emits. -/
def initiation (content : CString) : PPMessage := { type := .sessionInitiate, argvs := [content] }

/-- The message that `Accept` emits. -/
def acceptance (content : CString) : PPMessage := { type := .sessionAccept, argvs := [content] }

/-- From `s` to `t` the session has emitted the messages `ms` and reported none that it has received. Its transports
    have handed on the candidates `taken` and signalled the candidates `added`, and what it does not keep back of its
    own candidates is in the messages. -/
structure Moves (s t : PPSession) (ms : List PPMessage) (taken added : CString → List Candidate) : Prop where
  signals : ∃ es, t.signals = s.signals ++ es ∧ es.filterMap SessionEffect.message? = ms ∧ ∀ msg, .errorMessage msg ∉ es
  turns : ∃ gone, s.Turns t taken added gone ∧ ∀ k, inFlight ms k = (gone k).map Candidate.reread
  loads : ∀ msg ∈ ms, msg.type = .transportInfo →
    ∃ k cs, msg = transportInfo k cs ∧ cs ≠ [] ∧ ∀ cand ∈ cs, cand ∈ s.unsent k ++ added k

section moves
variable {s : PPSession}

theorem Moves.messages {t : PPSession} {ms : List PPMessage} {taken added : CString → List Candidate}
    (h : s.Moves t ms taken added) : t.messages = s.messages ++ ms := by
  obtain ⟨es, hes, hms, -⟩ := h.signals
  rw [messages_of_signals hes, hms]

theorem Sound.moves (h : s.Sound) : s.Moves s [] (fun _ => []) fun _ => [] :=
  ⟨⟨[], by simp, rfl, by simp⟩, ⟨_, h.turns rfl, fun _ => rfl⟩, by simp⟩

theorem loads_unsentMessages (s : PPSession) {added : CString → List Candidate} {msg : PPMessage} (h : msg ∈ s.unsentMessages) :
    ∃ k cs, msg = transportInfo k cs ∧ cs ≠ [] ∧ ∀ cand ∈ cs, cand ∈ s.unsent k ++ added k := by
  obtain ⟨k, -, h⟩ := List.mem_filterMap.mp h
  obtain ⟨p, hp, h⟩ := Option.bind_eq_some_iff.mp h
  unfold unsentMessage at h
  split at h
  · cases h
  · rename_i hunsent
    refine ⟨k, p.unsent_candidates, (Option.some.inj h).symm, hunsent, fun cand hcand => List.mem_append_left _ ?_⟩
    rwa [unsent, hp]

theorem moves_Initiate (h : s.Sound) (hstate : s.state = .init)
    (hproxies : ∀ (k : CString) p, s.transports[k]? = some p → p.state = .init) (content : CString) :
    s.Moves (s.Initiate id content).1 [initiation content] (fun _ => []) fun _ => [] := by
  obtain ⟨-, -, -, -, hsignals, htransports⟩ := s.Initiate_init hstate content
  have hcreated := h.turns_created content
  refine ⟨⟨_, hsignals, rfl, by simp⟩, ⟨_, hcreated.after (turns_of_map
    (g := fun _ p => p.SpeculativelyConnectChannels.1) (fun k => ?_) (fun k p hp => ?_) fun _ _ => ⟨rfl, rfl⟩),
    fun _ => rfl⟩, by simp [initiation]⟩
  · rw [htransports, transports_GetOrCreateTransportProxy]
  · refine TransportProxy.turns_SpeculativelyConnectChannels (hcreated.sound k p hp) ?_
    have hinit : p.state = .init := by
      rw [transports_GetOrCreateTransportProxy, proxyOrNew] at hp
      split at hp
      · rcases hq : s.transports[content]? with _ | q
        · rw [hq] at hp
          obtain rfl := Option.some.inj hp
          rfl
        · rw [hq] at hp
          obtain rfl := Option.some.inj hp
          exact hproxies content q hq
      · exact hproxies k p hp
    rw [hinit]
    decide

theorem moves_Accept (h : s.Sound) (hstate : s.state = .receivedInitiate) :
    s.Moves (s.Accept id).1 (acceptance s.content_name :: s.unsentMessages) (fun _ => [])
      fun _ => [] := by
  obtain ⟨-, -, -, -, hsignals, htransports⟩ := s.Accept_receivedInitiate hstate
  rw [List.append_assoc] at hsignals
  refine ⟨⟨_, hsignals, ?_, by simp⟩, ⟨s.unsent, turns_of_map htransports (fun k p hp => ?_) (fun k hp => ⟨rfl, ?_⟩), fun k => ?_⟩,
    fun msg hmsg htype => ?_⟩
  · rw [List.filterMap_append, filterMap_message?_outgoing]
    rfl
  · rw [unsent, hp]
    exact TransportProxy.turns_ClearUnsentCandidates (h k p hp)
  · rw [unsent, hp]
    rfl
  · rw [inFlight_cons, inFlight_unsentMessages]
    rfl
  · rcases List.mem_cons.mp hmsg with rfl | hmsg
    · cases htype
    · exact s.loads_unsentMessages hmsg

theorem moves_OnInitiateMessage (h : s.Sound) (hstate : s.state = .init) (content : CString) :
    s.Moves (s.OnInitiateMessage id (initiation content)).1 [] (fun _ => []) fun _ => [] := by
  obtain ⟨-, -, -, -, -, hsignals, htransports⟩ :=
    @OnInitiateMessage_init _ s hstate (initiation content) content [] rfl
  have hcreated := h.turns_created content
  refine ⟨⟨_, hsignals, rfl, by simp⟩, ⟨_, hcreated.after (turns_of_map
    (g := fun k p => if k = content then takeCandidates p [] else p) (fun k => ?_) (fun k p hp => ?_) fun _ _ => ⟨rfl, rfl⟩),
    fun _ => rfl⟩, by simp⟩
  · rw [htransports, transports_GetOrCreateTransportProxy]
    split <;> simp
  · have hsound := hcreated.sound k p hp
    split
    · exact TransportProxy.turns_takeCandidates hsound (by simp)
    · exact hsound.turns

/-- An accept sends all that has been kept back. -/
theorem turns_OnAcceptMessage (h : s.Sound) (hstate : s.state = .sentInitiate) (content : CString) :
    s.Turns (s.OnAcceptMessage id (acceptance content)).1 (fun _ => []) (fun _ => []) s.unsent := by
  obtain ⟨-, -, -, -, -, -, htransports⟩ :=
    @OnAcceptMessage_sentInitiate _ s hstate (acceptance content) content [] rfl
  refine turns_of_map htransports (fun k p hp => ?_) fun k hp => ⟨rfl, ?_⟩
  · have hcleared := TransportProxy.turns_ClearUnsentCandidates (h k p hp)
    rw [unsent, hp]
    split
    · have htaken := @TransportProxy.turns_takeCandidates _ _ hcleared.sound [] (by simp)
      refine ⟨hcleared.same.trans htaken.same, htaken.sound, htaken.handed.trans ?_, ?_⟩
      · rw [hcleared.handed, List.append_nil]
      · exact hcleared.unsent.trans (congrArg _ ((List.append_nil _).symm.trans htaken.unsent))
    · exact hcleared
  · rw [unsent, hp]
    rfl

theorem moves_OnAcceptMessage (h : s.Sound) (hstate : s.state = .sentInitiate) (content : CString) :
    s.Moves (s.OnAcceptMessage id (acceptance content)).1 s.unsentMessages (fun _ => [])
      fun _ => [] := by
  obtain ⟨-, -, -, -, -, hsignals, -⟩ :=
    @OnAcceptMessage_sentInitiate _ s hstate (acceptance content) content [] rfl
  rw [List.append_assoc] at hsignals
  refine ⟨⟨_, hsignals, ?_, by simp⟩, ⟨s.unsent, turns_OnAcceptMessage h hstate content, s.inFlight_unsentMessages⟩,
    fun msg hmsg _ => s.loads_unsentMessages hmsg⟩
  rw [List.filterMap_append, filterMap_message?_outgoing]
  exact List.append_nil _

/-- The session has the channel of a candidate, and it takes its address when the candidate is read back from its
    words. -/
def Takes (s : PPSession) (k : CString) (cand : Candidate) : Prop := ∃ p, s.transports[k]? = some p ∧ p.Takes cand.reread

theorem Takes.of_keeps {t : PPSession} {k : CString} {cand : Candidate} (h : s.Takes k cand) (hkeeps : s.Keeps t) :
    t.Takes k cand := by
  obtain ⟨p, hp, htakes⟩ := h
  obtain ⟨p', hp', hsame⟩ := hkeeps k p hp
  exact ⟨p', hp', htakes.of_same hsame⟩

/-- A transport message whose candidates the session takes. -/
theorem moves_OnTransportInfoMessage (h : s.Sound) {content : CString} {cs : List Candidate} (hne : cs ≠ [])
    (hcs : ∀ cand ∈ cs, s.Takes content cand) :
    (s.OnTransportInfoMessage (transportInfo content cs)).2 = true ∧
      s.SameBut (s.OnTransportInfoMessage (transportInfo content cs)).1 ∧
      s.Moves (s.OnTransportInfoMessage (transportInfo content cs)).1 []
        (inFlight [transportInfo content cs]) fun _ => [] := by
  obtain ⟨first, hfirst⟩ := List.exists_mem_of_ne_nil cs hne
  obtain ⟨p, hp, -⟩ := hcs first hfirst
  have htakes : ∀ cand ∈ cs.map Candidate.reread, p.Takes cand := by
    rw [List.forall_mem_map]
    intro cand hcand
    obtain ⟨q, hq, htakes⟩ := hcs cand hcand
    obtain rfl := Option.some.inj (hp.symm.trans hq)
    exact htakes
  obtain ⟨hsame, hvalid, htransports⟩ := @OnTransportInfoMessage_spec _ s (transportInfo content cs) content _ rfl _
    (decodeCandidates_words content cs)
  have hflight : ∀ k, inFlight [transportInfo content cs] k = if k = content then cs.map Candidate.reread else [] := fun k => by
    rw [inFlight_cons, carried_transportInfo, inFlight_nil, List.append_nil]
  refine ⟨?_, hsame, ⟨[], by rw [hsame.signals, List.append_nil], rfl, by simp⟩,
    ⟨fun _ => [], turns_of_map htransports (fun k q hq => ?_) (fun k hq => ⟨?_, rfl⟩), fun _ => rfl⟩, by simp⟩
  · rw [hvalid, hp]
    exact TransportProxy.acceptable_CompleteNegotiation (h content p hp) htakes
  · rw [hflight]
    split
    · subst k
      obtain rfl := Option.some.inj (hp.symm.trans hq)
      exact TransportProxy.turns_takeCandidates (h content p hp) htakes
    · exact (h k q hq).turns
  · rw [hflight, if_neg]
    rintro rfl
    rw [hp] at hq
    cases hq

/-- Candidates that the transport of a content has signalled. -/
def added (content : CString) (candidates : List Candidate) (k : CString) : List Candidate :=
  if k = content then candidates else []

/-- While `pending_candidates` is set the session keeps the candidates back. -/
theorem moves_of_pending (h : s.Sound) (hpending : s.pending_candidates = true) {content : CString} {p : TransportProxy}
    (hp : s.transports[content]? = some p) (candidates : List Candidate) :
    s.Moves (s.OnTransportCandidatesReady content candidates) [] (fun _ => []) (added content candidates) ∧
      s.SameBut (s.OnTransportCandidatesReady content candidates) := by
  rw [s.OnTransportCandidatesReady_of_some hp, if_pos hpending]
  have hsame := s.sameBut_onProxy content (f := fun p => (p.AddUnsentCandidates candidates, [])) fun _ => quiet_nil
  have hmap : ∀ k : CString,
      (s.onProxy content fun p => (p.AddUnsentCandidates candidates, [])).transports[k]? =
        (s.transports[k]?).map fun p => if k = content then p.AddUnsentCandidates candidates else p := by
    intro k
    rw [transports_onProxy]
    by_cases hk : k = content
    · simp [hk]
    · simp [hk]
  refine ⟨⟨⟨[], by rw [hsame.signals, List.append_nil], rfl, by simp⟩,
    ⟨fun _ => [], turns_of_map hmap (fun k q hq => ?_) (fun k hk => ⟨rfl, ?_⟩), fun _ => rfl⟩, by simp⟩, hsame⟩
  · rw [added]
    split
    · exact TransportProxy.turns_AddUnsentCandidates (h k q hq) candidates
    · exact (h k q hq).turns
  · rw [added, if_neg]
    rintro rfl
    rw [hp] at hk
    cases hk

/-- Afterwards it sends them at once. -/
theorem moves_of_not_pending (h : s.Sound) (hpending : s.pending_candidates = false) {content : CString} {p : TransportProxy}
    (hp : s.transports[content]? = some p) {candidates : List Candidate} (hunsent : s.unsent content = [])
    (hne : candidates ≠ []) :
    s.Moves (s.OnTransportCandidatesReady content candidates) [transportInfo content candidates] (fun _ => [])
        (added content candidates) := by
  rw [s.OnTransportCandidatesReady_of_some hp, hpending, if_neg (by decide)]
  refine ⟨⟨_, s.signals_emit rfl, rfl, by simp⟩, ⟨added content candidates, ⟨fun k q hq => ⟨q, hq, .refl q⟩, h,
    fun _ => (List.append_nil _).symm, fun k => ?_⟩, fun k => ?_⟩, ?_⟩
  · rw [added]
    split
    · subst k
      show s.unsent content ++ candidates = candidates ++ s.unsent content
      rw [hunsent, List.append_nil, List.nil_append]
    · exact List.append_nil _
  · rw [inFlight_cons, carried_transportInfo, inFlight_nil, List.append_nil, added]
    split <;> rfl
  · rintro msg hmsg -
    obtain rfl := List.mem_singleton.mp hmsg
    exact ⟨content, candidates, rfl, hne, fun cand hcand => List.mem_append_right _ (by rwa [added, if_pos rfl])⟩

/-- A `MSG_STATE` changes at most the state. -/
theorem moves_OnStateMessage (h : s.Sound) : s.Moves (s.OnStateMessage id) [] (fun _ => []) fun _ => [] := by
  have hset : ∀ state, state ≠ s.state → s.Moves (s.SetState id state) [] (fun _ => []) fun _ => [] := fun state hne =>
    ⟨⟨_, s.signals_SetState hne, rfl, by simp [stateSignals]⟩, ⟨_, h.turns (s.SetState_frame state).2.1, fun _ => rfl⟩, by simp⟩
  unfold OnStateMessage
  split
  · rename_i hstate
    exact hset .inProgress (by simp [hstate])
  · rename_i hstate
    exact hset .inProgress (by simp [hstate])
  · exact h.moves

end moves

end PPSession

end ProbICE
