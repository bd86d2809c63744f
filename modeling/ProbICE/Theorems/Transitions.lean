import ProbICE.Lib.Journal
import ProbICE.SessionRun
import ProbICE.Theorems.Sessions

/-! # The states that a session goes through

Every change of the state is signalled, so the effects of a session tell its way. A change is looked at when it
is written: which effects stand before it, and which name the session has. What the listeners do in the middle
of a handler is more of the same, so nothing has to be known about it. -/

namespace ProbICE

/-- The changes of the state that a session makes. -/
inductive Edge : SessionState → SessionState → Prop where
  | initiate : Edge .init .sentInitiate
  | receiveInitiate : Edge .init .receivedInitiate
  | receiveAccept : Edge .sentInitiate .receivedAccept
  | receiveReject : Edge .sentInitiate .receivedReject
  | accept : Edge .receivedInitiate .sentAccept
  | reject : Edge .receivedInitiate .sentReject
  | progress {state : SessionState} (h : state = .sentAccept ∨ state = .receivedAccept) : Edge state .inProgress
  | terminate {state : SessionState} (h : state ≠ .sentTerminate) (h' : state ≠ .receivedTerminate) :
    Edge state .sentTerminate
  | receiveTerminate {state : SessionState} : Edge state .receivedTerminate

theorem Edge.ne_init {state state' : SessionState} (h : Edge state state') : state' ≠ .init := by
  cases h <;> simp

theorem Edge.ne_receivedModify {state state' : SessionState} (h : Edge state state') : state' ≠ .receivedModify := by
  cases h <;> simp

/-! ### The way that a list of effects tells -/

namespace SessionEffect

/-- The effect is a change of the state. -/
def isChange : SessionEffect → Bool
  | stateChanged _ _ => true
  | _ => false

/-- The state behind an effect. -/
def after (state : SessionState) : SessionEffect → SessionState
  | stateChanged state' _ => state'
  | _ => state

theorem after_of_not_isChange {e : SessionEffect} (h : e.isChange = false) (state : SessionState) :
    e.after state = state := by
  cases e with
  | stateChanged _ _ => cases h
  | _ => rfl

end SessionEffect

/-- The state behind the effects of a session. -/
def stateAfter (log : List SessionEffect) : SessionState := log.foldl SessionEffect.after .init

theorem stateAfter_append_of_not_isChange (log : List SessionEffect) {es : List SessionEffect}
    (h : ∀ e ∈ es, e.isChange = false) : stateAfter (log ++ es) = stateAfter log := by
  induction es using List.reverseRecOn with
  | nil => rw [List.append_nil]
  | append_singleton es e ih =>
    rw [← List.append_assoc, stateAfter, List.foldl_append, List.foldl_cons, List.foldl_nil,
      SessionEffect.after_of_not_isChange (h e (by simp))]
    exact ih fun x hx => h x (List.mem_append_left _ hx)

@[simp] theorem stateAfter_change (log : List SessionEffect) (state : SessionState) (name : CString) :
    stateAfter (log ++ [.stateChanged state name]) = state := by
  simp [stateAfter, SessionEffect.after]

/-- An accept message has been emitted. -/
def AcceptSent (log : List SessionEffect) : Prop := ∃ msg, .outgoingMessage msg ∈ log ∧ msg.type = .sessionAccept

/-- A change that a session may make: it follows an edge, the session has had the same name at every change, an
    accept message has been emitted before `sentAccept`, and `receivedAccept` needs an accept to be `heard`. -/
def Allowed (heard : Prop) (before : List SessionEffect) : SessionEffect → Prop
  | .stateChanged state name =>
    Edge (stateAfter before) state ∧ (∀ state' name', .stateChanged state' name' ∈ before → name' = name) ∧
      (state = .sentAccept → AcceptSent before) ∧ (state = .receivedAccept → heard)
  | _ => True

theorem allowed_of_not_isChange {heard : Prop} {e : SessionEffect} (h : e.isChange = false) (before : List SessionEffect) :
    Allowed heard before e := by
  cases e with
  | stateChanged _ _ => cases h
  | _ => trivial

section way
variable {heard : Prop} {log : List SessionEffect}

/-- The way of a session: each state is the first one or one that it has changed to. -/
theorem stateAfter_cases (log : List SessionEffect) :
    (stateAfter log = .init ∧ ∀ e ∈ log, e.isChange = false) ∨ ∃ name, .stateChanged (stateAfter log) name ∈ log := by
  induction log using List.reverseRecOn with
  | nil => exact .inl ⟨rfl, by simp⟩
  | append_singleton log e ih =>
    by_cases h : e.isChange = true
    · cases e with
      | stateChanged state name => exact .inr ⟨name, by simp⟩
      | _ => cases h
    · have hsame : stateAfter (log ++ [e]) = stateAfter log := stateAfter_append_of_not_isChange log (by simpa using h)
      rw [hsame]
      rcases ih with ⟨hinit, hall⟩ | ⟨name, hname⟩
      · refine .inl ⟨hinit, fun x hx => ?_⟩
        rcases List.mem_append.mp hx with hx | hx
        · exact hall x hx
        · obtain rfl := List.mem_singleton.mp hx
          simpa using h
      · exact .inr ⟨name, List.mem_append_left _ hname⟩

theorem edge_of_mem (h : Journal.Valid (Allowed heard) log) {state : SessionState} {name : CString}
    (hmem : .stateChanged state name ∈ log) : ∃ state', Edge state' state := by
  obtain ⟨before, after, rfl⟩ := List.append_of_mem hmem
  exact ⟨_, (h before _ after rfl).1⟩

/-- A session that has changed its state has left `init` for good. -/
theorem no_change_of_init (h : Journal.Valid (Allowed heard) log) (hinit : stateAfter log = .init) :
    ∀ e ∈ log, e.isChange = false := by
  rcases stateAfter_cases log with ⟨-, hall⟩ | ⟨name, hname⟩
  · exact hall
  · rw [hinit] at hname
    obtain ⟨state, hedge⟩ := edge_of_mem h hname
    exact absurd rfl hedge.ne_init

theorem stateAfter_ne_receivedModify (h : Journal.Valid (Allowed heard) log) : stateAfter log ≠ .receivedModify := by
  rcases stateAfter_cases log with ⟨hinit, -⟩ | ⟨name, hname⟩
  · simp [hinit]
  · obtain ⟨state, hedge⟩ := edge_of_mem h hname
    exact hedge.ne_receivedModify

/-- Before `inProgress` an accept has been sent or heard. -/
theorem accept_of_inProgress {before after : List SessionEffect} {name : CString}
    (h : Journal.Valid (Allowed heard) (before ++ .stateChanged .inProgress name :: after)) : AcceptSent before ∨ heard := by
  have hbefore : Journal.Valid (Allowed heard) before := h.of_prefix (List.prefix_append _ _)
  have hlast : stateAfter before = .sentAccept ∨ stateAfter before = .receivedAccept := by
    obtain ⟨hedge, -⟩ := h before _ after rfl
    generalize stateAfter before = state at hedge
    cases hedge with
    | progress hlast => exact hlast
  obtain ⟨name', hmem⟩ : ∃ name', .stateChanged (stateAfter before) name' ∈ before := by
    rcases stateAfter_cases before with ⟨hinit, -⟩ | hmem
    · simp [hinit] at hlast
    · exact hmem
  obtain ⟨before', after', hsplit⟩ := List.append_of_mem hmem
  obtain ⟨-, -, hsent, hheard⟩ := hbefore before' _ after' hsplit
  rcases hlast with hlast | hlast
  · obtain ⟨msg, hmsg, htype⟩ := hsent hlast
    exact .inl ⟨msg, hsplit ▸ List.mem_append_left _ hmsg, htype⟩
  · exact .inr (hheard hlast)

end way

section
variable [Host]

namespace PPSession

/-- The effects of a session tell its way truly. -/
structure Tracked (heard : Prop) (s : PPSession) : Prop where
  log : Journal.Valid (Allowed heard) s.out
  state : s.state = stateAfter s.out
  name : ∀ state name, .stateChanged state name ∈ s.out → name = s.content_name

/-- From `s` to `t` the effects go on telling the way. -/
structure Tracks (heard : Prop) (s t : PPSession) : Prop where
  grows : s.out <+: t.out
  tracked : s.Tracked heard → t.Tracked heard

/-- From `s` to `t` neither the state nor the name has changed. -/
structure Unmoved (s t : PPSession) : Prop where
  state : t.state = s.state
  content_name : t.content_name = s.content_name
  out : ∃ es, t.out = s.out ++ es ∧ ∀ e ∈ es, e.isChange = false

section relations
variable {heard : Prop} {s t u : PPSession}

theorem Tracks.refl (heard : Prop) (s : PPSession) : s.Tracks heard s := ⟨List.prefix_rfl, id⟩

theorem Tracks.trans (h : s.Tracks heard t) (h' : t.Tracks heard u) : s.Tracks heard u :=
  ⟨h.grows.trans h'.grows, h'.tracked ∘ h.tracked⟩

theorem Unmoved.refl (s : PPSession) : s.Unmoved s := ⟨rfl, rfl, [], by simp, by simp⟩

theorem Unmoved.trans (h : s.Unmoved t) (h' : t.Unmoved u) : s.Unmoved u where
  state := h'.state.trans h.state
  content_name := h'.content_name.trans h.content_name
  out := Journal.grown_trans h.out h'.out

theorem Unmoved.grows (h : s.Unmoved t) : s.out <+: t.out := by
  obtain ⟨es, hes, -⟩ := h.out
  exact ⟨es, hes.symm⟩

theorem Unmoved.tracks (h : s.Unmoved t) : s.Tracks heard t := by
  obtain ⟨es, hes, hall⟩ := h.out
  refine ⟨⟨es, hes.symm⟩, fun hs => ⟨?_, ?_, fun state name hmem => ?_⟩⟩
  · rw [hes]
    exact hs.log.append fun e he before _ => allowed_of_not_isChange (hall e he) before
  · rw [h.state, hs.state, hes, stateAfter_append_of_not_isChange _ hall]
  · rw [h.content_name]
    rw [hes] at hmem
    rcases List.mem_append.mp hmem with hmem | hmem
    · exact hs.name state name hmem
    · simpa [SessionEffect.isChange] using hall _ hmem

end relations

/-! ### Functions that change neither the state nor the name -/

section unmoved
variable (s : PPSession)

theorem unmoved_emit {e : SessionEffect} (h : e.isChange = false) : s.Unmoved (s.emit e) :=
  ⟨rfl, rfl, [e], rfl, by simpa using h⟩

theorem unmoved_onProxy (k : CString) (f : TransportProxy → TransportProxy × List TransportEffect) :
    s.Unmoved (s.onProxy k f) := by
  unfold onProxy
  split
  · exact .refl s
  · rename_i p hp
    refine ⟨rfl, rfl, _, rfl, fun e he => ?_⟩
    obtain ⟨e', -, rfl⟩ := List.mem_map.mp he
    cases e' <;> rfl

theorem unmoved_foldl {α : Type} {f : PPSession → α → PPSession} (hf : ∀ (s : PPSession) x, s.Unmoved (f s x))
    (xs : List α) : s.Unmoved (xs.foldl f s) := by
  induction xs generalizing s with
  | nil => exact .refl s
  | cons x xs ih => exact (hf s x).trans (ih (f s x))

theorem unmoved_GetOrCreateTransportProxy (k : CString) : s.Unmoved (s.GetOrCreateTransportProxy k) := by
  unfold GetOrCreateTransportProxy
  split
  · exact .refl s
  · exact ⟨rfl, rfl, [], by simp, by simp⟩

theorem unmoved_CreateChannel (k name : CString) : s.Unmoved (s.CreateChannel k name) :=
  (s.unmoved_GetOrCreateTransportProxy k).trans (unmoved_onProxy _ k _)

theorem unmoved_OnSignalingReady : s.Unmoved s.OnSignalingReady := ⟨rfl, rfl, [], by simp [OnSignalingReady], by simp⟩

theorem unmoved_SpeculativelyConnectAll : s.Unmoved s.SpeculativelyConnectAllTransportChannels :=
  s.unmoved_foldl (fun s k => s.unmoved_onProxy k _) _

theorem unmoved_CreateTransportProxies (p2pInfo : P2PInfo) : s.Unmoved (s.CreateTransportProxies p2pInfo) := by
  have hpending : s.Unmoved { s with pending_candidates := true } := ⟨rfl, rfl, [], by simp, by simp⟩
  exact hpending.trans (unmoved_GetOrCreateTransportProxy _ p2pInfo.content_name)

theorem unmoved_OnRemoteCandidates (p2pInfo : P2PInfo) : s.Unmoved (s.OnRemoteCandidates p2pInfo).1 := by
  have hnegotiation := s.unmoved_onProxy p2pInfo.content_name TransportProxy.CompleteNegotiation
  unfold OnRemoteCandidates
  split
  · exact .refl s
  · simp only
    split
    · exact hnegotiation
    · split
      · exact hnegotiation.trans (unmoved_onProxy _ _ _)
      · exact hnegotiation

theorem unmoved_SendUnsent (k : CString) : s.Unmoved (s.SendUnsent k) := by
  unfold SendUnsent
  split
  · exact .refl s
  · split
    · exact (s.unmoved_emit rfl).trans (unmoved_onProxy _ k _)
    · exact .refl s

theorem unmoved_SendAllUnsent : s.Unmoved s.SendAllUnsentTransportInfoMessages := by
  have hpending : s.Unmoved { s with pending_candidates := false } := ⟨rfl, rfl, [], by simp, by simp⟩
  exact hpending.trans (unmoved_foldl _ unmoved_SendUnsent _)

theorem unmoved_OnTransportCandidatesReady (k : CString) (candidates : List Candidate) :
    s.Unmoved (s.OnTransportCandidatesReady k candidates) := by
  unfold OnTransportCandidatesReady
  split
  · exact .refl s
  · split
    · exact s.unmoved_onProxy k _
    · exact s.unmoved_emit rfl

theorem unmoved_OnTransportWritable (k : CString) : s.Unmoved (s.OnTransportWritable k) := by
  unfold OnTransportWritable
  split
  · exact .refl s
  · simp only
    split
    · exact (s.unmoved_emit rfl).trans (unmoved_emit _ rfl)
    · exact s.unmoved_emit rfl

theorem unmoved_OnTransportMessage (k : CString) (task : TransportTask) : s.Unmoved (s.OnTransportMessage k task) := by
  unfold OnTransportMessage
  split
  · exact .refl s
  · exact s.unmoved_OnTransportWritable k
  · have hproxy := s.unmoved_onProxy k fun p =>
      ({ p with transport := p.transport.OnChannelCandidateReady_s.1 }, p.transport.OnChannelCandidateReady_s.2.1)
    simp only
    split
    · exact hproxy
    · exact hproxy.trans (unmoved_OnTransportCandidatesReady _ k _)
  · have hproxy := s.unmoved_onProxy k fun p => ({ p with transport := p.transport.OnChannelWritableState_s.1 }, [])
    simp only
    split
    · exact hproxy.trans (unmoved_OnTransportWritable _ k)
    · exact hproxy
  · exact s.unmoved_emit rfl

theorem unmoved_withContent (msg : PPMessage) {rest : CString → PPSession × Bool}
    (hrest : ∀ content, s.Unmoved (rest content).1) : s.Unmoved (s.withContent msg rest).1 := by
  unfold withContent
  split
  · exact hrest _
  · exact s.unmoved_emit rfl

theorem unmoved_OnInfoMessage (msg : PPMessage) : s.Unmoved (s.OnInfoMessage msg).1 :=
  s.unmoved_withContent msg fun _ => s.unmoved_emit rfl

theorem unmoved_OnTransportInfoMessage (msg : PPMessage) : s.Unmoved (s.OnTransportInfoMessage msg).1 := by
  refine s.unmoved_withContent msg fun content => ?_
  split
  · exact s.unmoved_emit rfl
  · exact (s.unmoved_foldl (fun s _ => s.unmoved_emit rfl) _).trans (unmoved_OnRemoteCandidates _ _)

end unmoved

/-! ### Changes of the state -/

theorem tracks_withContent {heard : Prop} (s : PPSession) (msg : PPMessage) {rest : CString → PPSession × Bool}
    (hrest : ∀ content, s.Tracks heard (rest content).1) : s.Tracks heard (s.withContent msg rest).1 := by
  unfold withContent
  split
  · exact hrest _
  · exact (s.unmoved_emit rfl).tracks

/-- A session in `init` may take a name, since no change has told one yet. -/
theorem tracks_name {heard : Prop} {s t : PPSession} (h : s.state = .init) (hstate : t.state = s.state)
    (hout : t.out = s.out) : s.Tracks heard t := by
  refine ⟨hout ▸ List.prefix_rfl, fun hs => ⟨hout ▸ hs.log, hstate.trans (hout ▸ hs.state), fun state name hmem => ?_⟩⟩
  have hnone := no_change_of_init hs.log (hs.state.symm.trans h) _ (hout ▸ hmem)
  simp [SessionEffect.isChange] at hnone

section tracks
variable {heard : Prop} {L : PPSession → PPSession} (hL : ∀ u, Tracks heard u (L u))
include hL

/-- A change along an edge. Its listeners see a session that is tracked too. -/
theorem tracks_SetState (s : PPSession) {state : SessionState}
    (hedge : s.Tracked heard → state ≠ s.state → Edge s.state state) (hsent : state = .sentAccept → AcceptSent s.out)
    (hheard : state = .receivedAccept → heard) : s.Tracks heard (s.SetState L state) := by
  unfold SetState
  split
  · exact .refl heard s
  · rename_i hne
    refine Tracks.trans (t := { s with state }.emit (.stateChanged state s.content_name)) ⟨⟨_, rfl⟩, fun hs => ?_⟩
      ((hL _).trans (unmoved_emit _ rfl).tracks)
    have hstate : stateAfter s.out = s.state := hs.state.symm
    refine ⟨Journal.valid_concat_iff.mpr ⟨hs.log, hstate ▸ hedge hs hne, hs.name, hsent, hheard⟩, ?_, ?_⟩
    · exact (stateAfter_change s.out state s.content_name).symm
    · intro state' name hmem
      rcases List.mem_append.mp hmem with hmem | hmem
      · exact hs.name state' name hmem
      · cases List.mem_singleton.mp hmem
        rfl

theorem tracks_Initiate (s : PPSession) (content : CString) : s.Tracks heard (s.Initiate L content).1 := by
  unfold Initiate
  by_cases h : s.state = .init
  · rw [if_neg (by simpa using h)]
    have hname : s.Tracks heard { s with content_name := content, local_description := true } := tracks_name h rfl rfl
    have hproxies := unmoved_CreateTransportProxies { s with content_name := content, local_description := true }
      { content_name := content, candidates := [] }
    have hemit := hproxies.trans (unmoved_emit _ (e := .outgoingMessage { type := .sessionInitiate, argvs := [content] }) rfl)
    refine (hname.trans hemit.tracks).trans ((tracks_SetState hL _ ?_ (by simp) (by simp)).trans
      (unmoved_SpeculativelyConnectAll _).tracks)
    intro _ _
    rw [hemit.state]
    exact h ▸ Edge.initiate
  · rw [if_pos (by simpa using h)]
    exact .refl heard s

theorem tracks_Accept (s : PPSession) : s.Tracks heard (s.Accept L).1 := by
  unfold Accept
  by_cases h : s.state = .receivedInitiate
  · rw [if_neg (by simpa using h)]
    have hlocal : s.Unmoved { s with local_description := true } := ⟨rfl, rfl, [], by simp, by simp⟩
    have hemit := hlocal.trans
      (unmoved_emit _ (e := .outgoingMessage { type := .sessionAccept, argvs := [s.content_name] }) rfl)
    refine hemit.tracks.trans ((tracks_SetState hL _ ?_ ?_ (by simp)).trans (unmoved_SendAllUnsent _).tracks)
    · intro _ _
      rw [hemit.state]
      exact h ▸ Edge.accept
    · intro _
      exact ⟨{ type := .sessionAccept, argvs := [s.content_name] }, by simp [emit], rfl⟩
  · rw [if_pos (by simpa using h)]
    exact .refl heard s

theorem tracks_Reject (s : PPSession) : s.Tracks heard (s.Reject L).1 := by
  unfold Reject
  split
  · exact .refl heard s
  · rename_i h
    refine (unmoved_emit s rfl).tracks.trans (tracks_SetState hL _ ?_ (by simp) (by simp))
    intro hs _
    have hmodify : s.state ≠ .receivedModify := fun hm => stateAfter_ne_receivedModify hs.log (hs.state.symm.trans hm)
    have hinitiate : s.state = .receivedInitiate := by
      by_contra hne
      exact h ⟨hne, hmodify⟩
    exact (show s.state = .receivedInitiate from hinitiate) ▸ Edge.reject

theorem tracks_TerminateWithReason (s : PPSession) : s.Tracks heard (s.TerminateWithReason L).1 := by
  unfold TerminateWithReason
  split
  · exact .refl heard s
  · exact .refl heard s
  · rename_i h
    exact tracks_SetState hL s (fun _ _ => .terminate (by simp [h]) (by simp [h])) (by simp) (by simp)
  · rename_i h
    exact tracks_SetState hL s (fun _ _ => .terminate (by simp [h]) (by simp [h])) (by simp) (by simp)
  · rename_i h h' _ _
    exact (unmoved_emit s rfl).tracks.trans
      (tracks_SetState hL _ (fun _ _ => .terminate h h') (by simp) (by simp))

theorem tracks_callLocal (s : PPSession) (c : LocalCall) : s.Tracks heard (s.callLocal L c) := by
  cases c with
  | initiate content => exact tracks_Initiate hL s content
  | accept => exact tracks_Accept hL s
  | reject => exact tracks_Reject hL s
  | terminate => exact tracks_TerminateWithReason hL s

theorem tracks_OnInitiateMessage (s : PPSession) (msg : PPMessage) : s.Tracks heard (s.OnInitiateMessage L msg).1 := by
  by_cases h : s.state = .init
  · rw [s.OnInitiateMessage_eq L h]
    refine tracks_withContent s msg fun content => ?_
    have hname : s.Tracks heard { s with content_name := content, remote_description := true } := tracks_name h rfl rfl
    have hproxies := unmoved_CreateTransportProxies { s with content_name := content, remote_description := true }
      { content_name := content, candidates := [] }
    have hinit := hproxies.state.trans h
    have hstate := (hname.trans hproxies.tracks).trans
      (tracks_SetState hL _ (fun _ _ => hinit ▸ Edge.receiveInitiate) (by simp) (by simp))
    simp only
    split
    · exact hstate.trans (unmoved_OnRemoteCandidates _ _).tracks
    · exact hstate
  · rw [s.OnInitiateMessage_refused h]
    exact (s.unmoved_emit rfl).tracks

theorem tracks_OnAcceptMessage (s : PPSession) {msg : PPMessage} (hheard : heard) :
    s.Tracks heard (s.OnAcceptMessage L msg).1 := by
  by_cases h : s.state = .sentInitiate
  · rw [s.OnAcceptMessage_eq L h]
    refine tracks_withContent s msg fun content => ?_
    have hremote : s.Unmoved { s.SendAllUnsentTransportInfoMessages with remote_description := true } :=
      s.unmoved_SendAllUnsent.trans ⟨rfl, rfl, [], by simp, by simp⟩
    have hsent := hremote.state.trans h
    have hstate := hremote.tracks.trans
      (tracks_SetState hL _ (fun _ _ => hsent ▸ Edge.receiveAccept) (by simp) (fun _ => hheard))
    simp only
    split
    · exact hstate.trans (unmoved_OnRemoteCandidates _ _).tracks
    · exact hstate
  · rw [s.OnAcceptMessage_refused h]
    exact (s.unmoved_emit rfl).tracks

theorem tracks_OnRejectMessage (s : PPSession) (msg : PPMessage) : s.Tracks heard (s.OnRejectMessage L msg).1 := by
  by_cases h : s.state = .sentInitiate
  · rw [s.OnRejectMessage_eq L h]
    exact tracks_SetState hL s (fun _ _ => h ▸ Edge.receiveReject) (by simp) (by simp)
  · rw [s.OnRejectMessage_refused h]
    exact (s.unmoved_emit rfl).tracks

theorem tracks_OnTerminateMessage (s : PPSession) (msg : PPMessage) : s.Tracks heard (s.OnTerminateMessage L msg).1 := by
  refine tracks_withContent s msg fun reason => ?_
  exact (s.unmoved_emit rfl).tracks.trans (tracks_SetState hL _ (fun _ _ => .receiveTerminate) (by simp) (by simp))

theorem tracks_OnIncomingMessage (s : PPSession) {msg : PPMessage} (hheard : msg.type = .sessionAccept → heard) :
    s.Tracks heard (s.OnIncomingMessage L msg) := by
  refine report_keeps (P := s.Tracks heard) (fun _ ht => ht.trans (unmoved_emit _ rfl).tracks) _ ?_
  cases htype : msg.type with
  | sessionInitiate => exact tracks_OnInitiateMessage hL s msg
  | sessionInfo => exact (s.unmoved_OnInfoMessage msg).tracks
  | sessionAccept => exact tracks_OnAcceptMessage hL s (hheard htype)
  | sessionReject => exact tracks_OnRejectMessage hL s msg
  | sessionTerminate => exact tracks_OnTerminateMessage hL s msg
  | transportInfo => exact (s.unmoved_OnTransportInfoMessage msg).tracks
  | other => exact .refl heard s

theorem tracks_OnStateMessage (s : PPSession) : s.Tracks heard (s.OnStateMessage L) := by
  unfold OnStateMessage
  split
  · rename_i h
    exact tracks_SetState hL s (fun _ _ => .progress (.inl h)) (by simp) (by simp)
  · rename_i h
    exact tracks_SetState hL s (fun _ _ => .progress (.inr h)) (by simp) (by simp)
  · exact .refl heard s

end tracks

/-- Local calls go on telling the way, whatever their listeners call in turn. -/
theorem Calls.tracks (heard : Prop) {s t : PPSession} (h : Calls s t) : s.Tracks heard t := by
  induction h with
  | nil s => exact .refl heard s
  | call _ _ c ih ihL => exact ih.trans (tracks_callLocal ihL _ c)

theorem Listener.tracks (heard : Prop) {L : PPSession → PPSession} (hL : Listener L) (u : PPSession) :
    u.Tracks heard (L u) := (hL u).tracks heard

/-! ### Runs -/

/-- An accept message is among the events. -/
def AcceptReceived (es : List SessionEvent) : Prop := ∃ L msg, SessionEvent.incoming L msg ∈ es ∧ msg.type = .sessionAccept

theorem tracks_handle {heard : Prop} (s : PPSession) {e : SessionEvent} (he : e.Proper)
    (hheard : AcceptReceived [e] → heard) : s.Tracks heard (s.handle e) := by
  cases e with
  | call L c => exact tracks_callLocal (Listener.tracks heard he) s c
  | incoming L msg =>
    exact tracks_OnIncomingMessage (Listener.tracks heard he.1) s fun htype => hheard ⟨L, msg, List.mem_singleton_self _, htype⟩
  | state L => exact tracks_OnStateMessage (Listener.tracks heard he) s
  | timeout => exact Unmoved.tracks ⟨rfl, rfl, [.timeout], rfl, by simp [SessionEffect.isChange]⟩
  | transport k task => exact (s.unmoved_OnTransportMessage k task).tracks
  | candidatesReady k candidates => exact (s.unmoved_OnTransportCandidatesReady k candidates).tracks
  | worker k e => exact (s.unmoved_onProxy k _).tracks
  | createChannel k name => exact (s.unmoved_CreateChannel k name).tracks
  | signalingReady => exact s.unmoved_OnSignalingReady.tracks

theorem tracks_run {heard : Prop} (s : PPSession) {es : List SessionEvent} (hes : ∀ e ∈ es, e.Proper)
    (hheard : AcceptReceived es → heard) : s.Tracks heard (s.run es) := by
  induction es generalizing s with
  | nil => exact .refl heard s
  | cons e es ih =>
    have hfirst : s.Tracks heard (s.handle e) := by
      refine s.tracks_handle (hes e List.mem_cons_self) fun ⟨L, msg, hmem, htype⟩ => hheard ⟨L, msg, ?_, htype⟩
      exact List.mem_cons.mpr (.inl (List.mem_singleton.mp hmem))
    refine hfirst.trans (ih _ (fun x hx => hes x (List.mem_cons_of_mem _ hx)) ?_)
    exact fun ⟨L, msg, hmem, htype⟩ => hheard ⟨L, msg, List.mem_cons_of_mem _ hmem, htype⟩

theorem tracked_new (heard : Prop) (allow_local_ips : Bool) : (new allow_local_ips).Tracked heard :=
  ⟨Journal.valid_nil, rfl, by simp [new]⟩

/-- A session that has left `init` keeps its name. -/
theorem Tracks.content_name {heard : Prop} {s t : PPSession} (h : s.Tracks heard t) (hs : s.Tracked heard)
    (hstate : s.state ≠ .init) : t.content_name = s.content_name := by
  rcases stateAfter_cases s.out with ⟨hinit, -⟩ | ⟨name, hname⟩
  · exact absurd (hs.state.trans hinit) hstate
  · rw [← hs.name _ _ hname, ← (h.tracked hs).name _ _ (h.grows.subset hname)]

/-- The transition system of a session. After any events its state is the last one it has changed to, every
    change follows an edge and shows the name that the session has now, `inProgress` comes behind an accept that
    was sent or received, and the name is the one that the session had at any time since it left `init`. -/
theorem session_transitions {allow_local_ips : Bool} {es : List SessionEvent} (hes : ∀ e ∈ es, e.Proper) :
    ((new allow_local_ips).run es).state = stateAfter ((new allow_local_ips).run es).out ∧
      (∀ before state name after,
        ((new allow_local_ips).run es).out = before ++ .stateChanged state name :: after →
          Edge (stateAfter before) state ∧ name = ((new allow_local_ips).run es).content_name ∧
            (state = .inProgress → AcceptSent before ∨ AcceptReceived es)) ∧
      ∀ es₁ es₂, es = es₁ ++ es₂ → ((new allow_local_ips).run es₁).state ≠ .init →
        ((new allow_local_ips).run es).content_name = ((new allow_local_ips).run es₁).content_name := by
  have htracks := (new allow_local_ips).tracks_run hes id
  have htracked := htracks.tracked (tracked_new _ _)
  refine ⟨htracked.state, fun before state name after hout => ⟨?_, ?_, ?_⟩, ?_⟩
  · exact (htracked.log before _ after hout).1
  · exact htracked.name state name (by simp [hout])
  · rintro rfl
    exact accept_of_inProgress (hout ▸ htracked.log)
  · rintro es₁ es₂ rfl hstate
    have hfront : ((new allow_local_ips).run es₁).Tracked (AcceptReceived (es₁ ++ es₂)) := by
      refine ((new allow_local_ips).tracks_run (fun e he => hes e (List.mem_append_left _ he)) ?_).tracked (tracked_new _ _)
      exact fun ⟨L, msg, hmem, htype⟩ => ⟨L, msg, List.mem_append_left _ hmem, htype⟩
    rw [run_append]
    refine Tracks.content_name (tracks_run _ (fun e he => hes e (List.mem_append_right _ he)) ?_) hfront hstate
    exact fun ⟨L, msg, hmem, htype⟩ => ⟨L, msg, List.mem_append_right _ hmem, htype⟩

end PPSession

end

/-! ### A listener that answers at once -/

namespace PPSession
attribute [local instance] Host.plain

/-- A listener that accepts whatever it is told. -/
def acceptAtOnce (s : PPSession) : PPSession := s.callLocal id .accept

theorem listener_acceptAtOnce : Listener acceptAtOnce := fun s => .call (.nil s) listener_id .accept

/-- An initiate message is accepted while its state change is signalled. -/
def answered : List SessionEvent :=
  [.createChannel (cstr "data") (cstr "prober"),
    .incoming acceptAtOnce { type := .sessionInitiate, argvs := [cstr "data"] }, .state id]

theorem session_transitions_answered :
    ((new true).run answered).state = .inProgress ∧
      ∀ before name after, ((new true).run answered).out = before ++ .stateChanged .inProgress name :: after →
        AcceptSent before ∧ name = cstr "data" := by
  have hproper : ∀ e ∈ answered, e.Proper := by
    simp only [answered, List.mem_cons, List.not_mem_nil, or_false]
    rintro e (rfl | rfl | rfl)
    · trivial
    · exact ⟨listener_acceptAtOnce, by simp⟩
    · exact listener_id
  obtain ⟨-, hchanges, -⟩ := @session_transitions _ true answered hproper
  refine ⟨by decide, fun before name after hout => ?_⟩
  obtain ⟨-, hname, haccept⟩ := hchanges before .inProgress name after hout
  refine ⟨(haccept rfl).resolve_right ?_, hname.trans (by decide)⟩
  rintro ⟨L, msg, hmem, htype⟩
  simp only [answered, List.mem_cons, List.not_mem_nil, or_false, reduceCtorEq, false_or,
    SessionEvent.incoming.injEq] at hmem
  rw [hmem.2] at htype
  cases htype

end PPSession

end ProbICE
