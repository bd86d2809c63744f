import ProbICE.Lib.Journal
import ProbICE.SessionRun
import ProbICE.Theorems.Sessions

/-! # What listeners do to a session

A session that has left `init` does not come back to it, and a local call then answers at most: it emits messages
and changes the state. The proxies stay as they are but for the candidates that have been sent. So whatever the
listeners of a state change call, the rest of the handler finds the proxies that it left. -/

namespace ProbICE

/-- A call of a session that has left `init` can have this effect. -/
def SessionEffect.isAnswer : SessionEffect → Bool
  | outgoingMessage msg => msg.type ≠ .sessionInitiate
  | stateChanged state _ => state ≠ .receivedInitiate
  | postState => true
  | _ => false

variable [Host]

namespace PPSession

/-- The proxies of `t` are those of `s` but for the candidates that have been sent. -/
def SameProxies (s t : PPSession) : Prop :=
  ∀ k : CString, (t.transports[k]?).map TransportProxy.ClearUnsentCandidates =
    (s.transports[k]?).map TransportProxy.ClearUnsentCandidates

/-- From `s` to `t` the session has done no more than answer. -/
structure Carries (s t : PPSession) : Prop where
  state : t.state ≠ .init
  content_name : t.content_name = s.content_name
  remote_description : t.remote_description = s.remote_description
  transports : s.SameProxies t
  /-- Only what has been asked for can be rejected. -/
  reject : s.state ≠ .receivedInitiate → s.state ≠ .receivedModify →
    t.state ≠ .receivedInitiate ∧ t.state ≠ .receivedModify ∧ (t.state = .sentReject → s.state = .sentReject)
  out : ∃ es, t.out = s.out ++ es ∧ ∀ e ∈ es, e.isAnswer = true

section relations
variable {s t u : PPSession}

theorem SameProxies.symm (h : s.SameProxies t) : t.SameProxies s := fun k => (h k).symm

/-- A proxy of the one session is a proxy of the other one. -/
theorem SameProxies.proxy (h : s.SameProxies t) {k : CString} {p : TransportProxy} (hp : t.transports[k]? = some p) :
    ∃ p', s.transports[k]? = some p' ∧ p'.state = p.state ∧ p'.transport = p.transport ∧ p'.channels = p.channels := by
  have hk := h k
  rw [hp, Option.map_some, eq_comm, Option.map_eq_some_iff] at hk
  obtain ⟨p', hp', heq⟩ := hk
  obtain ⟨-, htransport, hstate, hchannels, -⟩ := TransportProxy.mk.inj heq
  exact ⟨p', hp', hstate, htransport, hchannels⟩

/-- Neither the state nor the proxies have changed. -/
theorem Carries.of_same (h : s.state ≠ .init) (hstate : t.state = s.state) (hname : t.content_name = s.content_name)
    (hremote : t.remote_description = s.remote_description) (hproxies : s.SameProxies t) {es : List SessionEffect}
    (hout : t.out = s.out ++ es) (hes : ∀ e ∈ es, e.isAnswer = true) : s.Carries t where
  state := hstate ▸ h
  content_name := hname
  remote_description := hremote
  transports := hproxies
  reject hinitiate hmodify := by
    rw [hstate]
    exact ⟨hinitiate, hmodify, id⟩
  out := ⟨es, hout, hes⟩

theorem Carries.refl (h : s.state ≠ .init) : s.Carries s :=
  .of_same h rfl rfl rfl (fun _ => rfl) (List.append_nil _).symm (by simp)

theorem Carries.trans (h : s.Carries t) (h' : t.Carries u) : s.Carries u where
  state := h'.state
  content_name := h'.content_name.trans h.content_name
  remote_description := h'.remote_description.trans h.remote_description
  transports k := (h'.transports k).trans (h.transports k)
  reject hinitiate hmodify := by
    obtain ⟨hinitiate', hmodify', hreject⟩ := h.reject hinitiate hmodify
    obtain ⟨hinitiate'', hmodify'', hreject'⟩ := h'.reject hinitiate' hmodify'
    exact ⟨hinitiate'', hmodify'', hreject ∘ hreject'⟩
  out := Journal.grown_trans h.out h'.out

end relations

theorem carries_emit {s : PPSession} (h : s.state ≠ .init) {e : SessionEffect} (he : e.isAnswer = true) :
    s.Carries (s.emit e) :=
  .of_same h rfl rfl rfl (fun _ => rfl) rfl (by simpa using he)

theorem carries_SendUnsent {s : PPSession} (h : s.state ≠ .init) (k : CString) : s.Carries (s.SendUnsent k) := by
  rcases hm : (s.transports[k]?).bind (unsentMessage k) with _ | m
  · rw [SendUnsent_of_none s k hm]
    exact .refl h
  · obtain ⟨p, hp, hmessage⟩ := Option.bind_eq_some_iff.mp hm
    have htype : m.type ≠ .sessionInitiate := by
      unfold unsentMessage at hmessage
      split at hmessage
      · cases hmessage
      · obtain rfl := Option.some.inj hmessage
        simp [transportInfo]
    have hrun := (SendUnsent_of_some s k hm).trans
      (onProxy_of_some (s.emit (.outgoingMessage m)) k (f := fun p => (p.ClearUnsentCandidates, [])) hp)
    refine .of_same h (SendUnsent_frame s k).2.1 (SendUnsent_frame s k).2.2.1 ?_ (fun j => ?_)
      (show _ = s.out ++ [.outgoingMessage m] from ?_) (by simpa [SessionEffect.isAnswer] using htype)
    · rw [hrun]
      rfl
    · rw [transports_SendUnsent]
      split
      · rename_i hj
        subst hj
        cases s.transports[j]? <;> rfl
      · rfl
    · rw [hrun]
      exact List.append_nil _

theorem carries_SendAllUnsent {s : PPSession} (h : s.state ≠ .init) : s.Carries s.SendAllUnsentTransportInfoMessages := by
  have hfold : ∀ (ks : List CString) (s : PPSession), s.state ≠ .init → s.Carries (ks.foldl SendUnsent s) := by
    intro ks
    induction ks with
    | nil => exact fun _ => .refl
    | cons k ks ih =>
      intro s h
      exact (carries_SendUnsent h k).trans (ih _ (carries_SendUnsent h k).state)
  have hpending : s.Carries { s with pending_candidates := false } :=
    .of_same h rfl rfl rfl (fun _ => rfl) (List.append_nil _).symm (by simp)
  exact hpending.trans (hfold _ _ h)

/-! ### Calls and their listeners -/

/-- The listeners do no more than answer. -/
def Answers (L : PPSession → PPSession) : Prop := ∀ u : PPSession, u.state ≠ .init → u.Carries (L u)

section calls
variable {L : PPSession → PPSession} (hL : Answers L)
include hL

/-- Behind a change of the state comes what the listeners do. -/
theorem carries_after_change {s : PPSession} {state : SessionState} (hne : state ≠ s.state) (hinit : state ≠ .init) :
    ({ s with state }.emit (.stateChanged state s.content_name)).Carries (s.SetState L state) := by
  have hlisteners := hL ({ s with state }.emit (.stateChanged state s.content_name)) hinit
  rw [SetState, if_neg hne]
  exact hlisteners.trans (carries_emit hlisteners.state rfl)

theorem carries_SetState {s : PPSession} {state : SessionState} (h : s.state ≠ .init) (hinit : state ≠ .init)
    (hreceived : state ≠ .receivedInitiate)
    (hreject : state = .receivedModify ∨ state = .sentReject → s.state = .receivedInitiate ∨ s.state = .receivedModify) :
    s.Carries (s.SetState L state) := by
  by_cases hne : state = s.state
  · rw [SetState, if_pos hne]
    exact .refl h
  · have hchange : s.Carries ({ s with state }.emit (.stateChanged state s.content_name)) :=
      { state := hinit
        content_name := rfl
        remote_description := rfl
        transports := fun _ => rfl
        reject := fun hinitiate hmodify =>
          ⟨hreceived, fun hm => (hreject (.inl hm)).elim hinitiate hmodify,
            fun hr => ((hreject (.inr hr)).elim hinitiate hmodify).elim⟩
        out := ⟨[_], rfl, by simpa [SessionEffect.isAnswer] using hreceived⟩ }
    exact hchange.trans (carries_after_change hL hne hinit)

theorem carries_Accept {s : PPSession} (h : s.state ≠ .init) : s.Carries (s.Accept L).1 := by
  by_cases hstate : s.state = .receivedInitiate
  · rw [Accept, if_neg (by simpa using hstate)]
    have hlocal : s.Carries { s with local_description := true } :=
      .of_same h rfl rfl rfl (fun _ => rfl) (List.append_nil _).symm (by simp)
    have hemit := hlocal.trans
      (carries_emit hlocal.state (e := .outgoingMessage { type := .sessionAccept, argvs := [s.content_name] }) rfl)
    have hchange := hemit.trans (carries_SetState hL hemit.state (by decide : SessionState.sentAccept ≠ .init) (by decide) (by simp))
    exact hchange.trans (carries_SendAllUnsent hchange.state)
  · rw [s.Accept_refused hstate]
    exact .refl h

theorem carries_Reject {s : PPSession} (h : s.state ≠ .init) : s.Carries (s.Reject L).1 := by
  unfold Reject
  split
  · exact .refl h
  · rename_i hasked
    refine (carries_emit h rfl).trans (carries_SetState hL h (by decide) (by decide) fun _ => ?_)
    exact (Classical.not_and_iff_not_or_not.mp hasked).imp Classical.not_not.mp Classical.not_not.mp

theorem carries_TerminateWithReason {s : PPSession} (h : s.state ≠ .init) : s.Carries (s.TerminateWithReason L).1 := by
  unfold TerminateWithReason
  split
  · exact .refl h
  · exact .refl h
  · exact carries_SetState hL h (by decide) (by decide) (by simp)
  · exact carries_SetState hL h (by decide) (by decide) (by simp)
  · exact (carries_emit h rfl).trans (carries_SetState hL h (by decide) (by decide) (by simp))

theorem carries_callLocal {s : PPSession} (h : s.state ≠ .init) (c : LocalCall) : s.Carries (s.callLocal L c) := by
  cases c with
  | initiate content =>
    have hrefused : s.callLocal L (.initiate content) = s := congrArg Prod.fst (s.Initiate_refused h content)
    rw [hrefused]
    exact .refl h
  | accept => exact carries_Accept hL h
  | reject => exact carries_Reject hL h
  | terminate => exact carries_TerminateWithReason hL h

end calls

/-- In the state `init`, `Accept` and `Reject` are refused and the other two calls are taken. -/
theorem callLocal_of_init {P : PPSession → Prop} {L : PPSession → PPSession} {s : PPSession} (h : s.state = .init)
    (c : LocalCall) (hinitiate : ∀ content, c = .initiate content → P (s.Initiate L content).1) (hrefused : P s)
    (hterminate : P ((s.emit (.outgoingMessage { type := .sessionTerminate, argvs := [] })).SetState L .sentTerminate)) :
    P (s.callLocal L c) := by
  cases c with
  | initiate content => exact hinitiate content rfl
  | accept => rwa [callLocal, s.Accept_refused (by simp [h])]
  | reject => simpa [callLocal, Reject, h] using hrefused
  | terminate => simpa [callLocal, TerminateWithReason, h] using hterminate

theorem Calls.carries {s t : PPSession} (hcalls : Calls s t) : s.state ≠ .init → s.Carries t := by
  induction hcalls with
  | nil s => exact .refl
  | call _ _ c ih ihL =>
    intro h
    exact (ih h).trans (carries_callLocal (fun u hu => ihL u hu) (ih h).state c)

theorem Listener.answers {L : PPSession → PPSession} (hL : Listener L) : Answers L := fun u => (hL u).carries

end PPSession

end ProbICE
