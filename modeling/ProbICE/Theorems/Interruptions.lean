import ProbICE.Interrupted
import ProbICE.Theorems.Refusals
import ProbICE.Theorems.Transitions

/-! # Handlers in one piece

A handler that runs through, with its listeners called in the middle, is a run of the session that stops at each change of
its state. -/

namespace ProbICE
variable [Host]

namespace PPSession

section upToSignal
variable (s : PPSession) (L : PPSession → PPSession)

theorem SetState_change {state : SessionState} (h : state ≠ s.state) :
    s.SetState L state = (L (s.change state)).emit .postState := if_neg h

/-- The handler, or its two parts with the listeners between them. -/
def inParts (e : SessionEvent) : PPSession :=
  match s.upToSignal e with
  | none => s.handle e.bare
  | some (t, rest) => (e.listener t).finish rest

variable {s} in
theorem inParts_of_none {e : SessionEvent} (h : s.upToSignal e = none) : s.inParts e = s.handle e.bare := by
  rw [inParts, h]

variable {s} in
theorem inParts_of_some {e : SessionEvent} {t : PPSession} {rest : Rest} (h : s.upToSignal e = some (t, rest)) :
    s.inParts e = (e.listener t).finish rest := by
  rw [inParts, h]

theorem callLocal_inParts (c : LocalCall) : s.callLocal L c = s.inParts (.call L c) := by
  cases c with
  | initiate content =>
    by_cases h : s.state = .init
    · have hstate := (({ s with content_name := content, local_description := true } : PPSession).unmoved_CreateTransportProxies
        { content_name := content, candidates := [] }).state.trans h
      have hup := inParts_of_some (s := s) (e := .call L (.initiate content)) (if_neg (not_not.mpr h))
      rw [hup, callLocal, Initiate, if_neg (not_not.mpr h)]
      dsimp only
      rw [SetState_change]
      · rfl
      · rw [emit, hstate]
        decide
    · have hup := inParts_of_none (s := s) (e := .call L (.initiate content)) (if_pos h)
      rw [hup]
      simp [callLocal, handle, SessionEvent.bare, s.Initiate_refused h]
  | accept =>
    by_cases h : s.state = .receivedInitiate
    · have hup := inParts_of_some (s := s) (e := .call L .accept) (if_neg (not_not.mpr h))
      rw [hup, callLocal, Accept, if_neg (not_not.mpr h)]
      dsimp only
      rw [SetState_change]
      · rfl
      · rw [emit, h]
        decide
    · have hup := inParts_of_none (s := s) (e := .call L .accept) (if_pos h)
      rw [hup]
      simp [callLocal, handle, SessionEvent.bare, s.Accept_refused h]
  | reject =>
    by_cases h : s.state ≠ .receivedInitiate ∧ s.state ≠ .receivedModify
    · have hup := inParts_of_none (s := s) (e := .call L .reject) (if_pos h)
      rw [hup]
      simp [callLocal, handle, SessionEvent.bare, Reject, h]
    · have hup := inParts_of_some (s := s) (e := .call L .reject) (if_neg h)
      rw [hup, callLocal, Reject, if_neg h]
      dsimp only
      rw [SetState_change]
      · rfl
      · rintro hsent
        have hstate : s.state = .sentReject := hsent.symm
        exact h (by simp [hstate])
  | terminate =>
    rcases hstate : s.state with _ | _ | _ | _ | _ | _ | _ | _ | _ | _ | _ | _ | _ | _
    case sentTerminate | receivedTerminate =>
      have hup : s.upToSignal (.call L .terminate) = none := by rw [upToSignal, hstate]
      rw [inParts_of_none hup]
      simp [callLocal, handle, SessionEvent.bare, TerminateWithReason, hstate]
    case sentReject | receivedReject =>
      have hup : s.upToSignal (.call L .terminate) = some (s.change .sentTerminate, .post) := by rw [upToSignal, hstate]
      rw [inParts_of_some hup, callLocal, TerminateWithReason, hstate]
      exact SetState_change s L (by rw [hstate]; decide)
    all_goals
      have hup : s.upToSignal (.call L .terminate) =
          some ((s.emit (.outgoingMessage { type := .sessionTerminate, argvs := [] })).change .sentTerminate, .post) := by
        rw [upToSignal, hstate]
      rw [inParts_of_some hup, callLocal, TerminateWithReason, hstate]
      exact SetState_change _ L (by rw [emit, hstate]; decide)

/-- What an incoming message leaves behind when its handler has returned. -/
def reported (msg : PPMessage) (r : PPSession × Bool) : PPSession := if r.2 then r.1 else r.1.emit (.errorMessage msg)

section incoming
variable {s L} {msg : PPMessage}

theorem incoming_of_none (hup : s.upToSignal (.incoming L msg) = none) (h : s.answer L msg = s.answer id msg) :
    s.OnIncomingMessage L msg = s.inParts (.incoming L msg) := by
  rw [inParts_of_none hup, SessionEvent.bare, handle, OnIncomingMessage_answer, OnIncomingMessage_answer, h]

theorem incoming_of_some {t : PPSession} {rest : Rest} (hup : s.upToSignal (.incoming L msg) = some (t, rest))
    (h : reported msg (s.answer L msg) = (L t).finish rest) : s.OnIncomingMessage L msg = s.inParts (.incoming L msg) := by
  rw [inParts_of_some hup]
  exact h

theorem initiateMessage_inParts (htype : msg.type = .sessionInitiate) :
    s.OnIncomingMessage L msg = s.inParts (.incoming L msg) := by
  have hanswer : ∀ K, s.answer K msg = s.OnInitiateMessage K msg := fun K => by rw [answer, htype]
  rcases hfirst : msg.argvs[0]? with _ | content
  · refine incoming_of_none (by rw [upToSignal, htype, hfirst]) ?_
    rw [hanswer, hanswer, OnInitiateMessage, OnInitiateMessage]
    simp only [withContent, hfirst]
  · by_cases h : s.state = .init
    · have hup : s.upToSignal (.incoming L msg) =
          some ((({ s with content_name := content, remote_description := true } : PPSession).CreateTransportProxies
            { content_name := content, candidates := [] }).change .receivedInitiate, .negotiate msg content) := by
        rw [upToSignal, htype, hfirst]
        exact if_neg (not_not.mpr h)
      have hstate := (({ s with content_name := content, remote_description := true } : PPSession).unmoved_CreateTransportProxies
        { content_name := content, candidates := [] }).state.trans h
      refine incoming_of_some hup ?_
      rw [hanswer, s.OnInitiateMessage_eq L h]
      simp only [withContent, hfirst]
      rw [SetState_change]
      · rfl
      · rw [hstate]
        decide
    · refine incoming_of_none ?_ ?_
      · rw [upToSignal, htype, hfirst]
        exact if_pos h
      · rw [hanswer, hanswer, s.OnInitiateMessage_refused h, s.OnInitiateMessage_refused h]

theorem acceptMessage_inParts (htype : msg.type = .sessionAccept) :
    s.OnIncomingMessage L msg = s.inParts (.incoming L msg) := by
  have hanswer : ∀ K, s.answer K msg = s.OnAcceptMessage K msg := fun K => by rw [answer, htype]
  rcases hfirst : msg.argvs[0]? with _ | content
  · refine incoming_of_none (by rw [upToSignal, htype, hfirst]) ?_
    rw [hanswer, hanswer, OnAcceptMessage, OnAcceptMessage]
    simp only [withContent, hfirst]
  · by_cases h : s.state = .sentInitiate
    · have hup : s.upToSignal (.incoming L msg) =
          some (({ s.SendAllUnsentTransportInfoMessages with remote_description := true } : PPSession).change
            .receivedAccept, .negotiate msg content) := by
        rw [upToSignal, htype, hfirst]
        exact if_neg (not_not.mpr h)
      refine incoming_of_some hup ?_
      rw [hanswer, s.OnAcceptMessage_eq L h]
      simp only [withContent, hfirst]
      rw [SetState_change]
      · rfl
      · rw [s.SendAllUnsent_frame.2.1, h]
        decide
    · refine incoming_of_none ?_ ?_
      · rw [upToSignal, htype, hfirst]
        exact if_pos h
      · rw [hanswer, hanswer, s.OnAcceptMessage_refused h, s.OnAcceptMessage_refused h]

theorem rejectMessage_inParts (htype : msg.type = .sessionReject) :
    s.OnIncomingMessage L msg = s.inParts (.incoming L msg) := by
  have hanswer : ∀ K, s.answer K msg = s.OnRejectMessage K msg := fun K => by rw [answer, htype]
  by_cases h : s.state = .sentInitiate
  · have hup : s.upToSignal (.incoming L msg) = some (s.change .receivedReject, .post) := by
      rw [upToSignal, htype]
      exact if_neg (not_not.mpr h)
    refine incoming_of_some hup ?_
    rw [hanswer, s.OnRejectMessage_eq L h]
    exact SetState_change s L (by rw [h]; decide)
  · refine incoming_of_none ?_ ?_
    · rw [upToSignal, htype]
      exact if_pos h
    · rw [hanswer, hanswer, s.OnRejectMessage_refused h, s.OnRejectMessage_refused h]

theorem terminateMessage_inParts (htype : msg.type = .sessionTerminate) :
    s.OnIncomingMessage L msg = s.inParts (.incoming L msg) := by
  have hanswer : ∀ K, s.answer K msg = s.OnTerminateMessage K msg := fun K => by rw [answer, htype]
  rcases hfirst : msg.argvs[0]? with _ | reason
  · refine incoming_of_none (by rw [upToSignal, htype, hfirst]) ?_
    rw [hanswer, hanswer, OnTerminateMessage, OnTerminateMessage]
    simp only [withContent, hfirst]
  · by_cases h : s.state = .receivedTerminate
    · have hsame : ∀ K, (s.emit (.receivedTerminateReason reason)).SetState K .receivedTerminate =
          s.emit (.receivedTerminateReason reason) := fun K => if_pos h.symm
      refine incoming_of_none ?_ ?_
      · rw [upToSignal, htype, hfirst]
        exact if_pos h
      · rw [hanswer, hanswer, OnTerminateMessage, OnTerminateMessage]
        simp only [withContent, hfirst, hsame]
    · have hup : s.upToSignal (.incoming L msg) =
          some ((s.emit (.receivedTerminateReason reason)).change .receivedTerminate, .post) := by
        rw [upToSignal, htype, hfirst]
        exact if_neg h
      refine incoming_of_some hup ?_
      rw [hanswer, OnTerminateMessage]
      simp only [withContent, hfirst]
      exact SetState_change _ L (Ne.symm h)

end incoming

/-- The other messages do not change the state. -/
theorem OnIncomingMessage_inParts (msg : PPMessage) : s.OnIncomingMessage L msg = s.inParts (.incoming L msg) := by
  cases htype : msg.type with
  | sessionInitiate => exact initiateMessage_inParts htype
  | sessionAccept => exact acceptMessage_inParts htype
  | sessionReject => exact rejectMessage_inParts htype
  | sessionTerminate => exact terminateMessage_inParts htype
  | sessionInfo | transportInfo | other =>
    exact incoming_of_none (by rw [upToSignal, htype]) (by rw [answer, answer, htype])

theorem OnStateMessage_inParts : s.OnStateMessage L = s.inParts (.state L) := by
  rcases hstate : s.state with _ | _ | _ | _ | _ | _ | _ | _ | _ | _ | _ | _ | _ | _
  case sentAccept | receivedAccept =>
    have hup : s.upToSignal (.state L) = some (s.change .inProgress, .post) := by rw [upToSignal, hstate]
    rw [inParts_of_some hup, OnStateMessage, hstate]
    exact SetState_change s L (by rw [hstate]; decide)
  all_goals
    have hup : s.upToSignal (.state L) = none := by rw [upToSignal, hstate]
    rw [inParts_of_none hup, SessionEvent.bare, handle, OnStateMessage, OnStateMessage, hstate]

theorem handle_inParts (e : SessionEvent) : s.handle e = s.inParts e := by
  cases e with
  | call L c => exact s.callLocal_inParts L c
  | incoming L msg => exact s.OnIncomingMessage_inParts L msg
  | state L => exact s.OnStateMessage_inParts L
  | _ => rfl

end upToSignal

end PPSession

namespace Interrupted
open Machine (Reaches)

section reaches
variable {s t : PPSession}

theorem reaches_inParts {e : PPSession.SessionEvent}
    (hL : ∀ u rests, Reaches step { session := u, rests } { session := e.listener u, rests }) (s : PPSession)
    (rests : List Rest) : Reaches step { session := s, rests } { session := s.inParts e, rests } := by
  rcases hup : s.upToSignal e with _ | ⟨t, rest⟩
  · rw [PPSession.inParts_of_none hup]
    exact .single (e := .enter e) (by rw [step, hup])
  · rw [PPSession.inParts_of_some hup]
    have henter : Reaches step { session := s, rests } { session := t, rests := rest :: rests } :=
      .single (e := .enter e) (by rw [step, hup])
    exact (henter.trans (hL t (rest :: rests))).trans (.single (e := .resume) rfl)

/-- The calls of a listener are steps, whatever is waiting for it. -/
theorem reaches_calls (h : PPSession.Calls s t) (rests : List Rest) :
    Reaches step { session := s, rests } { session := t, rests } := by
  induction h generalizing rests with
  | nil s => exact .refl _
  | call h hL c ih ihL =>
    refine (ih rests).trans ?_
    rw [PPSession.callLocal_inParts]
    exact reaches_inParts (e := .call _ c) ihL _ rests

theorem reaches_handle {e : PPSession.SessionEvent} (hL : PPSession.Listener e.listener) (s : PPSession) (rests : List Rest) :
    Reaches step { session := s, rests } { session := s.handle e, rests } := by
  rw [PPSession.handle_inParts]
  exact reaches_inParts (fun u rests => reaches_calls (hL u) rests) s rests

/-- A run of a session whose handlers run through is a run here. -/
theorem reaches_run {es : List PPSession.SessionEvent} (hL : ∀ e ∈ es, PPSession.Listener e.listener) (s : PPSession)
    (rests : List Rest) : Reaches step { session := s, rests } { session := s.run es, rests } := by
  induction es generalizing s with
  | nil => exact .refl _
  | cons e es ih =>
    exact (reaches_handle (hL e List.mem_cons_self) s rests).trans (ih (fun x hx => hL x (List.mem_cons_of_mem _ hx)) _)

end reaches

end Interrupted

end ProbICE
