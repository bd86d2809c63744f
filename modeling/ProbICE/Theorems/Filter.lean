import ProbICE.Theorems.Bounds

/-! # What third parties can do to a prober

A prober follows the notices and the messages of every client, and of two of them it never asks who they
are about: `onRemoteOffline` and `onRemoteMessage`. What a client other than the remote one sends is without
influence as long as the session has no use for it.

Two probers are alike when they differ in the buffer of their peers and in what they have printed only. -/

namespace ProbICE
open Delimited
open DialogServer (SockId bytesTo)

/-- Any output but a line that is printed for something else than a frame that is sent. A failed `ASSERT` ends the
    prober, so it is visible. -/
def Output.isVisible : Output → Bool
  | print msg => (cstr "\t===>: ").isPrefixOf msg
  | _ => true

namespace IceProber
variable [Host]

/-- The prober without what it has kept of a frame and without what it has printed. -/
def mask (p : IceProber) : IceProber :=
  { p with peer := { p.peer with xmlBuffer := [] }, log := p.log.filter Output.isVisible }

/-- The two probers differ in their buffers and in their prints only. -/
def Alike (p q : IceProber) : Prop := p.mask = q.mask

theorem Alike.refl (p : IceProber) : p.Alike p := rfl

theorem Alike.symm {p q : IceProber} (h : p.Alike q) : q.Alike p := Eq.symm h

theorem Alike.trans {p q r : IceProber} (h : p.Alike q) (h' : q.Alike r) : p.Alike r := Eq.trans h h'

section alike
variable {p q : IceProber} (h : p.Alike q)
include h

theorem Alike.eq : ∃ xmlBuffer log, q = { p with peer := { p.peer with xmlBuffer }, log } ∧
    log.filter Output.isVisible = p.log.filter Output.isVisible := by
  refine ⟨q.peer.xmlBuffer, q.log, ?_, (congrArg log h).symm⟩
  cases p with
  | mk session peer _ _ _ _ _ _ _ _ _ _ =>
    cases peer
    cases q with
    | mk session' peer' _ _ _ _ _ _ _ _ _ _ =>
      cases peer'
      simp only [Alike, mask, IceProber.mk.injEq, Peer.mk.injEq] at h
      simp [h]

theorem Alike.record (o : Output) : (p.record o).Alike (q.record o) := by
  obtain ⟨x, l, rfl, hl⟩ := h.eq
  simp [Alike, mask, IceProber.record, hl]

theorem Alike.post (task : Task) : (p.post task).Alike (q.post task) := by
  obtain ⟨x, l, rfl, hl⟩ := h.eq
  simp [Alike, mask, IceProber.post, hl]

/-- Handlers that take alike probers to alike probers. -/
theorem Alike.foldl {α : Type} {f : IceProber → α → IceProber}
    (hf : ∀ {p q : IceProber}, p.Alike q → ∀ a, (f p a).Alike (f q a)) (as : List α) : (as.foldl f p).Alike (as.foldl f q) := by
  induction as generalizing p q with
  | nil => exact h
  | cons a as ih => exact ih (hf h a)

theorem Alike.onPeerOutput (sig : Signal) : (p.onPeerOutput sig).Alike (q.onPeerOutput sig) := by
  cases sig with
  | printString msg => exact h.record _
  | nullSocket => exact h.record _
  | _ => exact h

theorem Alike.onOutgoingMessage (msg : PPMessage) : (p.onOutgoingMessage msg).Alike (q.onOutgoingMessage msg) := by
  unfold IceProber.onOutgoingMessage
  rcases msgType msg.type with _ | word
  · exact h
  · obtain ⟨x, l, rfl, hl⟩ := h.eq
    simp only [Peer.SendMessage]
    split
    · exact h
    · split
      · exact h.record _
      · refine Alike.record ?_ _
        simp [Alike, mask, hl]

theorem Alike.onStateChanged (state : SessionState) (k : CString) :
    (p.onStateChanged state k).Alike (q.onStateChanged state k) := by
  cases state with
  | receivedInitiate =>
    have hname : q.content_name = p.content_name := (congrArg content_name h).symm
    rw [IceProber.onStateChanged, IceProber.onStateChanged, hname]
    split
    · exact h.post _
    · exact h
  | inProgress => exact h.record _
  | _ => exact h

theorem Alike.session : q.session = p.session := (congrArg IceProber.session h).symm

theorem Alike.onSignalRequest : p.onSignalRequest.Alike q.onSignalRequest := by
  unfold IceProber.onSignalRequest
  rw [h.session]
  rcases p.session with _ | session
  · exact h.record _
  · obtain ⟨x, l, rfl, hl⟩ := h.eq
    simp [Alike, mask, hl]

theorem Alike.onSessionEffect (e : SessionEffect) : (p.onSessionEffect e).Alike (q.onSessionEffect e) := by
  cases e with
  | outgoingMessage msg => exact h.onOutgoingMessage msg
  | stateChanged state k => exact h.onStateChanged state k
  | requestSignaling => exact h.onSignalRequest
  | timeout => exact (h.record _).record _
  | postState => exact h.post _
  | postTransport k task => exact h.post _
  | clearTimeout =>
    obtain ⟨x, l, rfl, hl⟩ := h.eq
    simp [Alike, mask, IceProber.onSessionEffect, hl]
  | postTimeout =>
    obtain ⟨x, l, rfl, hl⟩ := h.eq
    simp [Alike, mask, IceProber.onSessionEffect, hl]
  | assertFailed a => exact h.record _
  | outOfRange => exact h.record _
  | _ => exact h

theorem Alike.afterSession (session : PPSession) : (p.afterSession session).Alike (q.afterSession session) := by
  refine Alike.foldl ?_ Alike.onSessionEffect session.out
  obtain ⟨x, l, rfl, hl⟩ := h.eq
  simp [Alike, mask, hl]

theorem Alike.callSession (f : PPSession → PPSession) : (p.callSession f).Alike (q.callSession f) := by
  unfold IceProber.callSession
  rw [h.session]
  rcases p.session with _ | session
  · exact h.record _
  · exact h.afterSession _

theorem Alike.onSignal (sig : Signal) : (p.onSignal sig).Alike (q.onSignal sig) := by
  cases sig with
  | online isOk =>
    cases isOk with
    | true => exact h.record _
    | false => exact (h.record _).record _
  | offline => exact (h.record _).record _
  | remoteOnline remote => exact h
  | remoteLogin remote =>
    obtain ⟨x, l, rfl, hl⟩ := h.eq
    simp only [IceProber.onSignal, IceProber.onRemoteLogin]
    split
    · refine Alike.post ?_ _
      simp [Alike, mask, hl]
    · exact h
  | remoteOffline remote => exact (h.record _).record _
  | remoteMessage remote msgBody =>
    cases msgBody with
    | nil => exact h.record _
    | cons word argvs =>
      simp only [IceProber.onSignal, IceProber.onRemoteMessage]
      split
      · exact h
      · exact h.callSession _
  | printString msg => exact h.record _
  | nullSocket => exact h.record _
  | outOfRange => exact h.record _

/-- A function of the peer that does not look at the buffer. -/
theorem Alike.callPeer {f : Peer → Peer × List Signal}
    (hf : ∀ (peer : Peer) xmlBuffer, ∃ xmlBuffer', f { peer with xmlBuffer } = ({ (f peer).1 with xmlBuffer := xmlBuffer' }, (f peer).2)) :
    (p.callPeer f).Alike (q.callPeer f) := by
  obtain ⟨x, l, rfl, hl⟩ := h.eq
  obtain ⟨x', hx'⟩ := hf p.peer x
  unfold IceProber.callPeer
  simp only [hx']
  refine Alike.foldl ?_ Alike.onSignal _
  simp [Alike, mask, hl]

theorem Alike.setupTarget : p.setupTarget.Alike q.setupTarget := by
  obtain ⟨x, l, rfl, hl⟩ := h.eq
  unfold IceProber.setupTarget
  simp only
  split
  · exact h.record _
  · split
    · exact h
    · have htarget : ({ p with targetChannel := true }).Alike
          { p with targetChannel := true, peer := { p.peer with xmlBuffer := x }, log := l } := by
        simp [Alike, mask, hl]
      by_cases houtput : p.output = true
      · rw [if_pos (by exact houtput), if_pos (by exact houtput)]
        exact (htarget.record _).record _
      · rw [if_neg (by exact houtput), if_neg (by exact houtput)]
        exact htarget.record _

theorem Alike.dispatch (connectFails : Bool) (task : Task) :
    (p.dispatch connectFails task).Alike (q.dispatch connectFails task) := by
  cases task with
  | start =>
    refine h.callPeer fun peer xmlBuffer => ⟨[], ?_⟩
    cases connectFails <;> rfl
  | createSession =>
    obtain ⟨x, l, rfl, hl⟩ := h.eq
    exact h.afterSession _
  | doInitiate =>
    simp only [IceProber.dispatch, IceProber.doInitiate_s]
    rw [h.session]
    rcases p.session with _ | session
    · exact h.record _
    · obtain ⟨x, l, rfl, hl⟩ := h.eq
      exact (h.afterSession _).setupTarget
  | doAccept =>
    simp only [IceProber.dispatch, IceProber.doAccept_s]
    rw [h.session]
    rcases p.session with _ | session
    · exact h.record _
    · exact (h.afterSession _).setupTarget
  | state => exact h.callSession _
  | transport k task => exact h.callSession _

end alike

omit [Host] in
theorem onConnectEvent_buffer (peer : Peer) (xmlBuffer : CString) :
    Peer.onConnectEvent { peer with xmlBuffer } = ({ peer.onConnectEvent.1 with xmlBuffer }, peer.onConnectEvent.2) := by
  obtain ⟨name, isOnline, _ | sock, kept⟩ := peer
  · rfl
  · simp only [Peer.onConnectEvent]
    split <;> rfl

omit [Host] in
theorem onCloseEvent_buffer (peer : Peer) (xmlBuffer : CString) :
    Peer.onCloseEvent { peer with xmlBuffer } = ({ peer.onCloseEvent.1 with xmlBuffer }, peer.onCloseEvent.2) := by
  obtain ⟨name, isOnline, _ | sock, kept⟩ := peer
  · rfl
  · simp only [Peer.onCloseEvent]
    split <;> rfl

/-- An event other than a read takes alike probers to alike probers. -/
theorem Alike.step {p q p' : IceProber} (h : p.Alike q) {e : Event} (he : ∀ temp, e ≠ .read temp) (hstep : p.step e = some p') :
    ∃ q', q.step e = some q' ∧ p'.Alike q' := by
  obtain ⟨x, l, rfl, hl⟩ := h.eq
  cases e with
  | dispatch i connectFails =>
    obtain ⟨task, htask, rfl⟩ := Option.map_eq_some_iff.mp hstep
    refine ⟨_, Option.map_eq_some_iff.mpr ⟨task, htask, rfl⟩, Alike.dispatch ?_ connectFails task⟩
    simp [Alike, mask, hl]
  | connect =>
    obtain ⟨hsock, heq⟩ := Option.ite_none_right_eq_some.mp hstep
    obtain rfl := Option.some.inj heq
    refine ⟨_, if_pos hsock, Alike.callPeer ?_ fun peer xmlBuffer => ⟨xmlBuffer, onConnectEvent_buffer peer xmlBuffer⟩⟩
    simp [Alike, mask, setSockState, hl]
  | close =>
    obtain ⟨hsock, heq⟩ := Option.ite_none_right_eq_some.mp hstep
    obtain rfl := Option.some.inj heq
    exact ⟨_, if_pos hsock, h.callPeer fun peer xmlBuffer => ⟨xmlBuffer, onCloseEvent_buffer peer xmlBuffer⟩⟩
  | read temp => exact absurd rfl (he temp)
  | worker k e =>
    obtain ⟨hsession, heq⟩ := Option.ite_none_right_eq_some.mp hstep
    obtain rfl := Option.some.inj heq
    exact ⟨_, if_pos hsession, h.callSession _⟩
  | channelWriteable =>
    obtain ⟨htarget, heq⟩ := Option.ite_none_right_eq_some.mp hstep
    obtain rfl := Option.some.inj heq
    refine ⟨_, if_pos htarget, ?_⟩
    simp [Alike, mask, onChannelWriteable, IceProber.record, hl]
  | timeout =>
    obtain ⟨hpos, heq⟩ := Option.ite_none_right_eq_some.mp hstep
    obtain rfl := Option.some.inj heq
    refine ⟨_, if_pos hpos, Alike.callSession ?_ _⟩
    simp [Alike, mask, hl]
  | doData =>
    obtain ⟨hpos, heq⟩ := Option.ite_none_right_eq_some.mp hstep
    obtain rfl := Option.some.inj heq
    refine ⟨_, if_pos hpos, ?_⟩
    simp [Alike, mask, onChannelWriteable, IceProber.record, hl]

/-! ### What every event keeps -/

/-- The effects of the session have been handled, and `remote_name_` is what it was. -/
structure Keeps (p q : IceProber) : Prop where
  settled : q.Settled
  remote_name : q.remote_name = p.remote_name

theorem Keeps.trans {p q r : IceProber} (h : p.Keeps q) (h' : q.Keeps r) : p.Keeps r :=
  ⟨h'.settled, h'.remote_name.trans h.remote_name⟩

theorem keeps_afterSession (p : IceProber) (session : PPSession) : p.Keeps (p.afterSession session) :=
  ⟨(p.steady_afterSession session).settled, (p.afterSession_spec session).1.remote_name.symm⟩

section keeps
variable {p : IceProber} (h : p.Settled)
include h

theorem Settled.callSession (f : PPSession → PPSession) : p.Keeps (p.callSession f) := by
  unfold IceProber.callSession
  split
  · exact ⟨h, rfl⟩
  · exact p.keeps_afterSession _

theorem Settled.onSignal (sig : Signal) : p.Keeps (p.onSignal sig) := by
  cases sig with
  | online isOk => cases isOk <;> exact ⟨h, rfl⟩
  | remoteLogin remote =>
    rw [IceProber.onSignal, IceProber.onRemoteLogin]
    split <;> exact ⟨h, rfl⟩
  | remoteMessage remote msgBody =>
    cases msgBody with
    | nil => exact ⟨h, rfl⟩
    | cons word argvs =>
      rw [IceProber.onSignal, IceProber.onRemoteMessage]
      split
      · exact ⟨h, rfl⟩
      · exact h.callSession _
  | _ => exact ⟨h, rfl⟩

theorem Settled.foldl_onSignal (sigs : List Signal) : p.Keeps (sigs.foldl IceProber.onSignal p) := by
  induction sigs generalizing p with
  | nil => exact ⟨h, rfl⟩
  | cons sig sigs ih => exact (h.onSignal sig).trans (ih (h.onSignal sig).settled)

theorem Settled.callPeer (f : Peer → Peer × List Signal) : p.Keeps (p.callPeer f) := by
  have hpeer : Settled { p with peer := (f p.peer).1 } := h
  exact ⟨(hpeer.foldl_onSignal _).settled, (hpeer.foldl_onSignal _).remote_name⟩

theorem Settled.setupTarget : p.Keeps p.setupTarget := by
  unfold IceProber.setupTarget
  split
  · exact ⟨h, rfl⟩
  · split
    · exact ⟨h, rfl⟩
    · simp only
      split <;> exact ⟨h, rfl⟩

theorem Settled.dispatch (connectFails : Bool) (task : Task) : p.Keeps (p.dispatch connectFails task) := by
  cases task with
  | start => exact h.callPeer fun peer => peer.onStart_w connectFails
  | createSession => exact p.keeps_afterSession _
  | doInitiate =>
    rw [IceProber.dispatch, doInitiate_s]
    split
    · exact ⟨h, rfl⟩
    · exact (p.keeps_afterSession _).trans (p.keeps_afterSession _).settled.setupTarget
  | doAccept =>
    rw [IceProber.dispatch, doAccept_s]
    split
    · exact ⟨h, rfl⟩
    · exact (p.keeps_afterSession _).trans (p.keeps_afterSession _).settled.setupTarget
  | state => exact h.callSession _
  | transport k task => exact h.callSession _

theorem Settled.step {q : IceProber} {e : Event} (hstep : p.step e = some q) : p.Keeps q := by
  cases e with
  | dispatch i connectFails =>
    obtain ⟨task, -, rfl⟩ := Option.map_eq_some_iff.mp hstep
    have htasks : Settled { p with tasks := p.tasks.eraseIdx i } := h
    exact ⟨(htasks.dispatch _ _).settled, (htasks.dispatch _ _).remote_name⟩
  | connect =>
    obtain ⟨-, heq⟩ := Option.ite_none_right_eq_some.mp hstep
    obtain rfl := Option.some.inj heq
    have hsock : Settled (p.setSockState .connected) := h
    exact ⟨(hsock.callPeer _).settled, (hsock.callPeer _).remote_name⟩
  | close =>
    obtain ⟨-, heq⟩ := Option.ite_none_right_eq_some.mp hstep
    obtain rfl := Option.some.inj heq
    exact h.callPeer _
  | read temp =>
    obtain ⟨-, heq⟩ := Option.ite_none_right_eq_some.mp hstep
    obtain rfl := Option.some.inj heq
    exact h.callPeer _
  | worker k e =>
    obtain ⟨-, heq⟩ := Option.ite_none_right_eq_some.mp hstep
    obtain rfl := Option.some.inj heq
    exact h.callSession _
  | channelWriteable =>
    obtain ⟨-, heq⟩ := Option.ite_none_right_eq_some.mp hstep
    obtain rfl := Option.some.inj heq
    exact ⟨h, rfl⟩
  | timeout =>
    obtain ⟨-, heq⟩ := Option.ite_none_right_eq_some.mp hstep
    obtain rfl := Option.some.inj heq
    have htimeouts : Settled { p with timeouts := p.timeouts - 1 } := h
    exact ⟨(htimeouts.callSession _).settled, (htimeouts.callSession _).remote_name⟩
  | doData =>
    obtain ⟨-, heq⟩ := Option.ite_none_right_eq_some.mp hstep
    obtain rfl := Option.some.inj heq
    exact ⟨h, rfl⟩

end keeps

end IceProber

/-! ### Messages that a session has no use for -/

/-- The effect is only reported, and nobody listens. -/
def SessionEffect.isIdle : SessionEffect → Bool
  | errorMessage _ => true
  | _ => false

namespace PPSession
variable [Host]

/-- The handler of the message changes nothing in the session, and runs into no `ASSERT`. (`CheckState` has an `ASSERT`
    for an initiate or accept message that comes in the wrong state.) -/
def ignores (s : PPSession) (msg : PPMessage) : Bool :=
  match msg.type, msg.argvs with
  | .transportInfo, content :: _ =>
    badPorts msg.argvs = [] && (s.transports[content]?).all fun p => p.state = .negotiated &&
      (decodeCandidates msg.argvs).all fun candidates => candidates.isEmpty || !Acceptable p.transport candidates
  | _, _ => false

section ignores
variable (s : PPSession)

/-- From `s` to `t` nothing has happened but reports. -/
def OnlyReports (t : PPSession) : Prop := ∃ es : List SessionEffect, es.all SessionEffect.isIdle ∧ t = { s with out := s.out ++ es }

theorem OnlyReports.refl : s.OnlyReports s := ⟨[], rfl, by simp⟩

variable {s}

theorem OnlyReports.emit {t : PPSession} (h : s.OnlyReports t) {e : SessionEffect} (he : e.isIdle) : s.OnlyReports (t.emit e) := by
  obtain ⟨es, hes, rfl⟩ := h
  exact ⟨es ++ [e], by simp [hes, he], by simp [PPSession.emit]⟩

theorem OnRemoteCandidates_ignored {info : P2PInfo}
    (h : (s.transports[info.content_name]?).all fun p => p.state = .negotiated &&
      (info.candidates.isEmpty || !Acceptable p.transport info.candidates)) : (s.OnRemoteCandidates info).1 = s := by
  unfold OnRemoteCandidates GetTransport GetTransportProxy
  rcases hp : s.transports[info.content_name]? with _ | p
  · rfl
  · simp only [hp, Option.all_some, Bool.and_eq_true, decide_eq_true_eq, Bool.or_eq_true] at h
    obtain ⟨hstate, hcandidates⟩ := h
    have hcomplete : p.CompleteNegotiation = (p, []) := by simp [TransportProxy.CompleteNegotiation, hstate]
    simp only [onProxy_self s _ hp hcomplete, hp, Option.map_some]
    rcases hcandidates with hempty | hacceptable
    · rw [List.isEmpty_iff.mp hempty]
      exact onProxy_self _ _ hp rfl
    · rw [if_neg (by simpa [Acceptable] using hacceptable)]

/-- A message that the session has no use for. -/
theorem OnIncomingMessage_ignored {msg : PPMessage} (h : s.ignores msg) : s.OnlyReports (s.OnIncomingMessage id msg) := by
  have hhandled : s.OnlyReports (s.handled msg).1 := by
    unfold ignores at h
    unfold handled
    split at h
    · rename_i content rest htype hargvs
      rw [htype]
      obtain ⟨hports, h⟩ := Bool.and_eq_true_iff.mp h
      obtain ⟨candidates, hdecode⟩ := Option.isSome_iff_exists.mp (decodeCandidates_isSome msg.argvs)
      have hfirst : msg.argvs[0]? = some content := by rw [hargvs]; rfl
      rw [hdecode] at h
      simp only [OnTransportInfoMessage, withContent, hfirst, hdecode]
      rw [of_decide_eq_true hports, List.foldl_nil, OnRemoteCandidates_ignored]
      · exact OnlyReports.refl s
      · exact h
    · cases h
  rw [OnIncomingMessage_eq]
  split
  · exact hhandled
  · exact hhandled.emit rfl

end ignores

end PPSession

/-! ### Frames of third parties -/

/-- The client that a signal is about. -/
def Signal.about : Signal → Option CString
  | remoteOnline remote | remoteLogin remote | remoteOffline remote | remoteMessage remote _ => some remote
  | _ => none

/-- The signal is about another client than `remote_name`. -/
def Signal.isForeign (remote_name : CString) (sig : Signal) : Bool := sig.about.any (· ≠ remote_name)

theorem Peer.signalsOf_ne_printString (words : List CString) : ∀ sig ∈ signalsOf words, ∀ msg, sig ≠ .printString msg := by
  have hsecond : ∀ {signal : CString → Signal}, (∀ w msg, signal w ≠ .printString msg) →
      ∀ msg, withSecond words signal ≠ .printString msg := by
    intro signal hsignal msg
    unfold withSecond
    split
    · exact hsignal _ msg
    · simp
  unfold signalsOf
  split
  · simp
  · split
    · simpa using hsecond fun w msg => by simp
    · split
      · simpa using hsecond fun w msg => by simp
      · split
        · simpa using hsecond fun w msg => by simp
        · split
          · simpa using hsecond fun w msg => by simp
          · simp

/-- What is printed for a read is not the line of a frame that is sent. -/
theorem Peer.onReadEvent_prints {p : Peer} {temp : List UInt8} {msg : CString} (h : .printString msg ∈ (p.onReadEvent temp).2) :
    (Output.print msg).isVisible = false := by
  have hline : cstr "\t<===: " = [9, 60, 61, 61, 61, 58, 32] := by decide
  have hsent : cstr "\t===>: " = [9, 61, 61, 61, 62, 58, 32] := by decide
  unfold onReadEvent at h
  split at h
  · simp at h
  · split at h
    · simp at h
    · rw [readBytes_eq_cut] at h
      rcases List.mem_cons.mp h with heq | hmem
      · obtain rfl := Signal.printString.inj heq
        rw [Output.isVisible, hline, hsent]
        rfl
      · obtain ⟨frame, -, hmem⟩ := List.mem_flatMap.mp hmem
        exact absurd rfl (signalsOf_ne_printString _ _ hmem msg)

namespace IceProber
variable [Host]

/-- The handler of the signal of another client has no influence, if the session is in this state. -/
def harmless (session : Option PPSession) : Signal → Bool
  | .remoteOffline _ | .remoteMessage _ [] => false
  | .remoteMessage _ (word :: argvs) =>
    match messageType word with
    | none => true
    | some type => session.any (·.ignores { type, argvs })
  | _ => true

theorem alike_record {p : IceProber} {o : Output} (h : o.isVisible = false) : (p.record o).Alike p := by
  simp [Alike, mask, record, h]

theorem alike_idle (p : IceProber) {e : SessionEffect} (h : e.isIdle) : (p.onSessionEffect e).Alike p := by
  cases e with
  | errorMessage msg => exact .refl p
  | _ => cases h

theorem alike_reports {p : IceProber} {session t : PPSession} (hsession : p.session = some session) (hout : session.out = [])
    (h : session.OnlyReports t) : (p.afterSession t).Alike p := by
  obtain ⟨es, hes, rfl⟩ := h
  have hfold : ∀ (es : List SessionEffect) (q : IceProber), es.all SessionEffect.isIdle → (es.foldl onSessionEffect q).Alike q := by
    intro es
    induction es with
    | nil => exact fun q _ => .refl q
    | cons e es ih =>
      intro q hes
      rw [List.all_cons, Bool.and_eq_true] at hes
      exact (ih (q.onSessionEffect e) hes.2).trans (q.alike_idle hes.1)
  have hsame : { p with session := some { session with out := [] } } = p := by
    have hempty : { session with out := [] } = session := by
      cases session
      simp_all
    rw [hempty, ← hsession]
  unfold afterSession
  rw [hout, List.nil_append]
  refine (hfold es _ hes).trans ?_
  rw [show ({ p with session := some { session with out := [] } } : IceProber) = p from hsame]
  exact .refl p

theorem alike_harmless {p : IceProber} (h : p.Settled) {sig : Signal} (hforeign : sig.isForeign p.remote_name)
    (hharmless : harmless p.session sig) : (p.onSignal sig).Alike p := by
  cases sig with
  | remoteOnline remote => exact .refl p
  | remoteLogin remote =>
    have hne : remote ≠ p.remote_name := by simpa [Signal.isForeign, Signal.about] using hforeign
    rw [onSignal, onRemoteLogin, if_neg fun hand => hne hand.1]
    exact .refl p
  | remoteOffline remote => cases hharmless
  | remoteMessage remote msgBody =>
    cases msgBody with
    | nil => cases hharmless
    | cons word argvs =>
      rw [onSignal, onRemoteMessage]
      rw [harmless] at hharmless
      rcases htype : messageType word with _ | type
      · exact .refl p
      · rw [htype] at hharmless
        simp only at hharmless ⊢
        rcases hsession : p.session with _ | session
        · rw [hsession] at hharmless
          cases hharmless
        · rw [hsession, Option.any_some] at hharmless
          rw [callSession, hsession]
          exact alike_reports hsession (h session hsession) (PPSession.OnIncomingMessage_ignored hharmless)
  | _ => cases hforeign

/-! ### Histories -/

/-- What a prober is given: a signal of its peer, or an event that reads nothing. -/
inductive Item where
  | signal (sig : Signal)
  | event (e : Event)

/-- The prober is to follow the signal. -/
def relevant (remote_name : CString) : Signal → Bool
  | .printString _ => false
  | sig => !sig.isForeign remote_name

/-- What the prober is given in an event, less the frames from and about other clients. -/
def given (remote_name : CString) (p : IceProber) : Event → List Item
  | .read temp => ((p.peer.onReadEvent temp).2.filter (relevant remote_name)).map .signal
  | e => [.event e]

/-- What the prober is given in a list of events, less the frames from and about other clients. -/
def history (remote_name : CString) : IceProber → List Event → List Item
  | _, [] => []
  | p, e :: es =>
    match p.step e with
    | none => []
    | some q => given remote_name p e ++ history remote_name q es

/-- The prober behind an item. -/
def perform (p : IceProber) : Item → IceProber
  | .signal sig => p.onSignal sig
  | .event e => (p.step e).getD p

/-- The signals of other clients can be left out. -/
theorem alike_signals {p r : IceProber} (h : p.Settled) (hr : p.Alike r) {sigs : List Signal}
    (hprints : ∀ msg, .printString msg ∈ sigs → (Output.print msg).isVisible = false)
    (hharmless : ∀ k ∈ signalCalls p sigs, k.2.isForeign p.remote_name → harmless k.1.session k.2) :
    (sigs.foldl onSignal p).Alike ((sigs.filter (relevant p.remote_name)).foldl onSignal r) := by
  induction sigs generalizing p r with
  | nil => exact hr
  | cons sig sigs ih =>
    have hkeeps := h.onSignal sig
    have hrest := ih (r := if relevant p.remote_name sig then r.onSignal sig else r) hkeeps.settled ?_
      (fun msg hmsg => hprints msg (List.mem_cons_of_mem _ hmsg))
      (fun k hk hforeign => hharmless k (List.mem_cons_of_mem _ hk) (hkeeps.remote_name ▸ hforeign))
    · rw [hkeeps.remote_name] at hrest
      rw [List.foldl_cons, List.filter_cons]
      split
      · rename_i hrelevant
        rwa [if_pos hrelevant] at hrest
      · rename_i hrelevant
        rwa [if_neg hrelevant] at hrest
    · split
      · exact hr.onSignal sig
      · rename_i hrelevant
        refine Alike.trans ?_ hr
        by_cases hforeign : sig.isForeign p.remote_name
        · exact alike_harmless h hforeign (hharmless (p, sig) List.mem_cons_self hforeign)
        · cases sig with
          | printString msg => exact alike_record (hprints msg List.mem_cons_self)
          | _ => exact absurd (by simpa [relevant] using hforeign) hrelevant

/-- A run, and the same run without the signals of other clients. -/
theorem run_alike {p q r : IceProber} (h : p.Settled) (hr : p.Alike r) {es : List Event} (hrun : p.run es = some q)
    (hharmless : ∀ k ∈ signalsRead p es, k.2.isForeign p.remote_name → harmless k.1.session k.2) :
    q.Alike ((history p.remote_name p es).foldl perform r) := by
  induction es generalizing p r with
  | nil =>
    obtain rfl := Option.some.inj hrun
    exact hr
  | cons e es ih =>
    obtain ⟨p', hstep, hrest⟩ := Option.bind_eq_some_iff.mp hrun
    have hkeeps := h.step hstep
    simp only [signalsRead, hstep, List.mem_append] at hharmless
    simp only [history, hstep, List.foldl_append]
    rw [← hkeeps.remote_name]
    refine ih hkeeps.settled ?_ hrest fun k hk hforeign => hharmless k (.inr hk) (hkeeps.remote_name ▸ hforeign)
    rw [hkeeps.remote_name]
    by_cases he : ∃ temp, e = .read temp
    · obtain ⟨temp, rfl⟩ := he
      obtain ⟨-, heq⟩ := Option.ite_none_right_eq_some.mp hstep
      obtain rfl := Option.some.inj heq
      have hpeer : Settled { p with peer := (p.peer.onReadEvent temp).1 } := h
      have halike : Alike { p with peer := (p.peer.onReadEvent temp).1 } r := by
        refine Alike.trans ?_ hr
        have hsame : (p.peer.onReadEvent temp).1 = { p.peer with xmlBuffer := (p.peer.onReadEvent temp).1.xmlBuffer } := by
          unfold Peer.onReadEvent
          split
          · rfl
          · split <;> rfl
        rw [hsame]
        rfl
      rw [given, List.foldl_map]
      exact alike_signals hpeer halike (fun msg => Peer.onReadEvent_prints) fun k hk => hharmless k (.inl hk)
    · have hne : ∀ temp, e ≠ .read temp := fun temp heq => he ⟨temp, heq⟩
      obtain ⟨r', hstep', halike⟩ := hr.step hne hstep
      have hgiven : given p.remote_name p e = [.event e] := by
        cases e with
        | read temp => exact absurd rfl (hne temp)
        | _ => rfl
      rw [hgiven, List.foldl_cons, List.foldl_nil, perform, hstep']
      exact halike

/-- The session, what the socket has taken, and the exits, failed `ASSERT`s, sent frames and packets so far. -/
structure SameView (p q : IceProber) : Prop where
  session : q.session = p.session
  sock : q.peer.sock = p.peer.sock
  visible : q.log.filter Output.isVisible = p.log.filter Output.isVisible

theorem Alike.sameView {p q : IceProber} (h : p.Alike q) : p.SameView q where
  session := h.session
  sock := (congrArg (fun r => r.peer.sock) h).symm
  visible := (congrArg log h).symm

/-- Two histories that agree on everything but the frames from and about other clients have the same outcome, if
    these frames are harmless when they are handled: none of them is an offline notice, an initiate or an accept message,
    and the session has no use for any of their candidates. -/
theorem third_parties_filtered {output : Bool} {myName remoteName : CString} {es es' : List Event} {p p' : IceProber}
    (hrun : (Login output myName remoteName).run es = some p) (hrun' : (Login output myName remoteName).run es' = some p')
    (hharmless : ∀ k ∈ signalsRead (Login output myName remoteName) es,
      k.2.isForeign remoteName → harmless k.1.session k.2)
    (hharmless' : ∀ k ∈ signalsRead (Login output myName remoteName) es',
      k.2.isForeign remoteName → harmless k.1.session k.2)
    (hagree : history remoteName (Login output myName remoteName) es =
      history remoteName (Login output myName remoteName) es') : p.SameView p' := by
  have hsettled : (Login output myName remoteName).Settled := by rintro s ⟨⟩
  have hfirst := run_alike hsettled (.refl _) hrun hharmless
  have hsecond := run_alike hsettled (.refl _) hrun' hharmless'
  have hsame : history (Login output myName remoteName).remote_name (Login output myName remoteName) es =
      history (Login output myName remoteName).remote_name (Login output myName remoteName) es' := hagree
  rw [hsame] at hfirst
  exact (hfirst.trans hsecond.symm).sameView

end IceProber

/-! ### A third client -/

namespace IceProber
attribute [local instance] Host.plain

/-- The prober `a` waits for `b`. It connects to the server and reads the frames. -/
def waiting (frames : CString) : List Event :=
  [.dispatch 0 false, .dispatch 0 false, .connect, .read frames]

/-- The login of `c` and a greeting from it. -/
theorem third_parties_filtered_greeting :
    SameView
      (((Login false (cstr "a") (cstr "b")).run (waiting (cstr "<login:c><message:c:hi><login:b>"))).get (by decide))
      (((Login false (cstr "a") (cstr "b")).run (waiting (cstr "<login:b>"))).get (by decide)) :=
  third_parties_filtered (Option.some_get _).symm (Option.some_get _).symm (by decide) (by decide) rfl

/-- When `c` leaves the server, or sends an initiate message, the prober follows. -/
theorem not_filtered_offline :
    history (cstr "b") (Login false (cstr "a") (cstr "b")) (waiting (cstr "<login:b><offline:c>")) =
        history (cstr "b") (Login false (cstr "a") (cstr "b")) (waiting (cstr "<login:b>")) ∧
      ¬ SameView
        (((Login false (cstr "a") (cstr "b")).run (waiting (cstr "<login:b><offline:c>"))).get (by decide))
        (((Login false (cstr "a") (cstr "b")).run (waiting (cstr "<login:b>"))).get (by decide)) ∧
      history (cstr "b") (Login false (cstr "a") (cstr "b")) (waiting (cstr "<message:c:pp_initiate:data><login:b>")) =
        history (cstr "b") (Login false (cstr "a") (cstr "b")) (waiting (cstr "<login:b>")) ∧
      ¬ SameView
        (((Login false (cstr "a") (cstr "b")).run (waiting (cstr "<message:c:pp_initiate:data><login:b>"))).get (by decide))
        (((Login false (cstr "a") (cstr "b")).run (waiting (cstr "<login:b>"))).get (by decide)) := by
  refine ⟨rfl, fun hsame => ?_, rfl, fun hsame => ?_⟩
  · exact absurd hsame.visible (by decide)
  · exact absurd (congrArg (Option.map (·.state)) hsame.session) (by decide)

end IceProber

end ProbICE
