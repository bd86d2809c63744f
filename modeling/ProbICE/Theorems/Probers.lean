import ProbICE.Prober
import ProbICE.Theorems.Sessions
import ProbICE.Theorems.Streams

/-! # What the handlers of a prober do

The effects of a session function reach the peer as calls of `SendMessage`, and the signals of the peer
reach the session as calls of `OnIncomingMessage`. -/

namespace ProbICE
open Delimited

/-! ### The peer -/

namespace Peer

/-- The peer is online on a connected socket that accepts whole frames. -/
structure Open (p : Peer) (outgoing : List UInt8) : Prop where
  isOnline : p.isOnline = true
  sock : p.sock = some { state := .connected, outgoing, answers := [] }

/-- Calls of `SendMessage`. -/
def sendAll (p : Peer) (fs : List (CString × List CString)) : Peer :=
  fs.foldl (fun p f => (p.SendMessage f.1 f.2).1) p

theorem SendMessage_open {p : Peer} {outgoing : List UInt8} (h : p.Open outgoing) (f : CString × List CString) :
    p.SendMessage f.1 f.2 =
      ({ p with sock := some { state := .connected, outgoing := outgoing ++ (sendBody f ++ [greater]), answers := [] } },
        [.printString (cstr "\t===>: " ++ msgPayload f.1 f.2)], 0) := by
  simp [SendMessage, h.isOnline, h.sock, AsyncSocket.Send, msgPayload_eq, sendBody, frame]

theorem sendAll_open {p : Peer} {outgoing : List UInt8} (h : p.Open outgoing) (fs : List (CString × List CString)) :
    p.sendAll fs =
      { p with
        sock := some { state := .connected, outgoing := outgoing ++ stream greater (fs.map sendBody), answers := [] } } := by
  induction fs generalizing p outgoing with
  | nil =>
    have hsock := h.sock
    cases p
    simpa [sendAll] using hsock
  | cons f fs ih =>
    have hopen : (p.SendMessage f.1 f.2).1.Open (outgoing ++ (sendBody f ++ [greater])) := by
      rw [SendMessage_open h]
      exact ⟨h.isOnline, rfl⟩
    have hfirst : (p.SendMessage f.1 f.2).1.sendAll fs = p.sendAll (f :: fs) := rfl
    rw [← hfirst, ih hopen, SendMessage_open h]
    simp

end Peer

/-! ### Faults -/

/-- The output is an exit, a failed assertion or a read behind the end of a vector. -/
def Output.isFault : Output → Bool
  | exit _ | assertFailed _ | outOfRange => true
  | _ => false

/-- The fault that follows from an effect of the session. -/
def SessionEffect.fault? : SessionEffect → Option Output
  | timeout => some (.exit (-1))
  | assertFailed a => some (.assertFailed a)
  | outOfRange => some .outOfRange
  | _ => none

namespace IceProber

theorem messageType_msgType {t : PPMessageType} {word : CString} (h : msgType t = some word) :
    messageType word = some t := by
  cases t with
  | sessionInitiate =>
    obtain rfl := Option.some.inj h
    decide
  | sessionAccept =>
    obtain rfl := Option.some.inj h
    decide
  | transportInfo =>
    obtain rfl := Option.some.inj h
    decide
  | _ => cases h

theorem ascii_msgType {t : PPMessageType} {word : CString} (h : msgType t = some word) : ∀ b ∈ word, b.toNat < 0x80 := by
  cases t with
  | sessionInitiate =>
    obtain rfl := Option.some.inj h
    exact Utf8.ascii_of_all (by decide)
  | sessionAccept =>
    obtain rfl := Option.some.inj h
    exact Utf8.ascii_of_all (by decide)
  | transportInfo =>
    obtain rfl := Option.some.inj h
    exact Utf8.ascii_of_all (by decide)
  | _ => cases h

theorem clean_msgType {t : PPMessageType} {word : CString} (h : msgType t = some word) : Clean word := by
  cases t with
  | sessionInitiate =>
    obtain rfl := Option.some.inj h
    exact ⟨by decide, by decide⟩
  | sessionAccept =>
    obtain rfl := Option.some.inj h
    exact ⟨by decide, by decide⟩
  | transportInfo =>
    obtain rfl := Option.some.inj h
    exact ⟨by decide, by decide⟩
  | _ => cases h

/-- The call of `SendMessage` for a message of the session, if its type is sent. -/
def sent (remote_name : CString) (msg : PPMessage) : Option (CString × List CString) :=
  (msgType msg.type).map fun word => (remote_name, word :: msg.argvs)

/-- The message that a signal of the peer hands to the session. -/
def incoming : Signal → Option PPMessage
  | .remoteMessage _ (word :: argvs) => (messageType word).map fun type => { type, argvs }
  | _ => none

variable [Host]

/-- The session is called with the messages of `incoming`. -/
theorem onSignal_incoming {sig : Signal} {msg : PPMessage} (h : incoming sig = some msg) (p : IceProber) :
    p.onSignal sig = p.callSession fun session => session.OnIncomingMessage id msg := by
  cases sig with
  | remoteMessage remote msgBody =>
    cases msgBody with
    | nil => cases h
    | cons word argvs =>
      obtain ⟨type, htype, rfl⟩ := Option.map_eq_some_iff.mp h
      rw [onSignal, onRemoteMessage, htype]
  | _ => cases h

/-- No other signal of the peer reaches the session. -/
theorem session_onSignal {sig : Signal} (h : incoming sig = none) (p : IceProber) :
    (p.onSignal sig).session = p.session ∧ (p.onSignal sig).peer = p.peer := by
  cases sig with
  | remoteMessage remote msgBody =>
    cases msgBody with
    | nil => exact ⟨rfl, rfl⟩
    | cons word argvs =>
      have htype : messageType word = none := Option.map_eq_none_iff.mp h
      rw [onSignal, onRemoteMessage, htype]
      exact ⟨rfl, rfl⟩
  | online isOk => cases isOk <;> exact ⟨rfl, rfl⟩
  | remoteLogin remote =>
    rw [onSignal, onRemoteLogin]
    split <;> exact ⟨rfl, rfl⟩
  | _ => exact ⟨rfl, rfl⟩

/-! ### Effects of the session -/

/-- The faults of a prober so far. -/
def faults (p : IceProber) : List Output := p.log.filter Output.isFault

theorem faults_record (p : IceProber) (o : Output) : (p.record o).faults = p.faults ++ if o.isFault then [o] else [] := by
  rw [faults, record, List.filter_append, List.filter_singleton, Bool.cond_eq_ite, faults]

theorem faults_print (p : IceProber) (msg : CString) : (p.record (.print msg)).faults = p.faults := by
  simp [faults_record, Output.isFault]

/-- What no effect of the session changes. -/
structure SameSetup (p q : IceProber) : Prop where
  remote_online : q.remote_online = p.remote_online
  content_name : q.content_name = p.content_name
  channel_name : q.channel_name = p.channel_name
  remote_name : q.remote_name = p.remote_name

theorem SameSetup.refl (p : IceProber) : p.SameSetup p := ⟨rfl, rfl, rfl, rfl⟩

theorem SameSetup.trans {p q r : IceProber} (h : p.SameSetup q) (h' : q.SameSetup r) : p.SameSetup r where
  remote_online := h'.remote_online.trans h.remote_online
  content_name := h'.content_name.trans h.content_name
  channel_name := h'.channel_name.trans h.channel_name
  remote_name := h'.remote_name.trans h.remote_name

theorem foldl_onPeerOutput (p : IceProber) (sigs : List Signal) :
    (sigs.foldl onPeerOutput p).SameSetup p ∧ (sigs.foldl onPeerOutput p).peer = p.peer ∧
      (sigs.foldl onPeerOutput p).session = p.session ∧ (sigs.foldl onPeerOutput p).tasks = p.tasks ∧
      (sigs.foldl onPeerOutput p).faults = p.faults := by
  induction sigs generalizing p with
  | nil => exact ⟨.refl p, rfl, rfl, rfl, rfl⟩
  | cons sig sigs ih =>
    obtain ⟨hsetup, hpeer, hsession, htasks, hfaults⟩ := ih (p.onPeerOutput sig)
    have hone : (p.onPeerOutput sig).SameSetup p ∧ (p.onPeerOutput sig).peer = p.peer ∧
        (p.onPeerOutput sig).session = p.session ∧ (p.onPeerOutput sig).tasks = p.tasks ∧
        (p.onPeerOutput sig).faults = p.faults := by
      cases sig <;> exact ⟨⟨rfl, rfl, rfl, rfl⟩, rfl, rfl, rfl, by simp [onPeerOutput, faults_record, Output.isFault]⟩
    rw [List.foldl_cons]
    exact ⟨hsetup.trans hone.1, hpeer.trans hone.2.1, hsession.trans hone.2.2.1, htasks.trans hone.2.2.2.1,
      hfaults.trans hone.2.2.2.2⟩

/-- The message that an effect of the session posts to the signaling thread. -/
def taskOf (content_name : CString) : SessionEffect → Option Task
  | .stateChanged .receivedInitiate k => if k = content_name then some .doAccept else none
  | .postState => some .state
  | .postTransport k task => some (.transport k task)
  | _ => none

/-- The calls of `SendMessage` that follow from an effect of the session. -/
def sentFor (remote_name : CString) (e : SessionEffect) : Option (CString × List CString) :=
  e.message?.bind (sent remote_name)

/-- What the effect does to the session itself. -/
def reenter (session : Option PPSession) (e : SessionEffect) : Option PPSession :=
  if e = .requestSignaling then session.map PPSession.OnSignalingReady else session

theorem onOutgoingMessage_spec (p : IceProber) (msg : PPMessage) :
    (p.onOutgoingMessage msg).SameSetup p ∧
      (p.onOutgoingMessage msg).peer = p.peer.sendAll (sent p.remote_name msg).toList ∧
      (p.onOutgoingMessage msg).session = p.session ∧ (p.onOutgoingMessage msg).tasks = p.tasks ∧
      (p.onOutgoingMessage msg).faults = p.faults := by
  unfold onOutgoingMessage sent
  rcases h : msgType msg.type with _ | word
  · exact ⟨.refl p, rfl, rfl, rfl, rfl⟩
  · obtain ⟨hsetup, hrest⟩ := foldl_onPeerOutput
      { p with peer := (p.peer.SendMessage p.remote_name (word :: msg.argvs)).1 }
      (p.peer.SendMessage p.remote_name (word :: msg.argvs)).2.1
    exact ⟨hsetup.trans ⟨rfl, rfl, rfl, rfl⟩, hrest⟩

theorem onStateChanged_spec (p : IceProber) (state : SessionState) (k : CString) :
    (p.onStateChanged state k).SameSetup p ∧ (p.onStateChanged state k).peer = p.peer ∧
      (p.onStateChanged state k).session = p.session ∧
      (p.onStateChanged state k).tasks = p.tasks ++ (taskOf p.content_name (.stateChanged state k)).toList ∧
      (p.onStateChanged state k).faults = p.faults := by
  cases state with
  | receivedInitiate =>
    rw [onStateChanged, taskOf]
    split
    · exact ⟨⟨rfl, rfl, rfl, rfl⟩, rfl, rfl, rfl, rfl⟩
    · exact ⟨.refl p, rfl, rfl, (List.append_nil _).symm, rfl⟩
  | inProgress => exact ⟨⟨rfl, rfl, rfl, rfl⟩, rfl, rfl, (List.append_nil _).symm, p.faults_print _⟩
  | _ => exact ⟨.refl p, rfl, rfl, (List.append_nil _).symm, rfl⟩

/-- What follows from one effect of the session. -/
theorem onSessionEffect_spec (p : IceProber) (e : SessionEffect) :
    (p.onSessionEffect e).SameSetup p ∧
      (p.onSessionEffect e).peer = p.peer.sendAll (sentFor p.remote_name e).toList ∧
      (p.onSessionEffect e).session = reenter p.session e ∧
      (p.onSessionEffect e).tasks = p.tasks ++ (taskOf p.content_name e).toList ∧
      (p.onSessionEffect e).faults = p.faults ++ e.fault?.toList := by
  cases e with
  | outgoingMessage msg =>
    obtain ⟨hsetup, hpeer, hsession, htasks, hfaults⟩ := p.onOutgoingMessage_spec msg
    exact ⟨hsetup, hpeer, hsession, htasks.trans (List.append_nil _).symm, hfaults.trans (List.append_nil _).symm⟩
  | stateChanged state k =>
    obtain ⟨hsetup, hpeer, hsession, htasks, hfaults⟩ := p.onStateChanged_spec state k
    exact ⟨hsetup, hpeer, hsession, htasks, hfaults.trans (List.append_nil _).symm⟩
  | requestSignaling =>
    rw [onSessionEffect, onSignalRequest]
    rcases h : p.session with _ | session
    · exact ⟨⟨rfl, rfl, rfl, rfl⟩, rfl, h, (List.append_nil _).symm, by simp [faults_record, Output.isFault, SessionEffect.fault?]⟩
    · exact ⟨⟨rfl, rfl, rfl, rfl⟩, rfl, rfl, (List.append_nil _).symm, (List.append_nil _).symm⟩
  | postState => exact ⟨⟨rfl, rfl, rfl, rfl⟩, rfl, rfl, rfl, (List.append_nil _).symm⟩
  | postTransport k task => exact ⟨⟨rfl, rfl, rfl, rfl⟩, rfl, rfl, rfl, (List.append_nil _).symm⟩
  | timeout =>
    refine ⟨⟨rfl, rfl, rfl, rfl⟩, rfl, rfl, (List.append_nil _).symm, ?_⟩
    rw [onSessionEffect, onSessionTimeout, faults_record, faults_print]
    rfl
  | assertFailed a => exact ⟨⟨rfl, rfl, rfl, rfl⟩, rfl, rfl, (List.append_nil _).symm, p.faults_record _⟩
  | outOfRange => exact ⟨⟨rfl, rfl, rfl, rfl⟩, rfl, rfl, (List.append_nil _).symm, p.faults_record _⟩
  | _ => exact ⟨⟨rfl, rfl, rfl, rfl⟩, rfl, rfl, (List.append_nil _).symm, (List.append_nil _).symm⟩

theorem foldl_onSessionEffect (p : IceProber) (es : List SessionEffect) :
    (es.foldl onSessionEffect p).SameSetup p ∧
      (es.foldl onSessionEffect p).peer = p.peer.sendAll (es.filterMap (sentFor p.remote_name)) ∧
      (es.foldl onSessionEffect p).session = es.foldl reenter p.session ∧
      (es.foldl onSessionEffect p).tasks = p.tasks ++ es.filterMap (taskOf p.content_name) ∧
      (es.foldl onSessionEffect p).faults = p.faults ++ es.filterMap SessionEffect.fault? := by
  induction es generalizing p with
  | nil => exact ⟨.refl p, rfl, rfl, (List.append_nil _).symm, (List.append_nil _).symm⟩
  | cons e es ih =>
    obtain ⟨hsetup, hpeer, hsession, htasks, hfaults⟩ := p.onSessionEffect_spec e
    obtain ⟨hsetup', hpeer', hsession', htasks', hfaults'⟩ := ih (p.onSessionEffect e)
    rw [List.foldl_cons, List.foldl_cons]
    refine ⟨hsetup'.trans hsetup, ?_, hsession'.trans (by rw [hsession]), ?_, ?_⟩
    · rw [hpeer', ← hsetup.remote_name, hpeer, List.filterMap_cons]
      cases sentFor p.remote_name e <;> rfl
    · rw [htasks', ← hsetup.content_name, htasks, List.filterMap_cons]
      cases taskOf p.content_name e <;> simp
    · rw [hfaults', hfaults, List.filterMap_cons]
      cases e.fault? <;> simp

theorem filterMap_sentFor (remote_name : CString) (session : PPSession) :
    session.out.filterMap (sentFor remote_name) = session.messages.filterMap (sent remote_name) := by
  rw [PPSession.messages, List.filterMap_filterMap]
  rfl

/-- A session function has returned: its messages have been sent and its tasks posted. -/
theorem afterSession_spec (p : IceProber) (session : PPSession) :
    (p.afterSession session).SameSetup p ∧
      (p.afterSession session).peer = p.peer.sendAll (session.messages.filterMap (sent p.remote_name)) ∧
      (p.afterSession session).session = session.out.foldl reenter (some { session with out := [] }) ∧
      (p.afterSession session).tasks = p.tasks ++ session.out.filterMap (taskOf p.content_name) ∧
      (p.afterSession session).faults = p.faults ++ session.out.filterMap SessionEffect.fault? := by
  rw [← filterMap_sentFor]
  obtain ⟨hsetup, hrest⟩ := foldl_onSessionEffect { p with session := some { session with out := [] } } session.out
  exact ⟨hsetup.trans ⟨rfl, rfl, rfl, rfl⟩, hrest⟩

/-- The session is as the function has left it, but for what a request for signaling does. -/
theorem session_afterSession {P : PPSession → Prop} (session : PPSession) (h : P { session with out := [] })
    (hready : ∀ s, P s → P s.OnSignalingReady) (p : IceProber) : ∃ s, (p.afterSession session).session = some s ∧ P s := by
  have hloop : ∀ (es : List SessionEffect) (u : PPSession), P u → ∃ s, es.foldl reenter (some u) = some s ∧ P s := by
    intro es
    induction es with
    | nil => exact fun u hu => ⟨u, rfl, hu⟩
    | cons e es ih =>
      intro u hu
      rw [List.foldl_cons, reenter]
      split
      · exact ih u.OnSignalingReady (hready u hu)
      · exact ih u hu
  obtain ⟨-, -, hsession, -⟩ := p.afterSession_spec session
  rw [hsession]
  exact hloop session.out _ h

end IceProber

end ProbICE
