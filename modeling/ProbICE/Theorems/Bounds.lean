import ProbICE.Theorems.CleanFrames
import ProbICE.Theorems.Links

/-! # Reads of the word vectors

A client reads `words[1]`, `msgBody[0]`, `argvs[0]` and the ten words of each candidate without looking at
the length of the vector. The server always writes a second word, and the number of candidates is computed
from the length. The other two words are missing when the sender has left them out. -/

namespace ProbICE
open Delimited
open DialogServer (SockId bytesTo)

namespace Peer

theorem onConnectEvent_signals (p : Peer) : ∀ sig ∈ p.onConnectEvent.2, sig ≠ .outOfRange ∧
    ∀ remote msgBody, sig ≠ .remoteMessage remote msgBody := by
  unfold onConnectEvent
  split
  · simp
  · split <;> simp

theorem onCloseEvent_signals (p : Peer) : ∀ sig ∈ p.onCloseEvent.2, sig ≠ .outOfRange ∧
    ∀ remote msgBody, sig ≠ .remoteMessage remote msgBody := by
  unfold onCloseEvent
  split
  · simp
  · split <;> simp

theorem xmlBuffer_onConnectEvent (p : Peer) : p.onConnectEvent.1.xmlBuffer = p.xmlBuffer := by
  unfold onConnectEvent
  split
  · rfl
  · split <;> rfl

theorem xmlBuffer_onCloseEvent (p : Peer) : p.onCloseEvent.1.xmlBuffer = p.xmlBuffer := by
  unfold onCloseEvent
  split
  · rfl
  · split <;> rfl

theorem onReadEvent_spec {p : Peer} (hsock : p.sock.isSome) {temp : List UInt8} (htemp : temp ≠ []) :
    (p.onReadEvent temp).1 = { p with xmlBuffer := (cut greater p.xmlBuffer temp).2 } ∧
      ∃ msg, (p.onReadEvent temp).2 =
        .printString msg :: (cut greater p.xmlBuffer temp).1.flatMap processXML := by
  obtain ⟨sock, hsock⟩ := Option.isSome_iff_exists.mp hsock
  unfold onReadEvent
  rw [hsock]
  simp only [htemp, if_false, readBytes_eq_cut]
  exact ⟨trivial, _, rfl⟩

end Peer

namespace IceProber

variable [Host]

/-- The handler of the signal reads existing elements only, if the session is in this state. -/
def inRange (session : Option PPSession) : Signal → Bool
  | .remoteMessage _ [] => false
  | .remoteMessage _ (word :: argvs) =>
    match messageType word, session with
    | some type, some s => !PPSession.reads s.state type || !argvs.isEmpty
    | _, _ => true
  | _ => true

theorem inRange_ignored {word : CString} (h : messageType word = none) (session : Option PPSession) (remote : CString)
    (argvs : List CString) : inRange session (.remoteMessage remote (word :: argvs)) = true := by
  simp [inRange, h]

theorem inRange_message {word : CString} {type : PPMessageType} (h : messageType word = some type) (s : PPSession)
    (remote : CString) (argvs : List CString) :
    inRange (some s) (.remoteMessage remote (word :: argvs)) = false ↔ PPSession.reads s.state type = true ∧ argvs = [] := by
  simp [inRange, h]

/-- The calls of the handlers of the signals `sigs`, each with the prober it starts in. -/
def signalCalls : IceProber → List Signal → List (IceProber × Signal)
  | _, [] => []
  | p, sig :: sigs => (p, sig) :: signalCalls (p.onSignal sig) sigs

/-- The calls of the handlers for what the prober reads in an event. -/
def readCalls (p : IceProber) : Event → List (IceProber × Signal)
  | .read temp => signalCalls { p with peer := (p.peer.onReadEvent temp).1 } (p.peer.onReadEvent temp).2
  | _ => []

/-- The calls of the handlers for what the prober reads in a run. -/
def signalsRead : IceProber → List Event → List (IceProber × Signal)
  | _, [] => []
  | p, e :: es =>
    match p.step e with
    | none => []
    | some q => readCalls p e ++ signalsRead q es

/-- The bytes that are read in a list of events. -/
def bytesRead (es : List Event) : List UInt8 :=
  es.flatMap fun
    | .read temp => temp
    | _ => []

/-- Every effect of the session has been handled. -/
def Settled (p : IceProber) : Prop := ∀ session, p.session = some session → session.out = []

/-- The prober has read something out of range. -/
def Strayed (p : IceProber) : Prop := Output.outOfRange ∈ p.faults

theorem strayed_iff (p : IceProber) : p.Strayed ↔ Output.outOfRange ∈ p.log := by
  simp [Strayed, faults, Output.isFault]

theorem strayed_record {p : IceProber} {o : Output} (h : o ≠ .outOfRange) : (p.record o).Strayed ↔ p.Strayed := by
  simp [strayed_iff, record, Ne.symm h]

theorem strayed_record_outOfRange (p : IceProber) : (p.record .outOfRange).Strayed := by
  simp [strayed_iff, record]

/-- Effects stay handled, the peer is not started anew, and it keeps its buffer. -/
structure Steady (p q : IceProber) : Prop where
  settled : q.Settled
  started : .start ∉ p.tasks → .start ∉ q.tasks
  xmlBuffer : q.peer.xmlBuffer = p.peer.xmlBuffer

theorem Steady.trans {p q r : IceProber} (h : p.Steady q) (h' : q.Steady r) : p.Steady r where
  settled := h'.settled
  started hp := h'.started (h.started hp)
  xmlBuffer := h'.xmlBuffer.trans h.xmlBuffer

theorem Settled.steady {p : IceProber} (h : p.Settled) : p.Steady p := ⟨h, id, rfl⟩

theorem Settled.record {p : IceProber} (h : p.Settled) (o : Output) : p.Steady (p.record o) := ⟨h, id, rfl⟩

theorem Settled.post {p : IceProber} (h : p.Settled) {task : Task} (ht : task ≠ .start) : p.Steady (p.post task) :=
  ⟨h, fun hp => by simpa [IceProber.post, hp] using Ne.symm ht, rfl⟩

omit [Host] in
theorem xmlBuffer_sendAll (p : Peer) (fs : List (CString × List CString)) : (p.sendAll fs).xmlBuffer = p.xmlBuffer := by
  induction fs generalizing p with
  | nil => rfl
  | cons f fs ih =>
    refine (ih (p.SendMessage f.1 f.2).1).trans ?_
    unfold Peer.SendMessage
    split
    · rfl
    · split <;> rfl

omit [Host] in
theorem taskOf_ne_start (k : CString) (e : SessionEffect) : taskOf k e ≠ some .start := by
  cases e with
  | stateChanged state k' =>
    cases state with
    | receivedInitiate =>
      rw [taskOf]
      split <;> simp
    | _ => simp [taskOf]
  | _ => simp [taskOf]

theorem steady_afterSession (p : IceProber) (session : PPSession) : p.Steady (p.afterSession session) := by
  obtain ⟨-, hpeer, -, htasks, -⟩ := p.afterSession_spec session
  obtain ⟨u, hu, hout⟩ := session_afterSession (P := fun u => u.out = []) session rfl (fun _ => id) p
  refine ⟨fun s hs => ?_, fun hp => ?_, ?_⟩
  · obtain rfl := Option.some.inj (hu.symm.trans hs)
    exact hout
  · rw [htasks, List.mem_append, not_or]
    refine ⟨hp, fun hmem => ?_⟩
    obtain ⟨e, -, he⟩ := List.mem_filterMap.mp hmem
    exact taskOf_ne_start p.content_name e he
  · rw [hpeer, xmlBuffer_sendAll]

omit [Host] in
theorem fault?_eq_outOfRange {e : SessionEffect} : e.fault? = some .outOfRange ↔ e = .outOfRange := by
  cases e <;> simp [SessionEffect.fault?]

theorem strayed_afterSession (p : IceProber) (session : PPSession) :
    (p.afterSession session).Strayed ↔ p.Strayed ∨ ¬ session.NoRead := by
  obtain ⟨-, -, -, -, hfaults⟩ := p.afterSession_spec session
  rw [Strayed, hfaults, List.mem_append, List.mem_filterMap, PPSession.NoRead, not_not, Strayed]
  simp [fault?_eq_outOfRange]

theorem noRead_of_settled {p : IceProber} (h : p.Settled) {session : PPSession} (hsession : p.session = some session) :
    session.NoRead := by
  simp [PPSession.NoRead, h session hsession]

/-- A call of a session function that reads nothing. -/
theorem callSession_keeps {p : IceProber} (h : p.Settled) {f : PPSession → PPSession}
    (hf : ∀ s : PPSession, s.NoRead → (f s).NoRead) :
    p.Steady (p.callSession f) ∧ ((p.callSession f).Strayed ↔ p.Strayed) := by
  unfold callSession
  rcases hsession : p.session with _ | session
  · exact ⟨h.record _, strayed_record (by simp)⟩
  · refine ⟨p.steady_afterSession _, ?_⟩
    rw [strayed_afterSession]
    simp [hf session (noRead_of_settled h hsession)]

/-! ### Signals -/

omit [Host] in
theorem type_of_messageType {word : CString} {type : PPMessageType} (h : messageType word = some type) :
    type = .sessionInitiate ∨ type = .sessionAccept ∨ type = .transportInfo := by
  unfold messageType at h
  split at h
  · exact .inl (Option.some.inj h).symm
  · split at h
    · exact .inr (.inl (Option.some.inj h).symm)
    · split at h
      · exact .inr (.inr (Option.some.inj h).symm)
      · cases h

/-- The signal of a message is handled, and the prober strays exactly when it is not in range. -/
theorem onRemoteMessage_strayed {p : IceProber} (h : p.Settled) (remote : CString) (msgBody : List CString) :
    p.Steady (p.onRemoteMessage remote msgBody) ∧
      ((p.onRemoteMessage remote msgBody).Strayed ↔
        p.Strayed ∨ inRange p.session (.remoteMessage remote msgBody) = false) := by
  cases msgBody with
  | nil => exact ⟨h.record _, iff_of_true p.strayed_record_outOfRange (.inr rfl)⟩
  | cons word argvs =>
    rw [onRemoteMessage]
    rcases htype : messageType word with _ | type
    · exact ⟨h.steady, by simp [inRange_ignored htype]⟩
    · simp only
      unfold callSession
      rcases hsession : p.session with _ | session
      · refine ⟨h.record _, ?_⟩
        simp only
        rw [strayed_record (by simp)]
        simp [inRange]
      · have hread := @PPSession.outOfRange_OnIncomingMessage _ session (by simp [h session hsession]) { type, argvs }
          (type_of_messageType htype)
        refine ⟨p.steady_afterSession _, ?_⟩
        rw [strayed_afterSession, PPSession.NoRead, not_not, hread, inRange_message htype]

theorem onSignal_strayed {p : IceProber} (h : p.Settled) {sig : Signal} (hsig : sig ≠ .outOfRange) :
    p.Steady (p.onSignal sig) ∧ ((p.onSignal sig).Strayed ↔ p.Strayed ∨ inRange p.session sig = false) := by
  have hother : ∀ {q : IceProber}, (q.Strayed ↔ p.Strayed) → (q.Strayed ↔ p.Strayed ∨ true = false) := by simp
  cases sig with
  | remoteMessage remote msgBody => exact onRemoteMessage_strayed h remote msgBody
  | outOfRange => exact absurd rfl hsig
  | online isOk =>
    cases isOk with
    | true => exact ⟨h.record _, hother (strayed_record (by simp))⟩
    | false =>
      exact ⟨⟨h, id, rfl⟩,
        hother ((strayed_record (by simp)).trans (strayed_record (by simp)))⟩
  | remoteLogin remote =>
    rw [onSignal, onRemoteLogin]
    split
    · have hpost : Settled { p with remote_online := true } := h
      exact ⟨⟨h, (hpost.post (by simp)).started, rfl⟩, hother Iff.rfl⟩
    · exact ⟨h.steady, hother Iff.rfl⟩
  | offline =>
    exact ⟨⟨h, id, rfl⟩, hother ((strayed_record (by simp)).trans (strayed_record (by simp)))⟩
  | remoteOnline remote => exact ⟨h.steady, hother Iff.rfl⟩
  | remoteOffline remote =>
    exact ⟨⟨h, id, rfl⟩, hother ((strayed_record (by simp)).trans (strayed_record (by simp)))⟩
  | printString msg => exact ⟨h.record _, hother (strayed_record (by simp))⟩
  | nullSocket => exact ⟨h.record _, hother (strayed_record (by simp))⟩

theorem foldl_onSignal_strayed {p : IceProber} (h : p.Settled) {sigs : List Signal} (hsigs : .outOfRange ∉ sigs) :
    p.Steady (sigs.foldl onSignal p) ∧
      ((sigs.foldl onSignal p).Strayed ↔ p.Strayed ∨ ∃ k ∈ signalCalls p sigs, inRange k.1.session k.2 = false) := by
  induction sigs generalizing p with
  | nil => exact ⟨h.steady, by simp [signalCalls]⟩
  | cons sig sigs ih =>
    simp only [List.mem_cons, not_or] at hsigs
    obtain ⟨hsteady, hstrayed⟩ := onSignal_strayed h (Ne.symm hsigs.1)
    obtain ⟨hsteady', hstrayed'⟩ := ih hsteady.settled hsigs.2
    refine ⟨hsteady.trans hsteady', ?_⟩
    rw [List.foldl_cons, hstrayed', hstrayed, signalCalls]
    simp [or_assoc]

/-- Signals that bring no message. -/
theorem foldl_onSignal_keeps {p : IceProber} (h : p.Settled) {sigs : List Signal}
    (hsigs : ∀ sig ∈ sigs, sig ≠ .outOfRange ∧ ∀ remote msgBody, sig ≠ .remoteMessage remote msgBody) :
    p.Steady (sigs.foldl onSignal p) ∧ ((sigs.foldl onSignal p).Strayed ↔ p.Strayed) := by
  induction sigs generalizing p with
  | nil => exact ⟨h.steady, Iff.rfl⟩
  | cons sig sigs ih =>
    obtain ⟨hrange, hmessage⟩ := hsigs sig List.mem_cons_self
    obtain ⟨hsteady, hstrayed⟩ := onSignal_strayed h hrange
    obtain ⟨hsteady', hstrayed'⟩ := ih hsteady.settled fun sig' hsig' => hsigs sig' (List.mem_cons_of_mem _ hsig')
    have hin : inRange p.session sig = true := by
      cases sig with
      | remoteMessage remote msgBody => exact absurd rfl (hmessage remote msgBody)
      | _ => rfl
    refine ⟨hsteady.trans hsteady', hstrayed'.trans (hstrayed.trans ?_)⟩
    simp [hin]

/-! ### Events -/

theorem setupTarget_keeps {p : IceProber} (h : p.Settled) :
    p.Steady p.setupTarget ∧ (p.setupTarget.Strayed ↔ p.Strayed) := by
  unfold setupTarget
  split
  · exact ⟨h.record _, strayed_record (by simp)⟩
  · split
    · exact ⟨h.steady, Iff.rfl⟩
    · have htarget : ({ p with targetChannel := true }.record .connectTarget).Strayed ↔ p.Strayed :=
        strayed_record (p := { p with targetChannel := true }) (by simp)
      simp only
      split
      · exact ⟨⟨h, id, rfl⟩, (strayed_record (by simp)).trans htarget⟩
      · exact ⟨⟨h, id, rfl⟩, htarget⟩

theorem noRead_createSession (content_name channel_name : CString) :
    (((PPSession.new false).set_allow_local_ips true).CreateChannel content_name channel_name).NoRead := by
  have hnew : ((PPSession.new false).set_allow_local_ips true).NoRead := List.not_mem_nil
  have hproxy := PPSession.sameBut_GetOrCreateTransportProxy ((PPSession.new false).set_allow_local_ips true) content_name
  exact PPSession.NoRead.onProxy
    (hnew.of_signals (hproxy.signals.trans (List.append_nil _).symm) List.not_mem_nil) content_name _

/-- A task other than the start of the peer reads nothing. -/
theorem dispatch_keeps {p : IceProber} (h : p.Settled) (connectFails : Bool) {task : Task} (ht : task ≠ .start) :
    p.Steady (p.dispatch connectFails task) ∧ ((p.dispatch connectFails task).Strayed ↔ p.Strayed) := by
  cases task with
  | start => exact absurd rfl ht
  | createSession =>
    refine ⟨p.steady_afterSession _, (strayed_afterSession _ _).trans ?_⟩
    simp [noRead_createSession]
  | doInitiate =>
    rw [dispatch, doInitiate_s]
    rcases hsession : p.session with _ | session
    · exact ⟨h.record _, strayed_record (by simp)⟩
    · have hsteady := p.steady_afterSession (session.Initiate id p.content_name).1
      obtain ⟨htarget, hstrayed⟩ := setupTarget_keeps hsteady.settled
      refine ⟨hsteady.trans htarget, hstrayed.trans ((strayed_afterSession _ _).trans ?_)⟩
      simp [(noRead_of_settled h hsession).Initiate p.content_name]
  | doAccept =>
    rw [dispatch, doAccept_s]
    rcases hsession : p.session with _ | session
    · exact ⟨h.record _, strayed_record (by simp)⟩
    · have hsteady := p.steady_afterSession (session.Accept id).1
      obtain ⟨htarget, hstrayed⟩ := setupTarget_keeps hsteady.settled
      refine ⟨hsteady.trans htarget, hstrayed.trans ((strayed_afterSession _ _).trans ?_)⟩
      simp [(noRead_of_settled h hsession).Accept]
  | state => exact callSession_keeps h fun s hs => hs.OnStateMessage
  | transport k task => exact callSession_keeps h fun s hs => hs.OnTransportMessage k task

/-- An event in which nothing is read. -/
theorem step_keeps {p q : IceProber} (h : p.Settled) (hstart : .start ∉ p.tasks) {e : Event}
    (he : ∀ temp, e ≠ .read temp) (hstep : p.step e = some q) : p.Steady q ∧ (q.Strayed ↔ p.Strayed) := by
  cases e with
  | dispatch i connectFails =>
    obtain ⟨task, htask, rfl⟩ := Option.map_eq_some_iff.mp hstep
    have hmem := List.mem_of_getElem? htask
    have htasks : p.Steady { p with tasks := p.tasks.eraseIdx i } :=
      ⟨h, fun _ hmem => hstart (List.mem_of_mem_eraseIdx hmem), rfl⟩
    have hne : task ≠ .start := fun heq => hstart (heq ▸ hmem)
    obtain ⟨hsteady, hstrayed⟩ := dispatch_keeps htasks.settled connectFails hne
    exact ⟨htasks.trans hsteady, hstrayed⟩
  | connect =>
    obtain ⟨-, heq⟩ := Option.ite_none_right_eq_some.mp hstep
    obtain rfl := Option.some.inj heq
    have hpeer : p.Steady { p.setSockState .connected with peer := (p.setSockState .connected).peer.onConnectEvent.1 } :=
      ⟨h, id, (Peer.xmlBuffer_onConnectEvent _).trans rfl⟩
    obtain ⟨hsteady, hstrayed⟩ := foldl_onSignal_keeps hpeer.settled (Peer.onConnectEvent_signals (p.setSockState .connected).peer)
    exact ⟨hpeer.trans hsteady, hstrayed⟩
  | close =>
    obtain ⟨-, heq⟩ := Option.ite_none_right_eq_some.mp hstep
    obtain rfl := Option.some.inj heq
    have hpeer : p.Steady { p with peer := p.peer.onCloseEvent.1 } := ⟨h, id, Peer.xmlBuffer_onCloseEvent _⟩
    obtain ⟨hsteady, hstrayed⟩ := foldl_onSignal_keeps hpeer.settled (Peer.onCloseEvent_signals p.peer)
    exact ⟨hpeer.trans hsteady, hstrayed⟩
  | read temp => exact absurd rfl (he temp)
  | worker k e =>
    obtain ⟨-, heq⟩ := Option.ite_none_right_eq_some.mp hstep
    obtain rfl := Option.some.inj heq
    exact callSession_keeps h fun s hs => hs.onProxy k _
  | channelWriteable =>
    obtain ⟨-, heq⟩ := Option.ite_none_right_eq_some.mp hstep
    obtain rfl := Option.some.inj heq
    exact ⟨⟨h, id, rfl⟩, strayed_record (by simp)⟩
  | timeout =>
    obtain ⟨-, heq⟩ := Option.ite_none_right_eq_some.mp hstep
    obtain rfl := Option.some.inj heq
    have hp : p.Steady { p with timeouts := p.timeouts - 1 } := ⟨h, id, rfl⟩
    obtain ⟨hsteady, hstrayed⟩ := callSession_keeps hp.settled (f := PPSession.OnTimeoutMessage) fun s hs =>
      PPSession.NoRead.emit (s := { s with error := .time }) hs (by simp)
    exact ⟨hp.trans hsteady, hstrayed⟩
  | doData =>
    obtain ⟨-, heq⟩ := Option.ite_none_right_eq_some.mp hstep
    obtain rfl := Option.some.inj heq
    have hrecord : ({ p with dataTimers := p.dataTimers - 1 }.record (.sendPacket (cstr "ABCD"))).Strayed ↔ p.Strayed :=
      strayed_record (p := { p with dataTimers := p.dataTimers - 1 }) (by simp)
    exact ⟨⟨h, id, rfl⟩, hrecord⟩

/-! ### Reading -/

/-- An event in which a piece of the server's stream is read. -/
theorem step_read {p q : IceProber} (h : p.Settled) {temp ys : List UInt8} (hstep : p.step (.read temp) = some q)
    {fs : List DialogServer.Frame} (hclean : ∀ f ∈ fs, f.Clean)
    (hcarries : Carries greater p.peer.xmlBuffer (temp ++ ys) (fs.map DialogServer.Frame.bytes)) :
    q.Settled ∧ (.start ∉ p.tasks → .start ∉ q.tasks) ∧
      (q.Strayed ↔ p.Strayed ∨ ∃ k ∈ readCalls p (.read temp), inRange k.1.session k.2 = false) ∧
      ∃ fs' : List DialogServer.Frame, (∀ f ∈ fs', f.Clean) ∧ Carries greater q.peer.xmlBuffer ys (fs'.map DialogServer.Frame.bytes) := by
  obtain ⟨⟨hsock, hpos, -⟩, heq⟩ := Option.ite_none_right_eq_some.mp hstep
  obtain rfl := Option.some.inj heq
  obtain ⟨hpeer, msg, hsignals⟩ := Peer.onReadEvent_spec hsock (List.ne_nil_of_length_pos hpos)
  obtain ⟨us, vs, hws, hcut, hrest⟩ := hcarries.read
  obtain ⟨done, rest, rfl, rfl, rfl⟩ := List.map_eq_append_iff.mp hws
  have hframes : (cut greater p.peer.xmlBuffer temp).1.flatMap Peer.processXML = done.map DialogServer.Frame.signal := by
    rw [hcut]
    clear hcarries hws hcut hrest
    induction done with
    | nil => rfl
    | cons f fs ih =>
      have hfirst := DialogServer.processXML_bytes (hclean f List.mem_cons_self)
      have hrest := ih fun f' hf' => hclean f' (List.mem_cons_of_mem _ hf')
      simp only [List.map_cons, List.flatMap_cons, hfirst, hrest, List.singleton_append]
  have hrange : Signal.outOfRange ∉ (p.peer.onReadEvent temp).2 := by
    rw [hsignals, hframes]
    simp only [List.mem_cons, List.mem_map, not_or, not_exists, not_and, reduceCtorEq, not_false_eq_true, true_and]
    intro f hf
    cases f <;> simp [DialogServer.Frame.signal]
  have hpeer' : Settled { p with peer := (p.peer.onReadEvent temp).1 } := h
  obtain ⟨hsteady, hstrayed⟩ := foldl_onSignal_strayed hpeer' hrange
  refine ⟨hsteady.settled, hsteady.started, hstrayed, rest, fun f hf => hclean f (List.mem_append_right _ hf), ?_⟩
  rw [show (p.callPeer fun peer => peer.onReadEvent temp).peer.xmlBuffer = _ from hsteady.xmlBuffer, hpeer]
  exact hrest

theorem readCalls_eq_nil {e : Event} (h : ∀ temp, e ≠ .read temp) (p : IceProber) : readCalls p e = [] := by
  cases e with
  | read temp => exact absurd rfl (h temp)
  | _ => rfl

theorem bytesRead_of_ne {e : Event} (h : ∀ temp, e ≠ .read temp) (es : List Event) : bytesRead (e :: es) = bytesRead es := by
  cases e with
  | read temp => exact absurd rfl (h temp)
  | _ => rfl

/-- A run in which a prober reads the stream of clean frames. -/
theorem run_strayed {p q : IceProber} (h : p.Settled) (hstart : .start ∉ p.tasks) {es : List Event}
    (hrun : p.run es = some q) {fs : List DialogServer.Frame} (hclean : ∀ f ∈ fs, f.Clean) {ys : List UInt8}
    (hcarries : Carries greater p.peer.xmlBuffer (bytesRead es ++ ys) (fs.map DialogServer.Frame.bytes)) :
    q.Strayed ↔ p.Strayed ∨ ∃ k ∈ signalsRead p es, inRange k.1.session k.2 = false := by
  induction es generalizing p fs with
  | nil =>
    obtain rfl := Option.some.inj hrun
    simp [signalsRead]
  | cons e es ih =>
    obtain ⟨r, hstep, hrest⟩ := Option.bind_eq_some_iff.mp hrun
    simp only [signalsRead, hstep, List.mem_append, or_and_right, exists_or]
    by_cases he : ∃ temp, e = .read temp
    · obtain ⟨temp, rfl⟩ := he
      have hbytes : bytesRead (.read temp :: es) = temp ++ bytesRead es := rfl
      rw [hbytes, List.append_assoc] at hcarries
      obtain ⟨hsettled, hstarted, hstrayed, fs', hclean', hcarries'⟩ := step_read h hstep hclean hcarries
      rw [ih hsettled (hstarted hstart) hrest hclean' hcarries', hstrayed, or_assoc]
    · have hne : ∀ temp, e ≠ .read temp := fun temp heq => he ⟨temp, heq⟩
      rw [bytesRead_of_ne hne] at hcarries
      obtain ⟨hsteady, hstrayed⟩ := step_keeps h hstart hne hstep
      rw [← hsteady.xmlBuffer] at hcarries
      rw [ih hsteady.settled (hsteady.started hstart) hrest hclean hcarries, hstrayed, readCalls_eq_nil hne]
      simp

/-- A prober whose peer has been started and which has read nothing yet. -/
structure Started (p : IceProber) : Prop where
  settled : p.Settled
  start : .start ∉ p.tasks
  xmlBuffer : p.peer.xmlBuffer = []
  log : .outOfRange ∉ p.log

/-- Whatever the clients send to the server, a client that reads what the server writes to it reads existing
    words only, exactly when every message it handles has the words that the handler reads. -/
theorem reads_in_range {es : List DialogServer.Event} {s : DialogServer.State}
    (hserver : DialogServer.run DialogServer.State.init es = some s) (d : SockId) {p q : IceProber} (hp : p.Started)
    {events : List Event} (hrun : p.run events = some q) (hread : bytesRead events <+: bytesTo d s.written) :
    .outOfRange ∉ q.log ↔ ∀ k ∈ signalsRead p events, inRange k.1.session k.2 = true := by
  obtain ⟨ys, hys⟩ := hread
  have hclean : ∀ f ∈ (s.written.filter fun w => w.sock = d).map DialogServer.Write.frame, f.Clean := by
    intro f hf
    obtain ⟨w, hw, rfl⟩ := List.mem_map.mp hf
    exact DialogServer.clean_of_run hserver w (List.mem_of_mem_filter hw)
  have hcarries : Carries greater p.peer.xmlBuffer (bytesRead events ++ ys)
      (((s.written.filter fun w => w.sock = d).map DialogServer.Write.frame).map DialogServer.Frame.bytes) := by
    rw [hys, hp.xmlBuffer, DialogServer.bytesTo_eq_stream]
    refine ⟨List.not_mem_nil, fun w hw => ?_, by simp [Function.comp_def]⟩
    obtain ⟨f, hf, rfl⟩ := List.mem_map.mp hw
    exact (hclean f hf).greater
  have hstrayed := run_strayed hp.settled hp.start hrun hclean hcarries
  rw [strayed_iff, strayed_iff] at hstrayed
  rw [hstrayed, or_iff_right hp.log]
  simp

end IceProber

namespace IceProber
attribute [local instance] Host.plain

theorem started_connected (name remote : CString) : (connected name remote (some freshSession)).Started where
  settled := by rintro s ⟨⟩; rfl
  start := List.not_mem_nil
  xmlBuffer := rfl
  log := List.not_mem_nil

/-- The client `b` reads everything that the server writes to it when `a` sends the bytes `sent`. -/
def readsAll (sent : List UInt8) : List Event :=
  [.read (bytesTo 2 (DialogServer.after (pairLogins ++ [.data 1 sent])).written)]

/-- A message with a word. -/
theorem reads_in_range_greeting :
    .outOfRange ∉ (((connected (cstr "b") (cstr "a") (some freshSession)).run (readsAll (cstr "<send:b:hi>"))).get
      (by decide)).log :=
  (reads_in_range (DialogServer.run_after (pairLogins ++ [.data 1 (cstr "<send:b:hi>")]) (by decide)) 2 (started_connected (cstr "b") (cstr "a"))
    (Option.some_get _).symm (by decide)).mpr (by decide)

/-- A message without a word: the client reads `msgBody[0]`. -/
theorem not_in_range_empty :
    DialogServer.run DialogServer.State.init (pairLogins ++ [.data 1 (cstr "<send:b>")]) =
        some (DialogServer.after (pairLogins ++ [.data 1 (cstr "<send:b>")])) ∧
      .outOfRange ∈ (((connected (cstr "b") (cstr "a") (some freshSession)).run (readsAll (cstr "<send:b>"))).get
        (by decide)).log :=
  ⟨DialogServer.run_after _ (by decide), by decide⟩

end IceProber

end ProbICE
