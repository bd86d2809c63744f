import ProbICE.Theorems.Bounds

/-! # Every message of a session reaches the other session

The types of messages that a session emits, those that `onOutgoingMessage` has a word for and those that
`onRemoteMessage` has a type for are three lists. The first has the reject and the terminate message, the
others do not. -/

namespace ProbICE
open Delimited
open DialogServer (SockId)

/-- A filtered list is the list itself when nothing is dropped and nothing is changed. -/
theorem filterMap_eq_self_iff {α : Type} {f : α → Option α} {l : List α} :
    l.filterMap f = l ↔ ∀ x ∈ l, f x = some x := by
  induction l with
  | nil => simp
  | cons x l ih =>
    rcases h : f x with _ | y
    · rw [List.filterMap_cons_none h]
      constructor
      · intro heq
        have hle := List.length_filterMap_le f l
        rw [heq, List.length_cons] at hle
        omega
      · intro hall
        exact absurd (h.symm.trans (hall x List.mem_cons_self)) (by simp)
    · rw [List.filterMap_cons_some h]
      constructor
      · intro heq
        obtain ⟨rfl, htail⟩ := List.cons.inj heq
        intro z hz
        rcases List.mem_cons.mp hz with rfl | hz
        · exact h
        · exact ih.mp htail z hz
      · intro hall
        obtain rfl := Option.some.inj (h.symm.trans (hall x List.mem_cons_self))
        rw [ih.mpr fun z hz => hall z (List.mem_cons_of_mem _ hz)]

namespace IceProber

theorem carried_eq_self_iff {msg : PPMessage} :
    carried msg = some msg ↔ (msgType msg.type).isSome ∧ ∀ w ∈ msg.argvs, Utf8.Valid w := by
  have hargvs : msg.argvs.map Utf8.scrub = msg.argvs ↔ ∀ w ∈ msg.argvs, Utf8.Valid w := by
    have hid : msg.argvs.map id = msg.argvs := List.map_id _
    rw [← hid, List.map_map, Function.comp_id, List.map_inj_left, List.map_id]
    simp only [id, Utf8.scrub_eq_self_iff]
  rw [← hargvs]
  unfold carried
  rcases h : msgType msg.type with _ | word
  · simp
  · cases msg
    simp

variable [Host]

/-! ### The operations of a session -/

/-- A call of a session function that can emit messages. -/
inductive SessionCall where
  | initiate (content : CString)
  | accept
  | reject
  | terminate
  | candidatesReady (content_name : CString) (candidates : List Candidate)
  | incoming (msg : PPMessage)

namespace SessionCall

def run : SessionCall → PPSession → PPSession
  | initiate content, s => (s.Initiate id content).1
  | accept, s => (s.Accept id).1
  | reject, s => (s.Reject id).1
  | terminate, s => (s.TerminateWithReason id).1
  | candidatesReady content_name candidates, s => s.OnTransportCandidatesReady content_name candidates
  | incoming msg, s => s.OnIncomingMessage id msg

/-- The call emits no reject and no terminate message in this state. -/
def Carried : SessionCall → SessionState → Bool
  | reject, state => !PPSession.rejects state
  | terminate, state => !PPSession.terminates state
  | _, _ => true

theorem messages_initiate (s : PPSession) (content : CString) : ∀ m ∈ ((initiate content).run s).messages,
    m ∈ s.messages ∨ m.type = .sessionInitiate := by
  intro m hm
  by_cases h : s.state = .init
  · obtain ⟨-, -, -, -, hsignals, -⟩ := s.Initiate_init h content
    rw [run, PPSession.messages_of_signals hsignals] at hm
    rcases List.mem_append.mp hm with hm | hm
    · exact .inl hm
    · obtain rfl := List.mem_singleton.mp hm
      exact .inr rfl
  · rw [run, s.Initiate_refused h] at hm
    exact .inl hm

theorem messages_accept (s : PPSession) : ∀ m ∈ (accept.run s).messages,
    m ∈ s.messages ∨ m.type = .sessionAccept ∨ m.type = .transportInfo := by
  intro m hm
  by_cases h : s.state = .receivedInitiate
  · obtain ⟨-, -, -, -, hsignals, -⟩ := s.Accept_receivedInitiate h
    rw [List.append_assoc] at hsignals
    rw [run, PPSession.messages_of_signals hsignals] at hm
    rcases List.mem_append.mp hm with hm | hm
    · exact .inl hm
    · rw [List.filterMap_append, PPSession.filterMap_message?_outgoing] at hm
      rcases List.mem_cons.mp hm with rfl | hm
      · exact .inr (.inl rfl)
      · exact .inr (.inr (PPSession.type_of_mem_unsentMessages hm))
  · rw [run, s.Accept_refused h] at hm
    exact .inl hm

theorem messages_candidatesReady (s : PPSession) (k : CString) (candidates : List Candidate) :
    ∀ m ∈ ((candidatesReady k candidates).run s).messages, m ∈ s.messages ∨ m.type = .transportInfo := by
  intro m hm
  rw [run] at hm
  rcases hp : s.transports[k]? with _ | p
  · rw [s.OnTransportCandidatesReady_of_none hp] at hm
    exact .inl hm
  · rw [s.OnTransportCandidatesReady_of_some hp] at hm
    split at hm
    · rw [PPSession.messages_eq, (s.sameBut_onProxy k fun _ => quiet_nil).signals, ← PPSession.messages_eq] at hm
      exact .inl hm
    · rw [PPSession.messages_emit_outgoing] at hm
      rcases List.mem_append.mp hm with hm | hm
      · exact .inl hm
      · obtain rfl := List.mem_singleton.mp hm
        exact .inr rfl

/-- A call in a session without pending effects emits only types that have a word, unless it is a reject or
    a terminate that emits. -/
theorem kinds_iff {s : PPSession} (hout : s.out = []) (call : SessionCall) :
    (∀ m ∈ (call.run s).messages, (msgType m.type).isSome) ↔ call.Carried s.state = true := by
  have hnone : s.messages = [] := by rw [PPSession.messages, hout]; rfl
  have hword : ∀ {m : PPMessage}, m.type = .sessionInitiate ∨ m.type = .sessionAccept ∨ m.type = .transportInfo →
      (msgType m.type).isSome := by
    rintro m (h | h | h) <;> rw [h] <;> rfl
  cases call with
  | initiate content =>
    refine iff_of_true (fun m hm => ?_) rfl
    have := messages_initiate s content m hm
    rw [hnone] at this
    exact hword (this.resolve_left List.not_mem_nil |> .inl)
  | accept =>
    refine iff_of_true (fun m hm => ?_) rfl
    have := messages_accept s m hm
    rw [hnone] at this
    exact hword (.inr (this.resolve_left List.not_mem_nil))
  | reject =>
    rw [run, s.messages_Reject, hnone, List.nil_append, Carried]
    cases PPSession.rejects s.state with
    | false => simp
    | true => simp [msgType]
  | terminate =>
    rw [run, s.messages_TerminateWithReason, hnone, List.nil_append, Carried]
    cases PPSession.terminates s.state with
    | false => simp
    | true => simp [msgType]
  | candidatesReady k candidates =>
    refine iff_of_true (fun m hm => ?_) rfl
    have := messages_candidatesReady s k candidates m hm
    rw [hnone] at this
    exact hword (.inr (.inr (this.resolve_left List.not_mem_nil)))
  | incoming msg =>
    refine iff_of_true (fun m hm => ?_) rfl
    obtain ⟨ms, hms, htype⟩ := s.EmitsTransport_OnIncomingMessage msg
    rw [run, hms, hnone, List.nil_append] at hm
    exact hword (.inr (.inr (htype m hm)))

end SessionCall

/-! ### What the other prober does -/

/-- The handler of the signal calls `OnIncomingMessage` of the session with the message. -/
def CallsSession (q : IceProber) (sig : Signal) (msg : PPMessage) : Prop :=
  ∃ session, q.session = some session ∧ q.onSignal sig = q.afterSession (session.OnIncomingMessage id msg)

/-- `q` reads the pieces, and calls its session with the messages, in their order, and with nothing else. -/
structure HandsOver (q : IceProber) (pieces : List (List UInt8)) (messages : List PPMessage) : Prop where
  reads : ∃ q', q.run (pieces.map .read) = some q'
  messages : ((signalsRead q (pieces.map .read)).filterMap fun k => incoming k.2) = messages
  calls : ∀ k ∈ signalsRead q (pieces.map .read), ∀ msg, incoming k.2 = some msg → CallsSession k.1 k.2 msg
  others : ∀ k ∈ signalsRead q (pieces.map .read), incoming k.2 = none → (k.1.onSignal k.2).session = k.1.session

/-- There is a session, and a socket, and `xmlBuffer` is kept in the buffer. -/
structure Attached (q : IceProber) (xmlBuffer : CString) : Prop where
  session : q.session.isSome
  sock : q.peer.sock.isSome
  buffer : q.peer.xmlBuffer = xmlBuffer

omit [Host] in
theorem isSome_sock_sendAll {peer : Peer} (h : peer.sock.isSome) (fs : List (CString × List CString)) :
    (peer.sendAll fs).sock.isSome := by
  induction fs generalizing peer with
  | nil => exact h
  | cons f fs ih =>
    have hfirst : (peer.SendMessage f.1 f.2).1.sock.isSome → ((peer.SendMessage f.1 f.2).1.sendAll fs).sock.isSome := ih
    refine hfirst ?_
    unfold Peer.SendMessage
    split
    · exact h
    · split
      · exact h
      · rfl

theorem Attached.callsSession {q : IceProber} {xmlBuffer : CString} (h : q.Attached xmlBuffer) {sig : Signal}
    {msg : PPMessage} (hmsg : incoming sig = some msg) : CallsSession q sig msg := by
  obtain ⟨session, hsession⟩ := Option.isSome_iff_exists.mp h.session
  exact ⟨session, hsession, by rw [onSignal_incoming hmsg, callSession, hsession]⟩

theorem Attached.onSignal {q : IceProber} {xmlBuffer : CString} (h : q.Attached xmlBuffer) (sig : Signal) :
    (q.onSignal sig).Attached xmlBuffer := by
  rcases hmsg : incoming sig with _ | msg
  · obtain ⟨hsession, hpeer⟩ := session_onSignal hmsg q
    exact ⟨hsession ▸ h.session, hpeer ▸ h.sock, hpeer ▸ h.buffer⟩
  · obtain ⟨session, -, hcall⟩ := h.callsSession hmsg
    obtain ⟨-, hpeer, -⟩ := q.afterSession_spec (session.OnIncomingMessage id msg)
    obtain ⟨t, ht, -⟩ := session_afterSession (P := fun _ => True) (session.OnIncomingMessage id msg) trivial
      (fun _ _ => trivial) q
    rw [hcall]
    refine ⟨ht ▸ rfl, hpeer ▸ isSome_sock_sendAll h.sock _, ?_⟩
    rw [hpeer, xmlBuffer_sendAll, h.buffer]

theorem Attached.foldl_onSignal {q : IceProber} {xmlBuffer : CString} (h : q.Attached xmlBuffer) (sigs : List Signal) :
    (sigs.foldl IceProber.onSignal q).Attached xmlBuffer := by
  induction sigs generalizing q with
  | nil => exact h
  | cons sig sigs ih => exact ih (h.onSignal sig)

theorem signalCalls_snd (q : IceProber) (sigs : List Signal) : (signalCalls q sigs).map Prod.snd = sigs := by
  induction sigs generalizing q with
  | nil => rfl
  | cons sig sigs ih => exact congrArg (sig :: ·) (ih (q.onSignal sig))

theorem Attached.signalCalls {q : IceProber} {xmlBuffer : CString} (h : q.Attached xmlBuffer) (sigs : List Signal) :
    ∀ k ∈ IceProber.signalCalls q sigs, k.1.Attached xmlBuffer := by
  induction sigs generalizing q with
  | nil => exact fun k hk => absurd hk List.not_mem_nil
  | cons sig sigs ih =>
    intro k hk
    rcases List.mem_cons.mp hk with rfl | hk
    · exact h
    · exact ih (h.onSignal sig) k hk

/-- What `q` reads in pieces are the signals of its peer, and each is handled with a session. -/
theorem Attached.reads {q : IceProber} {peer : Peer} (h : q.Attached peer.xmlBuffer) (hsock : peer.sock.isSome)
    {pieces : List (List UInt8)} (hpieces : ∀ temp ∈ pieces, 0 < temp.length ∧ temp.length ≤ Peer.readSize) :
    (∃ q', q.run (pieces.map .read) = some q') ∧
      (signalsRead q (pieces.map .read)).map Prod.snd = (Emit.forEach Peer.onReadEvent peer pieces).2 ∧
      ∀ k ∈ signalsRead q (pieces.map .read), ∃ xmlBuffer, k.1.Attached xmlBuffer := by
  induction pieces generalizing q peer with
  | nil => exact ⟨⟨q, rfl⟩, rfl, fun k hk => absurd hk List.not_mem_nil⟩
  | cons temp pieces ih =>
    obtain ⟨hpos, hsize⟩ := hpieces temp List.mem_cons_self
    have hread (p : Peer) (hp : p.sock.isSome) : p.onReadEvent temp =
        ({ p with xmlBuffer := (Peer.readBytes p.xmlBuffer temp).1 },
          .printString (cstr "\t<===: " ++ temp.takeWhile (· ≠ 0)) :: (Peer.readBytes p.xmlBuffer temp).2) := by
      obtain ⟨sock, hsome⟩ := Option.isSome_iff_exists.mp hp
      unfold Peer.onReadEvent
      rw [hsome]
      exact if_neg (List.length_pos_iff.mp hpos)
    have hstep : q.step (.read temp) = some (q.callPeer fun peer => peer.onReadEvent temp) :=
      if_pos ⟨h.sock, hpos, hsize⟩
    have hsignals : (q.peer.onReadEvent temp).2 = (peer.onReadEvent temp).2 := by
      rw [hread _ h.sock, hread _ hsock, h.buffer]
    have hstart : Attached { q with peer := (q.peer.onReadEvent temp).1 } (peer.onReadEvent temp).1.xmlBuffer := by
      rw [hread _ h.sock, hread _ hsock, h.buffer]
      exact ⟨h.session, h.sock, rfl⟩
    obtain ⟨⟨q', hq'⟩, hrest, hattached⟩ := ih (hstart.foldl_onSignal (q.peer.onReadEvent temp).2)
      (by rw [hread _ hsock]; exact hsock) fun temp htemp => hpieces temp (List.mem_cons_of_mem _ htemp)
    have hcalls : signalsRead q ((temp :: pieces).map .read) =
        readCalls q (.read temp) ++ signalsRead (q.callPeer fun peer => peer.onReadEvent temp) (pieces.map .read) := by
      rw [List.map_cons, signalsRead, hstep]
    refine ⟨⟨q', Option.bind_eq_some_iff.mpr ⟨_, hstep, hq'⟩⟩, ?_, fun k hk => ?_⟩
    · rw [hcalls, List.map_append, readCalls, signalCalls_snd, hsignals]
      exact congrArg ((peer.onReadEvent temp).2 ++ ·) hrest
    · rw [hcalls] at hk
      rcases List.mem_append.mp hk with hk | hk
      · exact ⟨_, hstart.signalCalls _ k hk⟩
      · exact hattached k hk

theorem handsOver_iff {q : IceProber} (hsession : q.session.isSome) (hsock : q.peer.sock.isSome) {pieces : List (List UInt8)}
    (hpieces : ∀ temp ∈ pieces, 0 < temp.length ∧ temp.length ≤ Peer.readSize) {messages : List PPMessage} :
    HandsOver q pieces messages ↔ (Emit.forEach Peer.onReadEvent q.peer pieces).2.filterMap incoming = messages := by
  have h : q.Attached q.peer.xmlBuffer := ⟨hsession, hsock, rfl⟩
  obtain ⟨hrun, hsignals, hattached⟩ := h.reads hsock hpieces
  have hmessages : ((signalsRead q (pieces.map .read)).filterMap fun k => incoming k.2) =
      (Emit.forEach Peer.onReadEvent q.peer pieces).2.filterMap incoming := by
    rw [← hsignals, List.filterMap_map]
    rfl
  refine ⟨fun hover => hmessages.symm.trans hover.messages, fun heq => ⟨hrun, hmessages.trans heq, fun k hk msg hmsg => ?_,
    fun k _ hnone => (session_onSignal hnone k.1).1⟩⟩
  obtain ⟨xmlBuffer, hk⟩ := hattached k hk
  exact hk.callsSession hmsg

/-! ### Carried messages -/

/-- The messages that the call emits arrive: whatever the pieces in which the server reads what `p` has
    written and `q` what the server writes, `q` calls its session with exactly these messages, behind
    those that were under way. -/
def Arrive (p : IceProber) (s : DialogServer.State) (c d : SockId) (q : IceProber) (earlier : List (List CString))
    (arriving : List DialogServer.Frame) (down : List UInt8) (call : SessionCall) (messages : List PPMessage) : Prop :=
  ∀ ups : List (List UInt8), ups.flatten = (p.callSession call.run).peer.outgoing →
    ∃ s', DialogServer.run s (ups.map (.data c)) = some s' ∧
      ∀ downs, (∀ temp ∈ downs, 0 < temp.length ∧ temp.length ≤ Peer.readSize) →
        downs.flatten = down ++ DialogServer.bytesTo d (s'.written.drop s.written.length) →
          HandsOver q downs (before earlier arriving ++ messages)

end IceProber

/-! ### An invited prober -/

namespace IceProber
attribute [local instance] Host.plain

theorem messages_initiate_data : ((SessionCall.initiate (cstr "data")).run freshSession).messages =
    [{ type := .sessionInitiate, argvs := [cstr "data"] }] := by
  decide

end IceProber

end ProbICE
