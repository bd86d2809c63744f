import ProbICE.Startup
import ProbICE.Theorems.Probers

/-! # The session before its first use

`Login` starts the connection before it posts the message that makes the session, so the server may be heard
before there is a session. A message of the other side then finds `session_` still `NULL`. A login of the other side
only posts a message itself, and what matters is which of the two was posted first. -/

namespace ProbICE

namespace Peer

theorem onReadEvent_signals {p : Peer} (hsock : p.sock.isSome = true) {temp : List UInt8} (htemp : 0 < temp.length) :
    ∃ msg, (p.onReadEvent temp).2 = .printString msg :: (readBytes p.xmlBuffer temp).2 := by
  obtain ⟨sock, hsock⟩ := Option.isSome_iff_exists.mp hsock
  have hne : temp ≠ [] := List.ne_nil_of_length_pos htemp
  exact ⟨cstr "\t<===: " ++ temp.takeWhile (· ≠ 0), by simp [onReadEvent, hsock, hne]⟩

end Peer

section
variable [Host]

namespace IceProber

/-- What the peer reads out of the bytes of an event. -/
def heard (p : IceProber) : Event → List Signal
  | .read temp => (Peer.readBytes p.peer.xmlBuffer temp).2
  | _ => []

/-! ### A session that is there stays -/

/-- What every function of the prober does to the log, to the queue and to `session_`. -/
structure Advances (p q : IceProber) : Prop where
  log : p.log <+: q.log
  tasks : p.tasks <+: q.tasks
  session : p.session.isSome = true → q.session.isSome = true
  clean : p.session.isSome = true → .nullSession ∈ q.log → .nullSession ∈ p.log

theorem Advances.refl (p : IceProber) : p.Advances p :=
  ⟨List.prefix_refl _, List.prefix_refl _, id, fun _ => id⟩

theorem Advances.trans {p q r : IceProber} (h : p.Advances q) (h' : q.Advances r) : p.Advances r where
  log := h.log.trans h'.log
  tasks := h.tasks.trans h'.tasks
  session hp := h'.session (h.session hp)
  clean hp hr := h.clean hp (h'.clean (h.session hp) hr)

/-- A step that does not touch `session_`. -/
theorem advances_of_same {p q : IceProber} (hlog : p.log <+: q.log) (htasks : p.tasks <+: q.tasks)
    (hsession : q.session = p.session) (hclean : .nullSession ∈ q.log → .nullSession ∈ p.log) : p.Advances q :=
  ⟨hlog, htasks, by rw [hsession]; exact id, fun _ => hclean⟩

theorem advances_record (p : IceProber) {o : Output} (h : o ≠ .nullSession) : p.Advances (p.record o) :=
  advances_of_same (List.prefix_append _ _) (List.prefix_refl _) rfl (by
    intro hmem
    rcases List.mem_append.mp hmem with hold | hnew
    · exact hold
    · exact absurd (List.mem_singleton.mp hnew).symm h)

/-- A use of `session_` while it is `NULL`. -/
theorem advances_nullSession {p : IceProber} (h : p.session = none) : p.Advances (p.record .nullSession) where
  log := List.prefix_append _ _
  tasks := List.prefix_refl _
  session hsome := by simp [h] at hsome
  clean hsome := by simp [h] at hsome

theorem advances_post (p : IceProber) (task : Task) : p.Advances (p.post task) :=
  advances_of_same (List.prefix_refl _) (List.prefix_append _ _) rfl id

theorem advances_foldl {α : Type} {f : IceProber → α → IceProber} (hf : ∀ (p : IceProber) a, p.Advances (f p a))
    (as : List α) (p : IceProber) : p.Advances (as.foldl f p) := by
  induction as generalizing p with
  | nil => exact .refl p
  | cons a as ih => exact (hf p a).trans (ih (f p a))

theorem advances_onPeerOutput (p : IceProber) (sig : Signal) : p.Advances (p.onPeerOutput sig) := by
  cases sig with
  | printString msg => exact p.advances_record (by simp)
  | nullSocket => exact p.advances_record (by simp)
  | _ => exact .refl p

theorem advances_onOutgoingMessage (p : IceProber) (msg : PPMessage) : p.Advances (p.onOutgoingMessage msg) := by
  unfold onOutgoingMessage
  cases msgType msg.type with
  | none => exact .refl p
  | some word =>
    have hpeer : p.Advances { p with peer := (p.peer.SendMessage p.remote_name (word :: msg.argvs)).1 } :=
      advances_of_same (List.prefix_refl _) (List.prefix_refl _) rfl id
    exact hpeer.trans (advances_foldl advances_onPeerOutput _ _)

theorem advances_onStateChanged (p : IceProber) (state : SessionState) (k : CString) :
    p.Advances (p.onStateChanged state k) := by
  cases state with
  | receivedInitiate =>
    rw [onStateChanged]
    split
    · exact p.advances_post _
    · exact .refl p
  | inProgress => exact p.advances_record (by simp)
  | _ => exact .refl p

theorem advances_onSignalRequest (p : IceProber) : p.Advances p.onSignalRequest := by
  unfold onSignalRequest
  cases h : p.session with
  | none => exact advances_nullSession h
  | some session => exact ⟨List.prefix_refl _, List.prefix_refl _, fun _ => rfl, fun _ => id⟩

theorem advances_onSessionEffect (p : IceProber) (e : SessionEffect) : p.Advances (p.onSessionEffect e) := by
  cases e with
  | outgoingMessage msg => exact p.advances_onOutgoingMessage msg
  | stateChanged state k => exact p.advances_onStateChanged state k
  | requestSignaling => exact p.advances_onSignalRequest
  | timeout => exact (p.advances_record (by simp)).trans (advances_record _ (by simp))
  | postState => exact p.advances_post _
  | postTransport k task => exact p.advances_post _
  | assertFailed a => exact p.advances_record (by simp)
  | outOfRange => exact p.advances_record (by simp)
  | _ => exact advances_of_same (List.prefix_refl _) (List.prefix_refl _) rfl id

/-- A session function has returned, and `session_` was not used in vain. -/
theorem afterSession_built (p : IceProber) (session : PPSession) :
    p.Advances (p.afterSession session) ∧ (p.afterSession session).session.isSome = true ∧
      (.nullSession ∈ (p.afterSession session).log → .nullSession ∈ p.log) := by
  have h := advances_foldl advances_onSessionEffect session.out { p with session := some { session with out := [] } }
  exact ⟨⟨h.log, h.tasks, fun _ => h.session rfl, fun _ => h.clean rfl⟩, h.session rfl, h.clean rfl⟩

theorem advances_callSession (p : IceProber) (f : PPSession → PPSession) : p.Advances (p.callSession f) := by
  unfold callSession
  cases h : p.session with
  | none => exact advances_nullSession h
  | some session => exact (p.afterSession_built _).1

theorem advances_setupTarget (p : IceProber) : p.Advances p.setupTarget := by
  have hset : p.Advances { p with targetChannel := true } :=
    advances_of_same (List.prefix_refl _) (List.prefix_refl _) rfl id
  have hconnect := hset.trans (advances_record _ (o := .connectTarget) (by simp))
  rw [setupTarget]
  split
  · exact p.advances_record (by simp)
  · split
    · exact .refl p
    · dsimp only
      split
      · exact hconnect.trans (advances_record _ (by simp))
      · exact hconnect

theorem advances_onSignal (p : IceProber) (sig : Signal) : p.Advances (p.onSignal sig) := by
  rcases h : incoming sig with _ | msg
  · cases sig with
    | online isOk =>
      cases isOk with
      | true => exact p.advances_record (by simp)
      | false => exact (p.advances_record (by simp)).trans (advances_record _ (by simp))
    | offline => exact (p.advances_record (by simp)).trans (advances_record _ (by simp))
    | remoteOffline remote => exact (p.advances_record (by simp)).trans (advances_record _ (by simp))
    | remoteOnline remote => exact .refl p
    | remoteLogin remote =>
      rw [onSignal, onRemoteLogin]
      split
      · have honline : p.Advances { p with remote_online := true } :=
          advances_of_same (List.prefix_refl _) (List.prefix_refl _) rfl id
        exact honline.trans (advances_post _ _)
      · exact .refl p
    | remoteMessage remote msgBody =>
      cases msgBody with
      | nil => exact p.advances_record (by simp)
      | cons word argvs =>
        have htype : messageType word = none := Option.map_eq_none_iff.mp h
        rw [onSignal, onRemoteMessage, htype]
        exact .refl p
    | printString msg => exact p.advances_record (by simp)
    | nullSocket => exact p.advances_record (by simp)
    | outOfRange => exact p.advances_record (by simp)
  · rw [onSignal_incoming h]
    exact p.advances_callSession _

theorem advances_callPeer (p : IceProber) (f : Peer → Peer × List Signal) : p.Advances (p.callPeer f) := by
  have hpeer : p.Advances { p with peer := (f p.peer).1 } :=
    advances_of_same (List.prefix_refl _) (List.prefix_refl _) rfl id
  exact hpeer.trans (advances_foldl advances_onSignal _ _)

theorem advances_dispatch (p : IceProber) (connectFails : Bool) (task : Task) :
    p.Advances (p.dispatch connectFails task) := by
  cases task with
  | start => exact p.advances_callPeer fun peer => peer.onStart_w connectFails
  | createSession => exact (p.afterSession_built _).1
  | doInitiate =>
    rw [dispatch, doInitiate_s]
    cases h : p.session with
    | none => exact advances_nullSession h
    | some session => exact (p.afterSession_built _).1.trans (advances_setupTarget _)
  | doAccept =>
    rw [dispatch, doAccept_s]
    cases h : p.session with
    | none => exact advances_nullSession h
    | some session => exact (p.afterSession_built _).1.trans (advances_setupTarget _)
  | state => exact p.advances_callSession _
  | transport k task => exact p.advances_callSession _

/-- Any event but the dispatch of a message. -/
theorem advances_step {p q : IceProber} {e : Event} (he : ∀ i connectFails, e ≠ .dispatch i connectFails)
    (h : p.step e = some q) : p.Advances q := by
  cases e with
  | dispatch i connectFails => exact absurd rfl (he i connectFails)
  | connect =>
    obtain rfl := Option.some.inj (Option.ite_none_right_eq_some.mp h).2
    have hsock : p.Advances (p.setSockState .connected) :=
      advances_of_same (List.prefix_refl _) (List.prefix_refl _) rfl id
    exact hsock.trans (advances_callPeer _ Peer.onConnectEvent)
  | close =>
    obtain rfl := Option.some.inj (Option.ite_none_right_eq_some.mp h).2
    exact p.advances_callPeer Peer.onCloseEvent
  | read temp =>
    obtain rfl := Option.some.inj (Option.ite_none_right_eq_some.mp h).2
    exact p.advances_callPeer fun peer => peer.onReadEvent temp
  | worker k w =>
    obtain rfl := Option.some.inj (Option.ite_none_right_eq_some.mp h).2
    exact p.advances_callSession _
  | channelWriteable =>
    obtain rfl := Option.some.inj (Option.ite_none_right_eq_some.mp h).2
    exact (p.advances_record (by simp)).trans (advances_of_same (List.prefix_refl _) (List.prefix_refl _) rfl id)
  | timeout =>
    obtain rfl := Option.some.inj (Option.ite_none_right_eq_some.mp h).2
    have htimer : p.Advances { p with timeouts := p.timeouts - 1 } :=
      advances_of_same (List.prefix_refl _) (List.prefix_refl _) rfl id
    exact htimer.trans (advances_callSession _ _)
  | doData =>
    obtain rfl := Option.some.inj (Option.ite_none_right_eq_some.mp h).2
    have htimer : p.Advances { p with dataTimers := p.dataTimers - 1 } :=
      advances_of_same (List.prefix_refl _) (List.prefix_refl _) rfl id
    exact (htimer.trans (advances_record _ (by simp))).trans
      (advances_of_same (List.prefix_refl _) (List.prefix_refl _) rfl id)

/-! ### Before there is a session -/

/-- What signals that are no messages do. -/
structure Hears (p q : IceProber) (sigs : List Signal) : Prop where
  session : q.session = p.session
  timeouts : q.timeouts = p.timeouts
  remote_name : q.remote_name = p.remote_name
  log : .nullSession ∈ q.log → .nullSession ∈ p.log
  tasks : p.tasks <+: q.tasks
  /-- Only a login of the other side makes a difference. -/
  others : .remoteLogin p.remote_name ∉ sigs → q.tasks = p.tasks ∧ q.remote_online = p.remote_online

theorem hears_record (p : IceProber) {o : Output} (h : o ≠ .nullSession) (sigs : List Signal) :
    p.Hears (p.record o) sigs where
  session := rfl
  timeouts := rfl
  remote_name := rfl
  log hmem := by
    rcases List.mem_append.mp hmem with hold | hnew
    · exact hold
    · exact absurd (List.mem_singleton.mp hnew).symm h
  tasks := List.prefix_refl _
  others _ := ⟨rfl, rfl⟩

theorem Hears.refl (p : IceProber) (sigs : List Signal) : p.Hears p sigs :=
  ⟨rfl, rfl, rfl, id, List.prefix_refl _, fun _ => ⟨rfl, rfl⟩⟩

theorem Hears.trans {p q r : IceProber} {sigs sigs' : List Signal} (h : p.Hears q sigs) (h' : q.Hears r sigs') :
    p.Hears r (sigs ++ sigs') where
  session := h'.session.trans h.session
  timeouts := h'.timeouts.trans h.timeouts
  remote_name := h'.remote_name.trans h.remote_name
  log hr := h.log (h'.log hr)
  tasks := h.tasks.trans h'.tasks
  others hnot := by
    rw [List.mem_append, not_or] at hnot
    obtain ⟨htasks, honline⟩ := h.others hnot.1
    obtain ⟨htasks', honline'⟩ := h'.others (by rw [h.remote_name]; exact hnot.2)
    exact ⟨htasks'.trans htasks, honline'.trans honline⟩

theorem hears_onSignal (p : IceProber) {sig : Signal} (h : incoming sig = none) : p.Hears (p.onSignal sig) [sig] := by
  cases sig with
  | online isOk =>
    cases isOk with
    | true => exact p.hears_record (by simp) _
    | false => exact (p.hears_record (by simp) []).trans (hears_record _ (by simp) _)
  | offline => exact (p.hears_record (by simp) []).trans (hears_record _ (by simp) _)
  | remoteOffline remote => exact (p.hears_record (by simp) []).trans (hears_record _ (by simp) _)
  | remoteOnline remote => exact .refl p _
  | remoteLogin remote =>
    rw [onSignal, onRemoteLogin]
    split
    · rename_i hremote
      refine ⟨rfl, rfl, rfl, id, List.prefix_append _ _, fun hnot => absurd ?_ hnot⟩
      rw [hremote.1]
      exact List.mem_singleton.mpr rfl
    · exact .refl p _
  | remoteMessage remote msgBody =>
    cases msgBody with
    | nil => exact p.hears_record (by simp) _
    | cons word argvs =>
      have htype : messageType word = none := Option.map_eq_none_iff.mp h
      rw [onSignal, onRemoteMessage, htype]
      exact .refl p _
  | printString msg => exact p.hears_record (by simp) _
  | nullSocket => exact p.hears_record (by simp) _
  | outOfRange => exact p.hears_record (by simp) _

theorem hears_foldl {sigs : List Signal} (h : ∀ sig ∈ sigs, incoming sig = none) (p : IceProber) :
    p.Hears (sigs.foldl onSignal p) sigs := by
  induction sigs generalizing p with
  | nil => exact .refl p []
  | cons sig sigs ih =>
    have hfirst := p.hears_onSignal (h sig List.mem_cons_self)
    exact hfirst.trans (ih (fun s hs => h s (List.mem_cons_of_mem _ hs)) _)

theorem hears_callPeer (p : IceProber) {f : Peer → Peer × List Signal} (h : ∀ sig ∈ (f p.peer).2, incoming sig = none) :
    p.Hears (p.callPeer f) (f p.peer).2 :=
  have hpeer : p.Hears { p with peer := (f p.peer).1 } [] :=
    ⟨rfl, rfl, rfl, id, List.prefix_refl _, fun _ => ⟨rfl, rfl⟩⟩
  hpeer.trans (hears_foldl h _)

/-- The signal says nothing of the other side. -/
def aboutServer : Signal → Bool
  | .online _ | .offline | .printString _ | .nullSocket => true
  | _ => false

omit [Host] in
theorem aboutServer_onStart_w (peer : Peer) (connectFails : Bool) : (peer.onStart_w connectFails).2.all aboutServer = true := by
  unfold Peer.onStart_w
  split <;> rfl

omit [Host] in
theorem aboutServer_onConnectEvent (peer : Peer) : peer.onConnectEvent.2.all aboutServer = true := by
  unfold Peer.onConnectEvent
  split
  · rfl
  · split <;> rfl

omit [Host] in
theorem aboutServer_onCloseEvent (peer : Peer) : peer.onCloseEvent.2.all aboutServer = true := by
  unfold Peer.onCloseEvent
  split
  · rfl
  · split <;> rfl

/-- Such signals change neither the queue nor `session_`. -/
theorem hears_aboutServer (p : IceProber) {f : Peer → Peer × List Signal} (h : (f p.peer).2.all aboutServer = true) :
    p.Hears (p.callPeer f) [] := by
  have hall : ∀ sig ∈ (f p.peer).2, aboutServer sig = true := List.all_eq_true.mp h
  have hincoming : ∀ sig ∈ (f p.peer).2, incoming sig = none := by
    intro sig hsig
    have habout := hall sig hsig
    cases sig with
    | remoteMessage remote msgBody => simp [aboutServer] at habout
    | _ => rfl
  have hhears := p.hears_callPeer hincoming
  refine ⟨hhears.session, hhears.timeouts, hhears.remote_name, hhears.log, hhears.tasks, fun _ => hhears.others ?_⟩
  intro hlogin
  simpa [aboutServer] using hall _ hlogin

/-- While there is no session, any event but a dispatch does what its frames say. -/
theorem hears_step {p q : IceProber} {e : Event} (he : ∀ i connectFails, e ≠ .dispatch i connectFails)
    (hsession : p.session = none) (htimeouts : p.timeouts = 0) (hmessage : ∀ sig ∈ p.heard e, incoming sig = none)
    (h : p.step e = some q) : p.Hears q (p.heard e) := by
  cases e with
  | dispatch i connectFails => exact absurd rfl (he i connectFails)
  | connect =>
    obtain rfl := Option.some.inj (Option.ite_none_right_eq_some.mp h).2
    have hsock : p.Hears (p.setSockState .connected) [] :=
      ⟨rfl, rfl, rfl, id, List.prefix_refl _, fun _ => ⟨rfl, rfl⟩⟩
    exact hsock.trans (hears_aboutServer _ (aboutServer_onConnectEvent _))
  | close =>
    obtain rfl := Option.some.inj (Option.ite_none_right_eq_some.mp h).2
    exact p.hears_aboutServer (aboutServer_onCloseEvent _)
  | read temp =>
    obtain ⟨⟨hsock, htemp, -⟩, h⟩ := Option.ite_none_right_eq_some.mp h
    obtain rfl := Option.some.inj h
    obtain ⟨msg, hsigs⟩ := Peer.onReadEvent_signals hsock htemp
    have hhears := p.hears_callPeer (f := fun peer => peer.onReadEvent temp) (by
      rw [hsigs]
      exact List.forall_mem_cons.mpr ⟨rfl, hmessage⟩)
    refine ⟨hhears.session, hhears.timeouts, hhears.remote_name, hhears.log, hhears.tasks, fun hnot => hhears.others ?_⟩
    rw [hsigs, List.mem_cons, not_or]
    exact ⟨by simp, hnot⟩
  | worker k w => simp [step, hsession] at h
  | channelWriteable =>
    obtain rfl := Option.some.inj (Option.ite_none_right_eq_some.mp h).2
    exact (p.hears_record (by simp) []).trans ⟨rfl, rfl, rfl, id, List.prefix_refl _, fun _ => ⟨rfl, rfl⟩⟩
  | timeout => simp [step, htimeouts] at h
  | doData =>
    obtain rfl := Option.some.inj (Option.ite_none_right_eq_some.mp h).2
    have htimer : p.Hears { p with dataTimers := p.dataTimers - 1 } [] :=
      ⟨rfl, rfl, rfl, id, List.prefix_refl _, fun _ => ⟨rfl, rfl⟩⟩
    exact (htimer.trans (hears_record _ (by simp) [])).trans
      ⟨rfl, rfl, rfl, id, List.prefix_refl _, fun _ => ⟨rfl, rfl⟩⟩

/-- `MSG_START` is dispatched. -/
theorem hears_start (p : IceProber) (connectFails : Bool) : p.Hears (p.dispatch connectFails .start) [] :=
  p.hears_aboutServer (f := fun peer => peer.onStart_w connectFails) (aboutServer_onStart_w _ connectFails)

/-- Without a session there is none after any function but `createSession_s`. -/
theorem session_onSignal_none {p : IceProber} (h : p.session = none) (sig : Signal) : (p.onSignal sig).session = none := by
  rcases hincoming : incoming sig with _ | msg
  · exact (session_onSignal hincoming p).1.trans h
  · rw [onSignal_incoming hincoming, callSession, h]
    exact h

theorem session_foldl_none (sigs : List Signal) {p : IceProber} (h : p.session = none) :
    (sigs.foldl onSignal p).session = none := by
  induction sigs generalizing p with
  | nil => exact h
  | cons sig sigs ih => exact ih (session_onSignal_none h sig)

theorem session_callPeer_none {p : IceProber} (h : p.session = none) (f : Peer → Peer × List Signal) :
    (p.callPeer f).session = none :=
  session_foldl_none (f p.peer).2 (p := { p with peer := (f p.peer).1 }) h

theorem session_callSession_none {p : IceProber} (h : p.session = none) (f : PPSession → PPSession) :
    p.callSession f = p.record .nullSession := by
  rw [callSession, h]

/-- A message that is heard without a session is a use of it. -/
theorem nullSession_foldl {sigs : List Signal} {sig : Signal} (hsig : sig ∈ sigs) (hincoming : incoming sig ≠ none)
    {p : IceProber} (h : p.session = none) : .nullSession ∈ (sigs.foldl onSignal p).log := by
  obtain ⟨as, bs, rfl⟩ := List.append_of_mem hsig
  obtain ⟨msg, hmsg⟩ := Option.ne_none_iff_exists'.mp hincoming
  have hbefore := session_foldl_none as h
  have hafter := advances_foldl advances_onSignal bs ((as.foldl onSignal p).onSignal sig)
  rw [List.foldl_append, List.foldl_cons]
  refine hafter.log.subset ?_
  rw [onSignal_incoming hmsg, session_callSession_none hbefore]
  exact List.mem_append_right _ (List.mem_singleton.mpr rfl)

/-- The first login of the other side posts `MSG_DO_INITIATE`. -/
theorem doInitiate_foldl {sigs : List Signal} (hincoming : ∀ sig ∈ sigs, incoming sig = none) {p : IceProber}
    (honline : p.remote_online = false) (hlogin : .remoteLogin p.remote_name ∈ sigs) :
    p.tasks ++ [.doInitiate] <+: (sigs.foldl onSignal p).tasks := by
  obtain ⟨as, bs, rfl, hfirst⟩ := List.eq_append_cons_of_mem hlogin
  have hbefore := hears_foldl (fun sig hsig => hincoming sig (List.mem_append_left _ hsig)) p
  obtain ⟨htasks, hsame⟩ := hbefore.others hfirst
  have hposts : ((as.foldl onSignal p).onSignal (.remoteLogin p.remote_name)).tasks = p.tasks ++ [.doInitiate] := by
    rw [onSignal, onRemoteLogin, if_pos ⟨hbefore.remote_name.symm, hsame.trans honline⟩, post, htasks]
  rw [List.foldl_append, List.foldl_cons, ← hposts]
  exact (advances_foldl advances_onSignal bs _).tasks

end IceProber

namespace Startup
open IceProber (heard incoming)

/-- Before the session is there no message of the other side is read, and before the message that makes it is posted
    no login of the other side. -/
def Timely (s : Startup) : Event → Prop
  | .post => True
  | .signaling e =>
    (s.prober.session = none → ∀ sig ∈ s.prober.heard e, incoming sig = none) ∧
      (.createSession ∈ s.posts → .remoteLogin s.prober.remote_name ∉ s.prober.heard e)

theorem step_cases {s t : Startup} {e : Event} (h : s.step e = some t) :
    (e = .post ∧ ∃ task, s.posts = task :: t.posts ∧ t.prober = s.prober.post task) ∨
    (∃ task rest connectFails, e = .signaling (.dispatch 0 connectFails) ∧ t.posts = s.posts ∧
      s.prober.tasks = task :: rest ∧ t.prober = { s.prober with tasks := rest }.dispatch connectFails task) ∨
    (∃ e', e = .signaling e' ∧ (∀ i connectFails, e' ≠ .dispatch i connectFails) ∧ t.posts = s.posts ∧
      s.prober.step e' = some t.prober) := by
  cases e with
  | post =>
    rw [step] at h
    rcases hposts : s.posts with _ | ⟨task, posts⟩
    · simp [hposts] at h
    · rw [hposts] at h
      obtain rfl := Option.some.inj h
      exact .inl ⟨rfl, task, rfl, rfl⟩
  | signaling e =>
    obtain ⟨horder, h⟩ := Option.ite_none_right_eq_some.mp h
    obtain ⟨prober, hprober, rfl⟩ := Option.map_eq_some_iff.mp h
    cases e with
    | dispatch i connectFails =>
      obtain rfl : i = 0 := by simpa [inOrder] using horder
      obtain ⟨task, htask, rfl⟩ := Option.map_eq_some_iff.mp hprober
      rcases htasks : s.prober.tasks with _ | ⟨first, rest⟩
      · simp [htasks] at htask
      · obtain rfl : first = task := by simpa [htasks] using htask
        exact .inr (.inl ⟨first, rest, connectFails, rfl, rfl, rfl, by simp⟩)
    | _ => exact .inr (.inr ⟨_, rfl, by simp, rfl, hprober⟩)

/-! ### Runs in which nothing is too early -/

/-- The session is there. -/
structure Built (s : Startup) : Prop where
  session : s.prober.session.isSome = true
  log : .nullSession ∉ s.prober.log
  posts : .createSession ∉ s.posts

/-- `MSG_CREATE_SESSION` is still to be posted, or it is in the queue. -/
def Queued (s : Startup) : Prop :=
  (∃ pre, s.posts = pre ++ [.createSession] ∧ (∀ task ∈ pre, task = .start) ∧ (∀ task ∈ s.prober.tasks, task = .start) ∧
    s.prober.remote_online = false) ∨
  (s.posts = [] ∧ ∃ pre rest, s.prober.tasks = pre ++ .createSession :: rest ∧ ∀ task ∈ pre, task = .start)

/-- Nobody has used the session, which is not there yet. -/
structure Early (s : Startup) : Prop where
  session : s.prober.session = none
  log : .nullSession ∉ s.prober.log
  timeouts : s.prober.timeouts = 0
  queued : s.Queued

theorem early_Login (output : Bool) (myName remoteName : CString) : (Login output myName remoteName).Early where
  session := rfl
  log := List.not_mem_nil
  timeouts := rfl
  queued := .inl ⟨[.start], rfl, by simp, by simp [Login], rfl⟩

theorem Built.step {s t : Startup} (h : s.Built) {e : Event} (hstep : s.step e = some t) : t.Built := by
  obtain ⟨-, task, hposts, hprober⟩ | ⟨task, rest, connectFails, -, hposts, htasks, hprober⟩ | ⟨e, -, he, hposts, hstep⟩ :=
    step_cases hstep
  · refine ⟨by rw [hprober]; exact h.session, by rw [hprober]; exact h.log, fun hcreate => h.posts ?_⟩
    rw [hposts]
    exact List.mem_cons_of_mem _ hcreate
  · have hadv := IceProber.advances_dispatch { s.prober with tasks := rest } connectFails task
    rw [← hprober] at hadv
    exact ⟨hadv.session h.session, fun hnull => h.log (hadv.clean h.session hnull), by rw [hposts]; exact h.posts⟩
  · have hadv := IceProber.advances_step he hstep
    exact ⟨hadv.session h.session, fun hnull => h.log (hadv.clean h.session hnull), by rw [hposts]; exact h.posts⟩

theorem Built.timely {s : Startup} (h : s.Built) (e : Event) : s.Timely e := by
  cases e with
  | post => trivial
  | signaling e =>
    refine ⟨fun hnone => ?_, fun hposts => absurd hposts h.posts⟩
    have hsome := h.session
    simp [hnone] at hsome

/-- The signals leave the posting of `MSG_CREATE_SESSION` as it is. -/
theorem Queued.hears {s t : Startup} (h : s.Queued) (hposts : t.posts = s.posts) {sigs : List Signal}
    (hhears : s.prober.Hears t.prober sigs)
    (hlogin : .createSession ∈ s.posts → .remoteLogin s.prober.remote_name ∉ sigs) : t.Queued := by
  obtain ⟨pre, hpre, hstarts, htasks, honline⟩ | ⟨hnil, pre, rest, htasks, hstarts⟩ := h
  · obtain ⟨hsame, hsame'⟩ := hhears.others (hlogin (by simp [hpre]))
    exact .inl ⟨pre, hposts.trans hpre, hstarts, by rw [hsame]; exact htasks, hsame'.trans honline⟩
  · obtain ⟨more, hmore⟩ := hhears.tasks
    exact .inr ⟨hposts.trans hnil, pre, rest ++ more, by rw [← hmore, htasks]; simp, hstarts⟩

theorem Early.hears {s t : Startup} (h : s.Early) (hposts : t.posts = s.posts) {sigs : List Signal}
    (hhears : s.prober.Hears t.prober sigs)
    (hlogin : .createSession ∈ s.posts → .remoteLogin s.prober.remote_name ∉ sigs) : t.Early where
  session := hhears.session.trans h.session
  log hnull := h.log (hhears.log hnull)
  timeouts := hhears.timeouts.trans h.timeouts
  queued := h.queued.hears hposts hhears hlogin

/-- A timely step leads on to the session. -/
theorem Early.step {s t : Startup} (h : s.Early) {e : Event} (htimely : s.Timely e) (hstep : s.step e = some t) :
    t.Early ∨ t.Built := by
  obtain ⟨-, task, hposts, hprober⟩ | ⟨task, rest, connectFails, -, hposts, htasks, hprober⟩ | ⟨e, rfl, he, hposts, hstep⟩ :=
    step_cases hstep
  · refine .inl ⟨by rw [hprober]; exact h.session, by rw [hprober]; exact h.log, by rw [hprober]; exact h.timeouts, ?_⟩
    obtain ⟨pre, hpre, hstarts, htasks, honline⟩ | ⟨hnil, -⟩ := h.queued
    · rcases pre with _ | ⟨first, pre⟩
      · rw [hposts, List.nil_append, List.cons.injEq] at hpre
        obtain ⟨rfl, hnil⟩ := hpre
        exact .inr ⟨hnil, s.prober.tasks, [], by rw [hprober]; rfl, htasks⟩
      · rw [hposts, List.cons_append, List.cons.injEq] at hpre
        obtain ⟨rfl, hpre⟩ := hpre
        obtain ⟨hstart, hstarts⟩ := List.forall_mem_cons.mp hstarts
        refine .inl ⟨pre, hpre, hstarts, ?_, by rw [hprober]; exact honline⟩
        rw [hprober]
        exact List.forall_mem_append.mpr ⟨htasks, by simpa using hstart⟩
    · rw [hnil] at hposts
      cases hposts
  · -- what is first in the queue is MSG_START, or it makes the session
    have hpopped (hfirst : task = .start) (hqueued : Queued { s with prober := { s.prober with tasks := rest } }) :
        t.Early := by
      have hearly : Early { s with prober := { s.prober with tasks := rest } } :=
        ⟨h.session, h.log, h.timeouts, hqueued⟩
      have hhears := IceProber.hears_start { s.prober with tasks := rest } connectFails
      rw [← hfirst, ← hprober] at hhears
      exact hearly.hears hposts hhears (by simp)
    obtain ⟨pre, hpre, hstarts, hall, honline⟩ | ⟨hnil, pre, later, hqueue, hstarts⟩ := h.queued
    · rw [htasks] at hall
      obtain ⟨hfirst, hall⟩ := List.forall_mem_cons.mp hall
      exact .inl (hpopped hfirst (.inl ⟨pre, hpre, hstarts, hall, honline⟩))
    · rcases pre with _ | ⟨first, pre⟩
      · rw [htasks, List.nil_append, List.cons.injEq] at hqueue
        obtain ⟨rfl, -⟩ := hqueue
        have hbuilt := IceProber.afterSession_built { s.prober with tasks := rest }
          (((PPSession.new false).set_allow_local_ips true).CreateChannel s.prober.content_name s.prober.channel_name)
        refine .inr ⟨?_, fun hnull => h.log (hbuilt.2.2 ?_), by rw [hposts, hnil]; exact List.not_mem_nil⟩
        · rw [hprober]
          exact hbuilt.2.1
        · rw [hprober] at hnull
          exact hnull
      · rw [htasks, List.cons_append, List.cons.injEq] at hqueue
        obtain ⟨rfl, hqueue⟩ := hqueue
        obtain ⟨hfirst, hstarts⟩ := List.forall_mem_cons.mp hstarts
        exact .inl (hpopped hfirst (.inr ⟨hnil, pre, later, hqueue, hstarts⟩))
  · exact .inl (h.hears hposts (IceProber.hears_step he h.session h.timeouts (htimely.1 h.session) hstep) htimely.2)

/-! ### Runs in which something is too early -/

/-- `session_` has been used, or what uses it comes before what makes it. -/
def Doomed (s : Startup) : Prop :=
  .nullSession ∈ s.prober.log ∨
    (s.prober.session = none ∧ ∃ pre rest, s.prober.tasks = pre ++ .doInitiate :: rest ∧ .createSession ∉ pre)

/-- While there is no session, a message of the queue that does not make it leaves it at that. -/
theorem dispatch_none {p : IceProber} (h : p.session = none) (connectFails : Bool) {task : Task}
    (hcreate : task ≠ .createSession) :
    .nullSession ∈ (p.dispatch connectFails task).log ∨ (p.dispatch connectFails task).session = none := by
  have hused : .nullSession ∈ (p.record .nullSession).log := List.mem_append_right _ (List.mem_singleton.mpr rfl)
  cases task with
  | start => exact .inr (IceProber.session_callPeer_none h fun peer => peer.onStart_w connectFails)
  | createSession => exact absurd rfl hcreate
  | doInitiate =>
    rw [IceProber.dispatch, IceProber.doInitiate_s, h]
    exact .inl hused
  | doAccept =>
    rw [IceProber.dispatch, IceProber.doAccept_s, h]
    exact .inl hused
  | state =>
    rw [IceProber.dispatch, IceProber.session_callSession_none h]
    exact .inl hused
  | transport k task =>
    rw [IceProber.dispatch, IceProber.session_callSession_none h]
    exact .inl hused

theorem step_none {p q : IceProber} (h : p.session = none) {e : IceProber.Event}
    (he : ∀ i connectFails, e ≠ .dispatch i connectFails) (hstep : p.step e = some q) :
    .nullSession ∈ q.log ∨ q.session = none := by
  cases e with
  | dispatch i connectFails => exact absurd rfl (he i connectFails)
  | connect =>
    obtain rfl := Option.some.inj (Option.ite_none_right_eq_some.mp hstep).2
    exact .inr (IceProber.session_callPeer_none (p := p.setSockState .connected) h _)
  | close =>
    obtain rfl := Option.some.inj (Option.ite_none_right_eq_some.mp hstep).2
    exact .inr (IceProber.session_callPeer_none h _)
  | read temp =>
    obtain rfl := Option.some.inj (Option.ite_none_right_eq_some.mp hstep).2
    exact .inr (IceProber.session_callPeer_none h _)
  | worker k w => simp [IceProber.step, h] at hstep
  | channelWriteable =>
    obtain rfl := Option.some.inj (Option.ite_none_right_eq_some.mp hstep).2
    exact .inr h
  | timeout =>
    obtain rfl := Option.some.inj (Option.ite_none_right_eq_some.mp hstep).2
    rw [IceProber.session_callSession_none (p := { p with timeouts := p.timeouts - 1 }) h]
    exact .inl (List.mem_append_right _ (List.mem_singleton.mpr rfl))
  | doData =>
    obtain rfl := Option.some.inj (Option.ite_none_right_eq_some.mp hstep).2
    exact .inr h

theorem Doomed.step {s t : Startup} (h : s.Doomed) {e : Event} (hstep : s.step e = some t) : t.Doomed := by
  obtain ⟨-, task, -, hprober⟩ | ⟨task, rest, connectFails, -, -, htasks, hprober⟩ | ⟨e, -, he, -, hstep⟩ := step_cases hstep
  · rw [Doomed, hprober]
    obtain hused | ⟨hnone, pre, rest, htasks, hpre⟩ := h
    · exact .inl hused
    · exact .inr ⟨hnone, pre, rest ++ [task], by simp [IceProber.post, htasks], hpre⟩
  · have hadv := IceProber.advances_dispatch { s.prober with tasks := rest } connectFails task
    rw [Doomed, hprober]
    obtain hused | ⟨hnone, pre, later, hqueue, hpre⟩ := h
    · exact .inl (hadv.log.subset hused)
    · rcases pre with _ | ⟨first, pre⟩
      · -- the use itself is dispatched
        rw [htasks, List.nil_append, List.cons.injEq] at hqueue
        obtain ⟨rfl, -⟩ := hqueue
        refine .inl ?_
        rw [IceProber.dispatch, IceProber.doInitiate_s]
        simp [hnone, IceProber.record]
      · rw [htasks, List.cons_append, List.cons.injEq] at hqueue
        obtain ⟨rfl, hqueue⟩ := hqueue
        rw [List.mem_cons, not_or] at hpre
        have hdispatch := dispatch_none (p := { s.prober with tasks := rest }) hnone connectFails (Ne.symm hpre.1)
        refine hdispatch.imp_right fun hnone => ⟨hnone, pre, ?_⟩
        obtain ⟨more, hmore⟩ := hadv.tasks
        exact ⟨later ++ more, by rw [← hmore, hqueue]; simp, hpre.2⟩
  · have hadv := IceProber.advances_step he hstep
    obtain hused | ⟨hnone, pre, rest, htasks, hpre⟩ := h
    · exact .inl (hadv.log.subset hused)
    · refine (step_none hnone he hstep).imp_right fun hnone => ⟨hnone, pre, ?_⟩
      obtain ⟨more, hmore⟩ := hadv.tasks
      exact ⟨rest ++ more, by rw [← hmore, htasks]; simp, hpre⟩

/-- A step that is not timely. -/
theorem Early.doomed {s t : Startup} (h : s.Early) {e : Event} (huntimely : ¬ s.Timely e) (hstep : s.step e = some t) :
    t.Doomed := by
  obtain ⟨rfl, -⟩ | ⟨task, rest, connectFails, rfl, -⟩ | ⟨e, rfl, he, hposts, hstep⟩ := step_cases hstep
  · exact absurd trivial huntimely
  · exact absurd ⟨fun _ => by simp [IceProber.heard], fun _ => by simp [IceProber.heard]⟩ huntimely
  · cases e with
    | read temp =>
      obtain ⟨⟨hsock, htemp, -⟩, hread⟩ := Option.ite_none_right_eq_some.mp hstep
      have hprober : s.prober.callPeer (fun peer => peer.onReadEvent temp) = t.prober := Option.some.inj hread
      obtain ⟨msg, hsigs⟩ := Peer.onReadEvent_signals hsock htemp
      by_cases hmessage : ∀ sig ∈ s.prober.heard (.read temp), incoming sig = none
      · -- a login of the other side
        have hlogin : .createSession ∈ s.posts ∧ .remoteLogin s.prober.remote_name ∈ s.prober.heard (.read temp) := by
          by_contra hno
          exact huntimely ⟨fun _ => hmessage, fun hcreate hlogin => hno ⟨hcreate, hlogin⟩⟩
        obtain ⟨pre, hpre, -, hstarts, honline⟩ | ⟨hnil, -⟩ := h.queued
        · have hhears := IceProber.hears_step he h.session h.timeouts hmessage hstep
          have hfront : s.prober.tasks ++ [.doInitiate] <+: t.prober.tasks := by
            rw [← hprober]
            refine IceProber.doInitiate_foldl (p := { s.prober with peer := (s.prober.peer.onReadEvent temp).1 }) ?_ honline ?_
            · rw [hsigs]
              exact List.forall_mem_cons.mpr ⟨rfl, hmessage⟩
            · rw [hsigs]
              exact List.mem_cons_of_mem _ hlogin.2
          obtain ⟨more, hmore⟩ := hfront
          refine .inr ⟨hhears.session.trans h.session, s.prober.tasks, more, by rw [← hmore]; simp, fun hcreate => ?_⟩
          cases hstarts _ hcreate
        · rw [hnil] at hlogin
          exact absurd hlogin.1 List.not_mem_nil
      · -- a message of the other side
        simp only [not_forall] at hmessage
        obtain ⟨sig, hsig, hincoming⟩ := hmessage
        refine .inl ?_
        rw [← hprober]
        refine IceProber.nullSession_foldl ?_ hincoming h.session
        rw [hsigs]
        exact List.mem_cons_of_mem _ hsig
    | _ => exact absurd ⟨fun _ => by simp [IceProber.heard], fun _ => by simp [IceProber.heard]⟩ huntimely

/-! ### Runs -/

/-- No handler uses `session_` too early in a run that keeps to what is timely, and in no other run that comes to
    a session. -/
theorem session_before_use {output : Bool} {myName remoteName : CString} {es : List Event} {s : Startup}
    (hrun : (Login output myName remoteName).run es = some s) :
    (Machine.Along step Timely (Login output myName remoteName) es → .nullSession ∉ s.prober.log) ∧
      (s.prober.session.isSome = true → .nullSession ∉ s.prober.log →
        Machine.Along step Timely (Login output myName remoteName) es) := by
  have hsplit := Machine.along_or_left (P := Timely) (I := fun s => s.Early ∨ s.Built) (D := Doomed)
    (fun s e t h htimely hstep => h.elim (fun h => h.step htimely hstep) fun h => .inr (h.step hstep))
    (fun s e t h huntimely hstep =>
      h.elim (fun h => h.doomed huntimely hstep) fun h => absurd (h.timely e) huntimely)
    (fun s e t h hstep => h.step hstep) (.inl (early_Login output myName remoteName)) hrun
  obtain ⟨halong, hend⟩ | ⟨hnot, hdoomed⟩ := hsplit
  · exact ⟨fun _ => hend.elim (fun h => h.log) fun h => h.log, fun _ _ => halong⟩
  · refine ⟨fun halong => absurd halong hnot, fun hsome hlog => ?_⟩
    obtain hused | ⟨hnone, -⟩ := hdoomed
    · exact absurd hused hlog
    · simp [hnone] at hsome

end Startup

end

/-! ### A login of the other side between the two posts -/

namespace Startup
attribute [local instance] Host.plain

/-- Both messages are posted before the connection is there. -/
def usual : List Event :=
  [.post, .post, .signaling (.dispatch 0 false), .signaling (.dispatch 0 false), .signaling .connect,
    .signaling (.read (cstr "<login:b>")), .signaling (.dispatch 0 false)]

theorem session_before_use_usual :
    Machine.Along step Timely (Login false (cstr "a") (cstr "b")) usual ∧
      .nullSession ∉ (((Login false (cstr "a") (cstr "b")).run usual).get (by decide)).prober.log := by
  have hrun := session_before_use (Option.some_get (x := (Login false (cstr "a") (cstr "b")).run usual) (by decide)).symm
  have halong := hrun.2 (by decide) (by decide)
  exact ⟨halong, hrun.1 halong⟩

/-- The other side logs in after the first post, and the second one comes too late. -/
def hurried : List Event :=
  [.post, .signaling (.dispatch 0 false), .signaling .connect, .signaling (.read (cstr "<login:b>")),
    .signaling (.dispatch 0 false)]

theorem session_used_too_early :
    ∃ s, (Login false (cstr "a") (cstr "b")).run hurried = some s ∧ .nullSession ∈ s.prober.log :=
  ⟨_, (Option.some_get (by decide)).symm, by decide⟩

end Startup

end ProbICE
