import ProbICE.PeerRun

/-! # The life of a connection

`isOnline` is true from the constructor on, so a peer is taken to be online before it has ever been connected. Until the
first connect or close event the flag is wrong, and when that event is a close event, so is the signal that it
raises. From then on all is well. -/

namespace ProbICE

/-! ### The functions of the peer -/

namespace Peer

/-- The socket is there and connected. -/
def Connected (p : Peer) : Prop := ∃ sock, p.sock = some sock ∧ sock.state = .connected

theorem connected_iff {p : Peer} : p.Connected ↔ p.sock.map (·.state) = some .connected := by
  rw [Option.map_eq_some_iff]
  rfl

theorem not_connected_of_none {p : Peer} (h : p.sock = none) : ¬ p.Connected := by
  rintro ⟨sock, hsock, -⟩
  rw [h] at hsock
  cases hsock

theorem filter_signalsOf (words : List CString) : (signalsOf words).filter Signal.isConnection = [] := by
  have hsecond : ∀ signal : CString → Signal, (∀ w, (signal w).isConnection = false) →
      [withSecond words signal].filter Signal.isConnection = [] := by
    intro signal hsignal
    cases hw : words[1]? with
    | none => simp [withSecond, hw, Signal.isConnection]
    | some w => simp [withSecond, hw, hsignal w]
  cases words with
  | nil => rfl
  | cons word words =>
    simp only [signalsOf]
    split_ifs
    · exact hsecond _ fun _ => rfl
    · exact hsecond _ fun _ => rfl
    · exact hsecond _ fun _ => rfl
    · exact hsecond _ fun _ => rfl
    · rfl

theorem filter_readBytes (xmlBuffer : CString) (bs : List UInt8) :
    (readBytes xmlBuffer bs).2.filter Signal.isConnection = [] := by
  induction bs generalizing xmlBuffer with
  | nil => rfl
  | cons b bs ih =>
    rw [readBytes]
    split
    · rw [List.filter_append, processXML, filter_signalsOf, ih]
      rfl
    · exact ih _

/-- Reading raises no signal of the connection and leaves the socket and the flag as they are. -/
theorem onReadEvent_same (p : Peer) (temp : List UInt8) :
    (p.onReadEvent temp).1.isOnline = p.isOnline ∧ (p.onReadEvent temp).1.sock = p.sock ∧
      (p.onReadEvent temp).2.filter Signal.isConnection = [] := by
  unfold onReadEvent
  split
  · exact ⟨rfl, rfl, rfl⟩
  · split
    · exact ⟨rfl, rfl, rfl⟩
    · exact ⟨rfl, rfl, filter_readBytes p.xmlBuffer temp⟩

theorem state_Send (sock : AsyncSocket) (pv : List UInt8) : (sock.Send pv).1.state = sock.state := by
  unfold AsyncSocket.Send
  split
  · rfl
  · split <;> rfl

/-- Sending raises no signal of the connection and keeps the state of the socket. -/
theorem SendMessage_same (p : Peer) (to_ : CString) (msg : List CString) :
    (p.SendMessage to_ msg).1.isOnline = p.isOnline ∧
      (p.SendMessage to_ msg).1.sock.map (·.state) = p.sock.map (·.state) ∧
      (p.SendMessage to_ msg).2.1.filter Signal.isConnection = [] := by
  unfold SendMessage
  split
  · exact ⟨rfl, rfl, rfl⟩
  · cases hsock : p.sock with
    | none => exact ⟨rfl, by rw [hsock], rfl⟩
    | some sock => exact ⟨rfl, congrArg some (state_Send sock _), rfl⟩

/-- The flag tells whether the socket is connected. -/
structure Right (p : Peer) : Prop where
  /-- The peer is online only while its socket is connected. -/
  online : p.isOnline = true → p.Connected
  /-- `SendMessage` does not use a socket that is not there. -/
  socket : ∀ to_ msg, .nullSocket ∉ (p.SendMessage to_ msg).2.1
  /-- `SendMessage` answers -1 while the socket is not connected. -/
  refused : ∀ to_ msg, ¬ p.Connected → (p.SendMessage to_ msg).2.2 = -1

theorem right_iff {p : Peer} : p.Right ↔ (p.isOnline = true → p.Connected) := by
  refine ⟨Right.online, fun h => ⟨h, fun to_ msg hmem => ?_, fun to_ msg hnot => ?_⟩⟩
  · by_cases hon : p.isOnline = true
    · obtain ⟨sock, hsock, -⟩ := h hon
      simp [SendMessage, hon, hsock] at hmem
    · simp [SendMessage, hon] at hmem
  · have hoff : ¬ p.isOnline = true := fun hon => hnot (h hon)
    simp [SendMessage, hoff]

end Peer

/-! ### Steps -/

namespace PeerRun

/-- What an event does to the flag, the socket and the signals. -/
inductive Change (r t : PeerRun) : Event → Prop where
  | startFails (hnone : r.peer.sock = none) (hon : t.peer.isOnline = r.peer.isOnline) (hsock : t.peer.sock = none)
    (hsignals : t.signals = r.signals ++ [.online false]) (hattempt : t.attempt = some [.online false]) :
    Change r t (.start true)
  | start (hnone : r.peer.sock = none) (hon : t.peer.isOnline = r.peer.isOnline) (hsome : t.peer.sock.isSome)
    (hsock : ¬ t.peer.Connected) (hsignals : t.signals = r.signals) (hattempt : t.attempt = some []) :
    Change r t (.start false)
  | connect (answers : List (Option Nat)) (hsome : r.peer.sock.isSome) (hon : t.peer.isOnline = true)
    (hsock : t.peer.Connected) (hsignals : t.signals = r.signals ++ [.online true]) (hattempt : t.attempt = r.attempt.map (· ++ [.online true])) :
    Change r t (.connect true answers)
  | close (hsome : r.peer.sock.isSome) (hon : t.peer.isOnline = false) (hsock : t.peer.sock = none)
    (hsignals : t.signals = r.signals ++ [if r.peer.isOnline then .offline else .online false])
    (hattempt : t.attempt = r.attempt.map (· ++ [if r.peer.isOnline then .offline else .online false])) :
    Change r t .close
  | other {e : Event} (hconnect : ∀ answers, e ≠ .connect true answers) (hclose : e ≠ .close)
    (hon : t.peer.isOnline = r.peer.isOnline) (hsome : t.peer.sock.isSome = r.peer.sock.isSome)
    (hsock : t.peer.Connected ↔ r.peer.Connected) (hsignals : t.signals = r.signals) (hattempt : t.attempt = r.attempt) :
    Change r t e

theorem eq_none_of_isSome_eq {α : Type} {o o' : Option α} (h : o.isSome = o'.isSome) (hnone : o = none) : o' = none := by
  rw [hnone, Option.isSome_none] at h
  exact Option.isNone_iff_eq_none.mp (Option.isSome_eq_false_iff.mp h.symm)

/-- A function of the peer that raises no signal of the connection. -/
theorem after_quiet (r : PeerRun) (result : Peer × List Signal) (h : result.2.filter Signal.isConnection = []) :
    (r.after result).signals = r.signals ∧ (r.after result).attempt = r.attempt := by
  rw [after, h]
  simp

theorem change_of_step {r t : PeerRun} {e : Event} (h : r.step e = some t) : Change r t e := by
  cases e with
  | start connectFails =>
    obtain ⟨hnone, h⟩ := Option.ite_none_right_eq_some.mp h
    obtain rfl := Option.some.inj h
    rw [Option.isNone_iff_eq_none] at hnone
    cases connectFails with
    | true => exact .startFails hnone rfl rfl rfl rfl
    | false =>
      refine .start hnone rfl rfl ?_ (List.append_nil _) rfl
      rintro ⟨sock, hsock, hstate⟩
      obtain rfl := Option.some.inj hsock
      cases hstate
  | connect connected answers =>
    simp only [step] at h
    cases hsock : r.peer.sock with
    | none => simp [hsock] at h
    | some sock =>
      rw [hsock] at h
      obtain ⟨hstate, h⟩ := Option.ite_none_right_eq_some.mp h
      obtain rfl := Option.some.inj h
      cases connected with
      | true => exact .connect answers (by rw [hsock]; rfl) rfl ⟨_, rfl, Peer.state_Send _ _⟩ rfl rfl
      | false =>
        obtain ⟨hsignals, hattempt⟩ := r.after_quiet (_, []) rfl
        refine .other (by simp) (by simp) rfl (by rw [hsock]; rfl) ?_ hsignals hattempt
        have hnow : ¬ r.peer.Connected := by
          rintro ⟨sock', hsock', hstate'⟩
          obtain rfl := Option.some.inj (hsock.symm.trans hsock')
          rw [hstate] at hstate'
          cases hstate'
        refine iff_of_false ?_ hnow
        rintro ⟨sock', hsock', hstate'⟩
        obtain rfl := Option.some.inj hsock'
        cases hstate'
  | close =>
    obtain ⟨hsome, h⟩ := Option.ite_none_right_eq_some.mp h
    obtain rfl := Option.some.inj h
    obtain ⟨sock, hsock⟩ := Option.isSome_iff_exists.mp hsome
    cases hon : r.peer.isOnline with
    | true =>
      have hclose : r.peer.onCloseEvent = ({ r.peer with sock := none, isOnline := false }, [.offline]) := by
        simp [Peer.onCloseEvent, hsock, hon]
      rw [hclose]
      exact .close hsome rfl rfl (by rw [hon]; rfl) (by rw [hon]; rfl)
    | false =>
      have hclose : r.peer.onCloseEvent = ({ r.peer with sock := none }, [.online false]) := by
        simp [Peer.onCloseEvent, hsock, hon]
      rw [hclose]
      exact .close hsome hon rfl (by rw [hon]; rfl) (by rw [hon]; rfl)
  | read temp =>
    obtain ⟨-, h⟩ := Option.ite_none_right_eq_some.mp h
    obtain rfl := Option.some.inj h
    obtain ⟨hon, hsock, hquiet⟩ := Peer.onReadEvent_same r.peer temp
    obtain ⟨hsignals, hattempt⟩ := r.after_quiet _ hquiet
    have hstate := congrArg (Option.map AsyncSocket.state) hsock
    exact .other (by simp) (by simp) hon (congrArg Option.isSome hsock)
      (by rw [Peer.connected_iff, Peer.connected_iff]; exact Eq.congr_left hstate) hsignals hattempt
  | send to_ msg =>
    obtain rfl := Option.some.inj h
    obtain ⟨hon, hstate, hquiet⟩ := Peer.SendMessage_same r.peer to_ msg
    obtain ⟨hsignals, hattempt⟩ := r.after_quiet ((r.peer.SendMessage to_ msg).1, _) hquiet
    refine .other (by simp) (by simp) hon ?_ (by rw [Peer.connected_iff, Peer.connected_iff]; exact Eq.congr_left hstate)
      hsignals hattempt
    have hsome := congrArg Option.isSome hstate
    rwa [Option.isSome_map, Option.isSome_map] at hsome

/-! ### Runs -/

/-- `SignalOffline` and `SignalOnline(false)` are raised when they should be. -/
structure SignalsRight (r : PeerRun) : Prop where
  /-- `SignalOffline` is raised only after `SignalOnline(true)`. -/
  offline : ∀ before after, r.signals = before ++ .offline :: after → .online true ∈ before
  /-- An attempt that is over without success has raised `SignalOnline(false)` once and nothing else. -/
  failed : ∀ signals, r.attempt = some signals → r.peer.sock = none → .online true ∉ signals → signals = [.online false]

/-- The socket has been connected. -/
def Succeeds (es : List Event) : Prop := ∃ answers, .connect true answers ∈ es

/-- There has not been a successful connect event, nor a close event. -/
structure Waiting (r : PeerRun) : Prop where
  online : r.peer.isOnline = true
  connected : ¬ r.peer.Connected
  unheard : .online true ∉ r.signals
  offline : .offline ∉ r.signals
  pending : r.peer.sock.isSome → r.attempt = some []
  failed : ∀ signals, r.attempt = some signals → r.peer.sock = none → signals = [.online false]

/-- There has been a successful connect event, and no close event before it. -/
structure Sound (r : PeerRun) : Prop extends SignalsRight r where
  heard : .online true ∈ r.signals
  on : r.peer.isOnline = true → r.peer.Connected ∧ ∃ signals, r.attempt = some signals ∧ .online true ∈ signals
  off : r.peer.isOnline = false → r.peer.sock.isSome → r.attempt = some []

theorem init_waiting (id : CString) : (init id).Waiting where
  online := rfl
  connected := Peer.not_connected_of_none rfl
  unheard := List.not_mem_nil
  offline := List.not_mem_nil
  pending h := by cases h
  failed signals h := by cases h

/-- While the peer waits its signals are right. -/
theorem Waiting.right {r : PeerRun} (h : r.Waiting) : r.SignalsRight where
  offline before _ hsplit := absurd (hsplit ▸ List.mem_append_right before List.mem_cons_self) h.offline
  failed signals hattempt hsock _ := h.failed signals hattempt hsock

theorem offline_append {signals : List Signal} {sig : Signal}
    (h : ∀ before after, signals = before ++ .offline :: after → .online true ∈ before)
    (hsig : sig = .offline → .online true ∈ signals) (before after : List Signal)
    (hsplit : signals ++ [sig] = before ++ .offline :: after) : .online true ∈ before := by
  rcases List.eq_nil_or_concat after with rfl | ⟨after, last, rfl⟩
  · obtain ⟨rfl, hlast⟩ := List.append_inj' hsplit rfl
    exact hsig (List.cons.inj hlast).1
  · rw [List.concat_eq_append, ← List.cons_append, ← List.append_assoc] at hsplit
    exact h before after (List.append_inj' hsplit rfl).1

theorem Waiting.keep {r t : PeerRun} {e : Event} (h : r.Waiting) (hconnect : ∀ answers, e ≠ .connect true answers)
    (hclose : e ≠ .close) (hstep : r.step e = some t) : t.Waiting := by
  cases change_of_step hstep with
  | startFails hnone hon hsock hsignals hattempt =>
    refine ⟨hon.trans h.online, Peer.not_connected_of_none hsock, ?_, ?_, ?_, ?_⟩
    · simpa [hsignals] using h.unheard
    · simpa [hsignals] using h.offline
    · intro hsome
      rw [hsock] at hsome
      cases hsome
    · intro signals hsome _
      exact (Option.some.inj (hattempt.symm.trans hsome)).symm
  | start hnone hon hsome hsock hsignals hattempt =>
    refine ⟨hon.trans h.online, hsock, hsignals ▸ h.unheard, hsignals ▸ h.offline, fun _ => hattempt, ?_⟩
    intro signals _ hnone
    rw [hnone] at hsome
    cases hsome
  | connect answers => exact absurd rfl (hconnect answers)
  | close => exact absurd rfl hclose
  | other _ _ hon hsome hsock hsignals hattempt =>
    refine ⟨hon.trans h.online, fun hnow => h.connected (hsock.mp hnow), hsignals ▸ h.unheard, hsignals ▸ h.offline, ?_, ?_⟩
    · intro hnow
      rw [hattempt]
      exact h.pending (hsome ▸ hnow)
    · intro signals hnow hnone
      rw [hattempt] at hnow
      exact h.failed signals hnow (eq_none_of_isSome_eq hsome hnone)

theorem Waiting.connect {r t : PeerRun} {answers : List (Option Nat)} (h : r.Waiting)
    (hstep : r.step (.connect true answers) = some t) : t.Sound := by
  cases change_of_step hstep with
  | connect _ hsome hon hsock hsignals hattempt =>
    rw [h.pending hsome] at hattempt
    refine ⟨⟨?_, ?_⟩, ?_, ?_, ?_⟩
    · rw [hsignals]
      exact offline_append h.right.offline (by simp)
    · intro signals _ hnone
      exact absurd hsock (Peer.not_connected_of_none hnone)
    · simp [hsignals]
    · exact fun _ => ⟨hsock, _, hattempt, by simp⟩
    · intro hoff
      rw [hon] at hoff
      cases hoff
  | other hconnect => exact absurd rfl (hconnect answers)

theorem Waiting.close {r t : PeerRun} (h : r.Waiting) (hstep : r.step .close = some t) : ¬ t.SignalsRight := by
  intro hright
  cases change_of_step hstep with
  | close _ _ _ hsignals =>
    rw [h.online, if_pos rfl] at hsignals
    exact h.unheard (hright.offline _ _ hsignals)
  | other _ hclose => exact absurd rfl hclose

theorem Sound.keep {r t : PeerRun} {e : Event} (h : r.Sound) (hstep : r.step e = some t) : t.Sound := by
  have hoffline : r.peer.sock = none → r.peer.isOnline ≠ true :=
    fun hnone hon => Peer.not_connected_of_none hnone (h.on hon).1
  cases change_of_step hstep with
  | startFails hnone hon hsock hsignals hattempt =>
    refine ⟨⟨?_, ?_⟩, by simp [hsignals, h.heard], fun honline => absurd (hon ▸ honline) (hoffline hnone), ?_⟩
    · rw [hsignals]
      exact offline_append h.offline (by simp)
    · intro signals hsome _ _
      exact (Option.some.inj (hattempt.symm.trans hsome)).symm
    · intro _ hsome
      rw [hsock] at hsome
      cases hsome
  | start hnone hon hsome hsock hsignals hattempt =>
    refine ⟨⟨hsignals ▸ h.offline, ?_⟩, hsignals ▸ h.heard, fun honline => absurd (hon ▸ honline) (hoffline hnone),
      fun _ _ => hattempt⟩
    intro signals _ hnone
    rw [hnone] at hsome
    cases hsome
  | connect answers hsome hon hsock hsignals hattempt =>
    have hbegun : ∃ signals, r.attempt = some signals := by
      cases honline : r.peer.isOnline with
      | true => exact (h.on honline).2.imp fun _ hattempt => hattempt.1
      | false => exact ⟨_, h.off honline hsome⟩
    obtain ⟨before, hbefore⟩ := hbegun
    rw [hbefore] at hattempt
    refine ⟨⟨?_, ?_⟩, by simp [hsignals], fun _ => ⟨hsock, _, hattempt, by simp⟩, ?_⟩
    · rw [hsignals]
      exact offline_append h.offline (by simp)
    · intro signals _ hnone
      exact absurd hsock (Peer.not_connected_of_none hnone)
    · intro hoff
      rw [hon] at hoff
      cases hoff
  | close hsome hon hsock hsignals hattempt =>
    refine ⟨⟨?_, ?_⟩, by simp [hsignals, h.heard], by simp [hon], by simp [hsock]⟩
    · rw [hsignals]
      exact offline_append h.offline fun _ => h.heard
    · intro signals hnow _ hunheard
      cases honline : r.peer.isOnline with
      | true =>
        -- the attempt has succeeded
        obtain ⟨before, hbefore, hmem⟩ := (h.on honline).2
        rw [hattempt, hbefore] at hnow
        obtain rfl := Option.some.inj hnow
        exact absurd (List.mem_append_left _ hmem) hunheard
      | false =>
        rw [hattempt, h.off honline hsome, honline] at hnow
        exact (Option.some.inj hnow).symm
  | other _ _ hon hsome hsock hsignals hattempt =>
    refine ⟨⟨hsignals ▸ h.offline, ?_⟩, hsignals ▸ h.heard, ?_, ?_⟩
    · intro signals hnow hnone
      rw [hattempt] at hnow
      exact h.failed signals hnow (eq_none_of_isSome_eq hsome hnone)
    · intro honline
      obtain ⟨hconnected, hheard⟩ := h.on (hon ▸ honline)
      exact ⟨hsock.mpr hconnected, hattempt ▸ hheard⟩
    · intro honline hnow
      rw [hattempt]
      exact h.off (hon ▸ honline) (hsome ▸ hnow)

/-- After the first connect or close event the flag is right. -/
theorem right_keep {r t : PeerRun} {e : Event} (h : r.peer.isOnline = true → r.peer.Connected)
    (hstep : r.step e = some t) : t.peer.isOnline = true → t.peer.Connected := by
  intro honline
  cases change_of_step hstep with
  | startFails hnone hon => exact absurd (h (hon ▸ honline)) (Peer.not_connected_of_none hnone)
  | start hnone hon => exact absurd (h (hon ▸ honline)) (Peer.not_connected_of_none hnone)
  | connect _ _ _ hsock => exact hsock
  | close _ hon =>
    rw [hon] at honline
    cases honline
  | other _ _ hon _ hsock => exact hsock.mpr (h (hon ▸ honline))

/-- The socket has reported what becomes of the connection. -/
def Begun (es : List Event) : Prop := Succeeds es ∨ .close ∈ es

theorem begun_append {past : List Event} {e : Event} :
    Begun (past ++ [e]) ↔ Begun past ∨ (∃ answers, e = .connect true answers) ∨ e = .close := by
  simp only [Begun, Succeeds, List.mem_append, List.mem_singleton, exists_or, eq_comm (b := e)]
  tauto

theorem run_waiting_or_right {id : CString} {r : PeerRun} {es : List Event} (hrun : run (init id) es = some r) :
    (¬ Begun es ∧ r.Waiting) ∨ (Begun es ∧ (r.peer.isOnline = true → r.peer.Connected)) := by
  refine Machine.run_keeps_past (J := fun past r =>
    (¬ Begun past ∧ r.Waiting) ∨ (Begun past ∧ (r.peer.isOnline = true → r.peer.Connected))) ?_ []
    (.inl ⟨by simp [Begun, Succeeds], init_waiting id⟩) hrun
  rintro past s t e - (⟨hnot, hwait⟩ | ⟨hbegun, hright⟩) hstep
  · by_cases hconnect : ∃ answers, e = .connect true answers
    · obtain ⟨answers, rfl⟩ := hconnect
      exact .inr ⟨begun_append.mpr (.inr (.inl ⟨answers, rfl⟩)), fun honline => ((hwait.connect hstep).on honline).1⟩
    · by_cases hclose : e = .close
      · subst hclose
        refine .inr ⟨begun_append.mpr (.inr (.inr rfl)), fun honline => ?_⟩
        cases change_of_step hstep with
        | close _ hon =>
          rw [hon] at honline
          cases honline
        | other _ hclose => exact absurd rfl hclose
      · refine .inl ⟨?_, hwait.keep (fun answers he => hconnect ⟨answers, he⟩) hclose hstep⟩
        rw [begun_append]
        rintro (hbegun | he | he)
        exacts [hnot hbegun, hconnect he, hclose he]
  · exact .inr ⟨begun_append.mpr (.inl hbegun), right_keep hright hstep⟩

/-- The first close event comes after a successful connect event. -/
def ClosedAfterSuccess (es : List Event) : Prop := ∀ es₁ es₂, es = es₁ ++ .close :: es₂ → .close ∉ es₁ → Succeeds es₁

theorem ClosedAfterSuccess.front {past rest : List Event} (h : ClosedAfterSuccess (past ++ rest)) :
    ClosedAfterSuccess past := fun es₁ es₂ hpast =>
  h es₁ (es₂ ++ rest) (by rw [hpast, List.append_assoc, List.cons_append])

theorem run_sound {id : CString} {r : PeerRun} {es : List Event} (hrun : run (init id) es = some r)
    (hclose : ClosedAfterSuccess es) : (¬ Begun es ∧ r.Waiting) ∨ r.Sound := by
  refine Machine.run_keeps_past (J := fun past r => ClosedAfterSuccess past → (¬ Begun past ∧ r.Waiting) ∨ r.Sound)
    ?_ [] (fun _ => .inl ⟨by simp [Begun, Succeeds], init_waiting id⟩) hrun hclose
  intro past s t e _ hs hstep hclose
  obtain ⟨hnot, hwait⟩ | hsound := hs hclose.front
  · by_cases hconnect : ∃ answers, e = .connect true answers
    · obtain ⟨answers, rfl⟩ := hconnect
      exact .inr (hwait.connect hstep)
    · have hne : e ≠ .close := by
        rintro rfl
        exact hnot (.inl (hclose past [] rfl fun hmem => hnot (.inr hmem)))
      refine .inl ⟨?_, hwait.keep (fun answers he => hconnect ⟨answers, he⟩) hne hstep⟩
      rw [begun_append]
      rintro (hbegun | he | he)
      exacts [hnot hbegun, hconnect he, hne he]
  · exact .inr (hsound.keep hstep)

theorem signals_right_iff {id : CString} {r : PeerRun} {es : List Event} (hrun : run (init id) es = some r) :
    (∀ es₁ es₂, es = es₁ ++ es₂ → ∀ u, run (init id) es₁ = some u → u.SignalsRight) ↔ ClosedAfterSuccess es := by
  constructor
  · intro hright es₁ es₂ hes hfirst
    by_contra hnot
    rw [hes, run, List.append_cons, Machine.run_append] at hrun
    obtain ⟨t, ht, -⟩ := Option.bind_eq_some_iff.mp hrun
    have hbad := hright (es₁ ++ [.close]) es₂ (by rw [hes, List.append_cons]) t ht
    rw [Machine.run_append] at ht
    obtain ⟨s, hs, ht⟩ := Option.bind_eq_some_iff.mp ht
    obtain ⟨t', hstep, ht⟩ := Machine.run_cons_eq_some.mp ht
    obtain rfl := Option.some.inj ht
    obtain ⟨-, hwait⟩ | ⟨hbegun, -⟩ := run_waiting_or_right hs
    · exact hwait.close hstep hbad
    · exact hbegun.elim hnot hfirst
  · intro hclose es₁ es₂ hes u hu
    obtain ⟨-, hwait⟩ | hsound := run_sound hu (hes ▸ hclose).front
    · exact hwait.right
    · exact hsound.toSignalsRight

/-- The flag is right as soon as the socket has reported a connection or the end of one, and not before, so it is
    wrong at the start of every run. The signals of a run are right when its first close event comes after a successful
    connect event, and only then. -/
theorem connection_life_cycle {id : CString} {r : PeerRun} {es : List Event} (hrun : run (init id) es = some r) :
    (¬ ∀ es₁ es₂, es = es₁ ++ es₂ → ∀ u, run (init id) es₁ = some u → u.peer.Right ∧ u.SignalsRight) ∧
      (r.peer.Right ↔ Begun es) ∧
      ((∀ es₁ es₂, es = es₁ ++ es₂ → ∀ u, run (init id) es₁ = some u → u.SignalsRight) ↔ ClosedAfterSuccess es) := by
  refine ⟨fun hall => ?_, ?_, signals_right_iff hrun⟩
  · exact (init_waiting id).connected ((hall [] es rfl (init id) rfl).1.online rfl)
  · rw [Peer.right_iff]
    obtain ⟨hnot, hwait⟩ | ⟨hbegun, hright⟩ := run_waiting_or_right hrun
    · exact iff_of_false (fun hright => hwait.connected (hright hwait.online)) hnot
    · exact iff_of_true hright hbegun

/-- A connection that is made and lost. -/
theorem connection_life_cycle_made_and_lost :
    ∃ r, run (init (cstr "a")) [.start false, .connect true [], .close] = some r ∧
      (¬ ∀ es₁ es₂, [.start false, .connect true [], .close] = es₁ ++ es₂ →
        ∀ u, run (init (cstr "a")) es₁ = some u → u.peer.Right ∧ u.SignalsRight) ∧
      (r.peer.Right ↔ Begun [.start false, .connect true [], .close]) ∧
      ((∀ es₁ es₂, [.start false, .connect true [], .close] = es₁ ++ es₂ →
          ∀ u, run (init (cstr "a")) es₁ = some u → u.SignalsRight) ↔
        ClosedAfterSuccess [.start false, .connect true [], .close]) :=
  ⟨_, rfl, connection_life_cycle rfl⟩

/-- The server cannot be reached: the close event raises `SignalOffline`, and after a `Connect` that fails at once
    `SendMessage` uses the socket that was deleted. -/
theorem unreachable_not_right :
    (∃ r, run (init (cstr "a")) [.start false, .close] = some r ∧ r.signals = [.offline] ∧ ¬ r.SignalsRight) ∧
      ∃ r, run (init (cstr "a")) [.start true] = some r ∧
        .nullSocket ∈ (r.peer.SendMessage (cstr "b") [cstr "pp_initiate", cstr "data"]).2.1 ∧ ¬ r.peer.Right := by
  refine ⟨⟨_, rfl, rfl, fun hright => ?_⟩, ⟨_, rfl, by decide, fun hright => ?_⟩⟩
  · exact absurd (hright.offline [] [] rfl) List.not_mem_nil
  · exact hright.socket (cstr "b") [] (by decide)

end PeerRun

end ProbICE
