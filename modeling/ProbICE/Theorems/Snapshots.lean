import ProbICE.Lib.Journal
import ProbICE.Lib.SharedCell
import ProbICE.SocketMonitor

/-! # What the log of the monitor shows

The name of an event travels in the message that is posted for it, but the list of connections does not: the message
finds the list of the latest poll. The two belong together as long as no poll changes the list while a message is
still waiting. -/

namespace ProbICE

section
variable [Host]

namespace SocketMonitor

/-- The event of the poll that is made, if one is. -/
def pollOf (m : SocketMonitor) : Event → Option CString
  | .dispatch => if m.messages.head? = some .start ∧ m.monitoring = false then some (cstr "Poll") else none
  | .poll => some (cstr "Poll")
  | .connectionMonitor evt => if m.monitoring then some evt else none
  | _ => none

/-- A poll is made when all messages of the earlier ones have been dispatched, or when it finds what the last one
    found. -/
def Paced (m : SocketMonitor) (e : Event) : Prop :=
  (m.pollOf e).isSome = true → m.signals = [] ∨ m.gather = m.connection_infos

/-- A list in the log has an entry for the connection. -/
def Shows (log : List (CString × List ConnectionInfo)) (key : Nat) : Prop := ∃ u ∈ log, ∃ info ∈ u.2, info.key = key

/-- The entry of the log says that the connection is a new one. -/
def announces (key : Nat) (u : CString × List ConnectionInfo) : Bool :=
  u.2.any fun info => info.key == key && info.new_connection

/-- The `k`-th `SignalUpdate` has the event and the list of the `k`-th poll. -/
structure Delivers (m : SocketMonitor) : Prop where
  own : m.updates <+: m.gathered
  /-- Each connection that is shown is said to be new exactly once. -/
  announced : ∀ key, Shows m.updates key → m.updates.countP (announces key) = 1
  /-- When no message is waiting, everything that was gathered is in the log. -/
  complete : m.signals = [] → m.updates = m.gathered

/-! ### One step -/

/-- The list and the messages about it. -/
def cell (m : SocketMonitor) : SharedCell CString (List ConnectionInfo) where
  cell := m.connection_infos
  waiting := m.signals
  written := m.gathered
  read := m.updates

/-- A step polls, or it dispatches a `MSG_MONITOR_SIGNAL`, or it touches neither the list nor the messages. -/
theorem step_cases {m t : SocketMonitor} {e : Event} (h : m.step e = some t) :
    (∃ evt, m.pollOf e = some evt ∧ t.cell = m.cell.put evt m.gather ∧
      t.channel = m.channel.map P2PTransportChannel.set_reported) ∨
    (m.pollOf e = none ∧ m.cell.take = some t.cell ∧ t.channel = m.channel) ∨
    (m.pollOf e = none ∧ t.cell = m.cell ∧ (t.channel = m.channel ∨
      ∃ c c', m.channel = some c ∧ t.channel = some c' ∧ c.MayBecome c')) := by
  cases e with
  | post msg =>
    obtain rfl := Option.some.inj h
    exact .inr (.inr ⟨rfl, rfl, .inl rfl⟩)
  | dispatch =>
    rcases hmessages : m.messages with _ | ⟨msg, messages⟩
    · simp [step, hmessages] at h
    · obtain rfl : { m with messages }.OnMessage msg = t := by simpa [step, hmessages] using h
      cases msg with
      | start =>
        by_cases hmonitoring : m.monitoring = true
        · simp [pollOf, hmessages, OnMessage, hmonitoring, cell]
        · refine .inl ⟨cstr "Poll", by simp [pollOf, hmessages, hmonitoring], ?_⟩
          rw [OnMessage, if_pos hmonitoring]
          exact ⟨rfl, rfl⟩
      | stop =>
        by_cases hmonitoring : m.monitoring = true
        · simp [pollOf, hmessages, OnMessage, hmonitoring, cell]
        · simp [pollOf, hmessages, OnMessage, hmonitoring, cell]
  | poll =>
    obtain rfl := Option.some.inj (Option.ite_none_right_eq_some.mp h).2
    exact .inl ⟨cstr "Poll", rfl, rfl, rfl⟩
  | connectionMonitor evt =>
    obtain rfl := Option.some.inj (Option.ite_none_right_eq_some.mp h).2
    by_cases hmonitoring : m.monitoring = true
    · refine .inl ⟨evt, by simp [pollOf, hmonitoring], ?_⟩
      rw [OnConnectionMonitor, if_pos hmonitoring]
      exact ⟨rfl, rfl⟩
    · rw [OnConnectionMonitor, if_neg hmonitoring]
      exact .inr (.inr ⟨by simp [pollOf, hmonitoring], rfl, .inl rfl⟩)
  | work channel =>
    rcases hchannel : m.channel with _ | old
    · simp [step, hchannel] at h
    · simp only [step, hchannel] at h
      obtain ⟨hbecome, h⟩ := Option.ite_none_right_eq_some.mp h
      obtain rfl := Option.some.inj h
      exact .inr (.inr ⟨rfl, rfl, .inr ⟨old, channel, rfl, rfl, hbecome⟩⟩)
  | signal =>
    rcases hsignals : m.signals with _ | ⟨evt, signals⟩
    · simp [step, hsignals] at h
    · obtain rfl : { m with signals, updates := m.updates ++ [(evt, m.connection_infos)] } = t := by
        simpa [step, hsignals] using h
      exact .inr (.inl ⟨rfl, by simp [cell, SharedCell.take, hsignals], rfl⟩)

/-! ### New connections -/

/-- The entries of a list say that a connection is new if no list before has shown it. -/
def Announced (before : List (CString × List ConnectionInfo)) (u : CString × List ConnectionInfo) : Prop :=
  ∀ info ∈ u.2, info.new_connection = true ↔ ¬ Shows before info.key

theorem shows_append {log log' : List (CString × List ConnectionInfo)} {key : Nat} :
    Shows (log ++ log') key ↔ Shows log key ∨ Shows log' key := by
  simp only [Shows, List.mem_append, or_and_right, exists_or]

theorem shows_singleton {u : CString × List ConnectionInfo} {key : Nat} :
    Shows [u] key ↔ ∃ info ∈ u.2, info.key = key := by
  simp [Shows]

theorem announces_iff {before : List (CString × List ConnectionInfo)} {u : CString × List ConnectionInfo}
    (h : Announced before u) {key : Nat} : announces key u = true ↔ Shows [u] key ∧ ¬ Shows before key := by
  rw [announces, List.any_eq_true, shows_singleton]
  constructor
  · rintro ⟨info, hinfo, hnew⟩
    rw [Bool.and_eq_true, beq_iff_eq] at hnew
    obtain ⟨rfl, hnew⟩ := hnew
    exact ⟨⟨info, hinfo, rfl⟩, (h info hinfo).mp hnew⟩
  · rintro ⟨⟨info, hinfo, rfl⟩, hbefore⟩
    exact ⟨info, hinfo, by simp [(h info hinfo).mpr hbefore]⟩

/-- In such a log each connection is said to be new once, if it is shown at all. -/
theorem countP_announces {log : List (CString × List ConnectionInfo)} (h : Journal.Valid Announced log) (key : Nat) :
    (Shows log key → log.countP (announces key) = 1) ∧ (¬ Shows log key → log.countP (announces key) = 0) := by
  induction log using List.reverseRecOn with
  | nil => exact ⟨by simp [Shows], by simp⟩
  | append_singleton log u ih =>
    obtain ⟨hlog, hlast⟩ := Journal.valid_concat_iff.mp h
    obtain ⟨hone, hzero⟩ := ih hlog
    rw [shows_append, List.countP_append, List.countP_singleton]
    by_cases hbefore : Shows log key
    · have hlast' : ¬ announces key u = true := fun hnew => ((announces_iff hlast).mp hnew).2 hbefore
      exact ⟨fun _ => by rw [hone hbefore, if_neg hlast'], fun hnot => absurd (.inl hbefore) hnot⟩
    · rw [hzero hbefore]
      by_cases hshown : Shows [u] key
      · have hlast' : announces key u = true := (announces_iff hlast).mpr ⟨hshown, hbefore⟩
        exact ⟨fun _ => by rw [if_pos hlast'], fun hnot => absurd (.inr hshown) hnot⟩
      · have hlast' : ¬ announces key u = true := fun hnew => hshown ((announces_iff hlast).mp hnew).1
        exact ⟨fun hor => (hor.elim hbefore hshown).elim, fun _ => by rw [if_neg hlast']⟩

/-- What has been gathered, and the flags of the connections. -/
structure Recorded (m : SocketMonitor) : Prop where
  tagged : m.cell.Tagged
  announced : Journal.Valid Announced m.gathered
  reported : ∀ c, m.channel = some c → ∀ x ∈ c.connections, x.reported = true ↔ Shows m.gathered x.key
  constructed : ∀ c, m.channel = some c → ∀ key, Shows m.gathered key → key < c.constructed
  none : m.channel = none → m.connection_infos = []

theorem recorded_new (isP2P : Bool) : (new isP2P).Recorded where
  tagged := SharedCell.tagged_empty []
  announced := Journal.valid_nil
  reported c hc x hx := by
    cases isP2P with
    | false => cases hc
    | true =>
      obtain rfl := Option.some.inj hc
      exact absurd hx List.not_mem_nil
  constructed c hc key hshows := by simp [Shows, new] at hshows
  none _ := rfl

theorem gather_some {m : SocketMonitor} {c : P2PTransportChannel} (h : m.channel = some c) :
    m.gather = c.connections.map c.info := by
  rw [gather, h]

/-- A poll shows every connection of the channel and sets its flag. -/
theorem Recorded.poll {m t : SocketMonitor} (h : m.Recorded) {evt : CString} (hcell : t.cell = m.cell.put evt m.gather)
    (hchannel : t.channel = m.channel.map P2PTransportChannel.set_reported) : t.Recorded := by
  have hgathered : t.gathered = m.gathered ++ [(evt, m.gather)] := congrArg SharedCell.written hcell
  have hinfos : t.connection_infos = m.gather := congrArg SharedCell.cell hcell
  have htagged : t.cell.Tagged := by
    rw [hcell]
    exact h.tagged.put evt m.gather
  rcases hm : m.channel with _ | c
  · rw [hm] at hchannel
    have hnil : m.gather = [] := by
      rw [gather, hm]
      exact h.none hm
    refine ⟨htagged, ?_, fun c hc => ?_, fun c hc => ?_, fun _ => hinfos.trans hnil⟩
    · rw [hgathered, hnil]
      exact Journal.valid_concat_iff.mpr ⟨h.announced, by simp [Announced]⟩
    · simp [hchannel] at hc
    · simp [hchannel] at hc
  · rw [hm] at hchannel
    have hgather := gather_some hm
    have hshown : ∀ key, Shows [(evt, m.gather)] key ↔ ∃ x ∈ c.connections, x.key = key := by
      intro key
      rw [shows_singleton, hgather]
      simp [P2PTransportChannel.info]
    refine ⟨htagged, ?_, fun c' hc' x hx => ?_, fun c' hc' key hkey => ?_, fun hnone => ?_⟩
    · rw [hgathered]
      refine Journal.valid_concat_iff.mpr ⟨h.announced, fun info hinfo => ?_⟩
      rw [hgather] at hinfo
      obtain ⟨x, hx, rfl⟩ := List.mem_map.mp hinfo
      rw [P2PTransportChannel.info, ← h.reported c hm x hx]
      simp
    · obtain rfl := Option.some.inj (hchannel.symm.trans hc')
      obtain ⟨y, hy, rfl⟩ := List.mem_map.mp hx
      rw [hgathered, shows_append, hshown]
      exact ⟨fun _ => .inr ⟨y, hy, rfl⟩, fun _ => rfl⟩
    · obtain rfl := Option.some.inj (hchannel.symm.trans hc')
      rw [hgathered, shows_append, hshown] at hkey
      obtain hold | ⟨x, hx, rfl⟩ := hkey
      · exact h.constructed c hm key hold
      · exact c.known x hx
    · simp [hchannel] at hnone

/-- Nothing is gathered, and the channel may work on its connections. -/
theorem Recorded.of_same {m t : SocketMonitor} (h : m.Recorded) (htagged : t.cell.Tagged)
    (hgathered : t.gathered = m.gathered) (hinfos : t.connection_infos = m.connection_infos)
    (hchannel : t.channel = m.channel ∨ ∃ c c', m.channel = some c ∧ t.channel = some c' ∧ c.MayBecome c') :
    t.Recorded := by
  refine ⟨htagged, by rw [hgathered]; exact h.announced, ?_, ?_, fun hnone => hinfos.trans (h.none ?_)⟩
  · intro d hd x hx
    rw [hgathered]
    obtain hsame | ⟨c, c', hc, hc', -, hbecome⟩ := hchannel
    · exact h.reported d (hsame.symm.trans hd) x hx
    · obtain rfl := Option.some.inj (hc'.symm.trans hd)
      obtain ⟨-, y, hy, hkey, hreported⟩ | ⟨hnew, hreported⟩ := hbecome x hx
      · rw [← hkey, ← hreported]
        exact h.reported c hc y hy
      · have hnever : ¬ Shows m.gathered x.key := fun hshows =>
          absurd (h.constructed c hc _ hshows) (Nat.not_lt.mpr hnew)
        simp [hreported, hnever]
  · intro d hd key hkey
    rw [hgathered] at hkey
    obtain hsame | ⟨c, c', hc, hc', hcreated, -⟩ := hchannel
    · exact h.constructed d (hsame.symm.trans hd) key hkey
    · obtain rfl := Option.some.inj (hc'.symm.trans hd)
      exact lt_of_lt_of_le (h.constructed c hc key hkey) hcreated
  · obtain hsame | ⟨c, c', hc, hc', -⟩ := hchannel
    · exact hsame.symm.trans hnone
    · simp [hc'] at hnone

theorem Recorded.step {m t : SocketMonitor} (h : m.Recorded) {e : Event} (hstep : m.step e = some t) : t.Recorded := by
  obtain ⟨evt, -, hcell, hchannel⟩ | ⟨-, htake, hchannel⟩ | ⟨-, hcell, hchannel⟩ := step_cases hstep
  · exact h.poll hcell hchannel
  · obtain ⟨-, -, hinfos, hgathered, -⟩ := SharedCell.take_eq_some htake
    exact h.of_same (h.tagged.take htake) hgathered hinfos (.inl hchannel)
  · refine h.of_same ?_ (congrArg SharedCell.written hcell) (congrArg SharedCell.cell hcell) hchannel
    rw [hcell]
    exact h.tagged

/-! ### Runs -/

/-- A step leaves every message with its own list if and only if it is paced. -/
theorem fresh_step_iff {m t : SocketMonitor} (h : m.cell.Fresh) {e : Event} (hstep : m.step e = some t) :
    t.cell.Fresh ↔ m.Paced e := by
  obtain ⟨evt, hpoll, hcell, -⟩ | ⟨hpoll, htake, -⟩ | ⟨hpoll, hcell, -⟩ := step_cases hstep
  · rw [hcell, SharedCell.fresh_put_iff h, Paced, hpoll]
    exact ⟨fun hfree _ => hfree, fun hfree => hfree rfl⟩
  · exact ⟨fun _ hsome => by simp [hpoll] at hsome, fun _ => h.take htake⟩
  · rw [hcell]
    exact ⟨fun _ hsome => by simp [hpoll] at hsome, fun _ => h⟩

theorem delivers_of_fresh {m : SocketMonitor} (h : m.Recorded) (hfresh : m.cell.Fresh) : m.Delivers where
  own := hfresh.prefix_read
  announced key hkey := (countP_announces (h.announced.of_prefix hfresh.prefix_read) key).1 hkey
  complete hsignals := hfresh.read_eq hsignals

theorem cell_signal {m t : SocketMonitor} (h : m.step .signal = some t) : m.cell.take = some t.cell := by
  rcases hsignals : m.signals with _ | ⟨evt, signals⟩
  · simp [step, hsignals] at h
  · obtain rfl : { m with signals, updates := m.updates ++ [(evt, m.connection_infos)] } = t := by
      simpa [step, hsignals] using h
    simp [cell, SharedCell.take, hsignals]

/-- The messages that wait can be dispatched one after the other. -/
theorem run_signals (m : SocketMonitor) :
    ∃ t, m.run (List.replicate m.signals.length .signal) = some t ∧ t.cell = m.cell.drain := by
  rcases hsignals : m.signals with _ | ⟨evt, signals⟩
  · exact ⟨m, rfl, by simp [cell, SharedCell.drain, hsignals]⟩
  · have hstep : m.step .signal = some { m with signals, updates := m.updates ++ [(evt, m.connection_infos)] } := by
      simp [step, hsignals]
    obtain ⟨t, hrun, hcell⟩ := run_signals { m with signals, updates := m.updates ++ [(evt, m.connection_infos)] }
    refine ⟨t, Machine.run_cons_eq_some.mpr ⟨_, hstep, hrun⟩, ?_⟩
    rw [hcell, SharedCell.drain_take (cell_signal hstep)]
termination_by m.signals.length
decreasing_by simp [hsignals]

/-- The updates match the polls in every state of a run, and in whatever its messages lead to, if and only if all
    polls of the run are paced. -/
theorem updates_match {isP2P : Bool} {es : List Event} {m : SocketMonitor} (hrun : (new isP2P).run es = some m) :
    Machine.Along step Paced (new isP2P) es ↔
      ∀ es₁ es₂, es = es₁ ++ es₂ → ∀ n t, (new isP2P).run (es₁ ++ List.replicate n .signal) = some t → t.Delivers := by
  have hstays := Machine.along_iff_stays (P := Paced) (I := fun m => m.Recorded ∧ m.cell.Fresh)
    (fun s e t hs hstep => (and_iff_right (hs.1.step hstep)).trans (fresh_step_iff hs.2 hstep))
    ⟨recorded_new isP2P, SharedCell.fresh_empty []⟩ hrun
  rw [hstays]
  constructor
  · intro hall es₁ es₂ hes n t ht
    rw [run, Machine.run_append] at ht
    obtain ⟨u, hu, ht⟩ := Option.bind_eq_some_iff.mp ht
    have hkept : t.Recorded ∧ t.cell.Fresh :=
      Machine.run_keeps (I := fun m => m.Recorded ∧ m.cell.Fresh) (fun u v e he hu hstep => by
        obtain rfl := List.eq_of_mem_replicate he
        exact ⟨hu.1.step hstep, hu.2.take (cell_signal hstep)⟩) (hall es₁ es₂ hes u hu) ht
    exact delivers_of_fresh hkept.1 hkept.2
  · intro hall es₁ es₂ hes u hu
    have hrecorded := Machine.run_keeps (fun s t e _ hs hstep => Recorded.step hs hstep) (recorded_new isP2P) hu
    obtain ⟨t, ht, hcell⟩ := u.run_signals
    have hdelivers := hall es₁ es₂ hes u.signals.length t (by
      rw [run, Machine.run_append, hu]
      exact ht)
    refine ⟨hrecorded, SharedCell.fresh_of_drain hrecorded.tagged ?_⟩
    rw [← hcell]
    exact hdelivers.own

end SocketMonitor

end

/-! ### A connection whose announcement is lost -/

namespace SocketMonitor
attribute [local instance] Host.plain

/-- The candidate of a host in a private network. -/
def hostCandidate : Candidate where
  name := cstr "rtp"
  protocol := cstr "udp"
  address := .ofIP (.v4 0x0A000001) 5000
  preference := (1 : Nat)
  username := []
  password := []
  type := cstr "local"
  network_name := cstr "eth0"
  generation := 0

/-- The channel has constructed its first connection. -/
def oneConnection : P2PTransportChannel where
  connections :=
    [{ key := 0, read_state := .readTimeout, write_state := .writeConnect, reported := false, pruned := false, rtt := 3000
       sent_total_bytes := 0, sent_bytes_second := 0, recv_total_bytes := 0, recv_bytes_second := 0, last_ping_sent := 0
       last_ping_received := 0, local_candidate := hostCandidate, remote_candidate := hostCandidate }]
  best_connection := none
  constructed := 1
  distinct := by simp
  known := by simp

/-- The signaling thread is quick. -/
def prompt : List Event :=
  [.post .start, .dispatch, .signal, .work oneConnection, .connectionMonitor (cstr "Add connection"), .signal]

theorem updates_match_prompt : ∃ t, (new true).run prompt = some t ∧ t.Delivers ∧ Shows t.updates 0 := by
  have hpaced : Machine.Along step Paced (new true) prompt := by
    refine ⟨fun _ => .inl rfl, fun t ht => ?_⟩
    obtain rfl := Option.some.inj ht
    refine ⟨fun _ => .inl rfl, fun t ht => ?_⟩
    obtain rfl := Option.some.inj ht
    refine ⟨fun hpoll => (nomatch hpoll), fun t ht => ?_⟩
    obtain rfl := Option.some.inj ht
    refine ⟨fun _ => .inl rfl, fun t ht => ?_⟩
    obtain rfl := Option.some.inj ht
    refine ⟨fun _ => .inl rfl, fun t ht => ?_⟩
    obtain rfl := Option.some.inj ht
    exact ⟨fun hpoll => (nomatch hpoll), fun _ _ => trivial⟩
  have hrun := (Option.some_get (x := (new true).run prompt) (by decide)).symm
  refine ⟨_, hrun, (updates_match hrun).mp hpaced prompt [] rfl 0 _ hrun, ?_⟩
  unfold Shows
  decide

/-- Two polls come before the first message is dispatched. -/
def overtaken : List Event :=
  [.post .start, .dispatch, .work oneConnection, .connectionMonitor (cstr "Add connection"), .poll, .signal, .signal, .signal]

theorem updates_overtaken :
    ∃ t, (new true).run overtaken = some t ∧ Shows t.updates 0 ∧ t.updates.countP (announces 0) = 0 ∧
      ¬ t.updates <+: t.gathered := by
  refine ⟨_, (Option.some_get (x := (new true).run overtaken) (by decide)).symm, ?_, by decide, fun hfront => ?_⟩
  · unfold Shows
    decide
  · have hlengths := hfront.map fun u => u.2.length
    revert hlengths
    decide

end SocketMonitor

end ProbICE
