import ProbICE.Theorems.IceBooks

/-! # A channel under its monitor

The monitor comes with a notion of what a channel does to its connections between two polls. The channel keeps to it:
whatever happens to the two of them, the monitor runs as it does on that notion of a channel. -/

namespace ProbICE.Ice

/-- Each element of the one list has one of the other. -/
theorem exists_of_forall₂ {α β : Type} {R : α → β → Prop} {l₁ : List α} {l₂ : List β} (h : List.Forall₂ R l₁ l₂) {a : α}
    (ha : a ∈ l₁) : ∃ b ∈ l₂, R a b := by
  induction h with
  | nil => exact absurd ha List.not_mem_nil
  | @cons x y _ _ hxy _ ih =>
    rcases List.mem_cons.mp ha with rfl | ha
    · exact ⟨y, List.mem_cons_self, hxy⟩
    · obtain ⟨b, hb, hab⟩ := ih ha
      exact ⟨b, List.mem_cons_of_mem _ hb, hab⟩

variable [Arithmetic]

/-! ### What a monitor sees -/

/-- The counts of bytes are whatever they are. -/
structure Connection.Shows (c : Connection) (seen : ProbICE.Connection) : Prop where
  key : seen.key = c.key
  read_state : seen.read_state = c.read_state
  write_state : seen.write_state = c.write_state
  reported : seen.reported = c.reported
  pruned : seen.pruned = c.pruned
  rtt : seen.rtt = c.rtt
  last_ping_sent : seen.last_ping_sent = c.last_ping_sent
  last_ping_received : seen.last_ping_received = c.last_ping_received
  local_candidate : seen.local_candidate = c.port.local_candidate
  remote_candidate : seen.remote_candidate = c.remote_candidate

namespace P2PTransportChannel

structure Shows (ch : P2PTransportChannel) (seen : ProbICE.P2PTransportChannel) : Prop where
  connections : List.Forall₂ Connection.Shows ch.connections seen.connections
  best_connection : seen.best_connection = ch.best_connection
  constructed : seen.constructed = ch.constructed.length

variable {ch ch' ch'' : P2PTransportChannel} {scope : Scope} {seen seen' : ProbICE.P2PTransportChannel}

/-- A connection whose bytes nobody has counted yet. -/
def view (c : Connection) : ProbICE.Connection :=
  { key := c.key, read_state := c.read_state, write_state := c.write_state, reported := c.reported, pruned := c.pruned,
    rtt := c.rtt, sent_total_bytes := 0, sent_bytes_second := 0, recv_total_bytes := 0, recv_bytes_second := 0,
    last_ping_sent := c.last_ping_sent, last_ping_received := c.last_ping_received,
    local_candidate := c.port.local_candidate, remote_candidate := c.remote_candidate }

/-- There is something to see of each channel whose books are in order. -/
theorem Books.exists_shows (h : ch.Books) : ∃ seen, ch.Shows seen := by
  have hdistinct : ((ch.connections.map view).map ProbICE.Connection.key).Nodup := by
    rw [List.map_map]
    exact h.keys_nodup
  have hknown : ∀ x ∈ ch.connections.map view, x.key < ch.constructed.length := by
    intro x hx
    obtain ⟨c, hc, rfl⟩ := List.mem_map.mp hx
    exact h.keys_lt c hc
  have hshows : List.Forall₂ Connection.Shows ch.connections (ch.connections.map view) :=
    List.forall₂_map_right_iff.mpr (List.forall₂_same.mpr fun _ _ => ⟨rfl, rfl, rfl, rfl, rfl, rfl, rfl, rfl, rfl, rfl⟩)
  exact ⟨⟨ch.connections.map view, ch.best_connection, ch.constructed.length, hdistinct, hknown⟩, hshows, rfl, rfl⟩

theorem shows_new (times : Nat → UInt32) : (new times).Shows .new := ⟨.nil, rfl, rfl⟩

/-- A poll does the same to both. -/
theorem Shows.poll (h : ch.Shows seen) : ch.PollSocket.Shows seen.set_reported := by
  refine ⟨?_, h.best_connection, h.constructed⟩
  refine List.forall₂_map_left_iff.mpr (List.forall₂_map_right_iff.mpr (h.connections.imp fun c x hshows => ?_))
  exact ⟨hshows.key, hshows.read_state, hshows.write_state, rfl, hshows.pruned, hshows.rtt, hshows.last_ping_sent,
    hshows.last_ping_received, hshows.local_candidate, hshows.remote_candidate⟩

/-! ### Between two polls -/

/-- What the monitor relies on, said of the channel itself. -/
structure Kept (ch ch' : P2PTransportChannel) : Prop where
  constructed : ch.constructed.length ≤ ch'.constructed.length
  connections : ∀ c' ∈ ch'.connections,
    (c'.key < ch.constructed.length ∧ ∃ c ∈ ch.connections, c.key = c'.key ∧ c.reported = c'.reported) ∨
      (ch.constructed.length ≤ c'.key ∧ c'.reported = false)

theorem Kept.trans (h : Kept ch ch') (h' : Kept ch' ch'') : Kept ch ch'' := by
  refine ⟨h.constructed.trans h'.constructed, fun c'' hc'' => ?_⟩
  rcases h'.connections c'' hc'' with ⟨-, c', hc', hkey', hreported'⟩ | ⟨hle, hreported⟩
  · rw [← hkey', ← hreported']
    exact h.connections c' hc'
  · exact Or.inr ⟨h.constructed.trans hle, hreported⟩

theorem Kept.of_subset (hbooks : ch.Books) (hconstructed : ch'.constructed = ch.constructed)
    (hconnections : ch'.connections ⊆ ch.connections) : Kept ch ch' :=
  ⟨hconstructed ▸ Nat.le_refl _, fun c hc =>
    Or.inl ⟨hbooks.keys_lt c (hconnections hc), c, hconnections hc, rfl, rfl⟩⟩

theorem Kept.of_evolved (hbooks : ch.Books) {q : Queue} (hconstructed : ch'.constructed = ch.constructed)
    (hevolved : Evolved ch.connections q ch'.connections ch'.queue) : Kept ch ch' := by
  refine ⟨hconstructed ▸ Nat.le_refl _, fun c' hc' => Or.inl ?_⟩
  obtain ⟨c, hc, hbecame⟩ := hevolved.back c' hc'
  exact ⟨hbecame.key ▸ hbooks.keys_lt c hc, c, hc, hbecame.key.symm, hbecame.reported.symm⟩

theorem Act.kept (hbooks : ch.Books) (h : Act scope ch ch') (hpolls : scope.polls = false) : Kept ch ch' := by
  cases h with
  | idle hidle =>
    refine .of_subset hbooks ?_ ?_
    · rw [hidle]
    · rw [hidle]
      exact List.Subset.refl _
  | work _ hf => exact .of_evolved hbooks rfl (worked_forConnections ch hf).evolved
  | settle => exact .of_evolved hbooks (books_settle ch).constructed (evolved_settle ch)
  | sort =>
    have hwork := (worked_forConnections { ch with queue := { ch.queue with sorts := ch.queue.sorts - 1 } }.tick
      (Connection.evolving_UpdateState ch.Time)).evolved
    have hupdate : Kept ch { ch with queue := { ch.queue with sorts := ch.queue.sorts - 1 } }.UpdateConnectionStates :=
      .of_evolved hbooks rfl hwork
    have hpopped : { ch with queue := { ch.queue with sorts := ch.queue.sorts - 1 } }.Books :=
      hbooks.congr rfl rfl (List.Subset.refl _) rfl rfl rfl rfl
    rw [sortConnections_eq]
    exact hupdate.trans (.of_evolved hpopped.updateConnectionStates (books_settle _).constructed (evolved_settle _))
  | create =>
    unfold PortCreateConnection
    split
    · exact .of_subset hbooks rfl (List.Subset.refl _)
    · refine ⟨?_, fun c hc => ?_⟩
      · rw [List.length_append]
        exact Nat.le_add_right _ _
      · rcases List.mem_append.mp hc with hc | hc
        · exact Or.inl ⟨hbooks.keys_lt c hc, c, hc, rfl, rfl⟩
        · rw [List.mem_singleton.mp hc]
          exact Or.inr ⟨Nat.le_refl _, rfl⟩
  | remember =>
    unfold RememberRemoteCandidate
    dsimp only
    split_ifs <;> exact .of_subset hbooks rfl (List.Subset.refl _)
  | addPort => exact .of_subset hbooks rfl (List.Subset.refl _)
  | startPort => exact .of_subset hbooks rfl (List.Subset.refl _)
  | portTimeout =>
    unfold OnPortTimeout CheckPortTimeout
    split <;> exact .of_subset hbooks rfl (List.Subset.refl _)
  | @delete _ c =>
    obtain ⟨-, -, hconstructed, -, -⟩ := Books.unlink_same ch c
    have hfewer : (Books.unlink ch c).connections ⊆ ch.connections := fun x hx => (Books.mem_unlink_connections.mp hx).1
    rw [Books.onDelete_eq]
    unfold CheckPortTimeout
    split <;> exact .of_subset hbooks hconstructed hfewer
  | signalingReady =>
    unfold OnSignalingReady
    split <;> exact .of_subset hbooks rfl (List.Subset.refl _)
  | allocate => exact .of_subset hbooks rfl (List.Subset.refl _)
  | poll hpolling => exact absurd (hpolling.symm.trans hpolls) Bool.noConfusion

theorem Acts.kept (hbooks : ch.Books) (h : Acts scope ch ch') (hpolls : scope.polls = false) : ch'.Books ∧ Kept ch ch' := by
  induction h with
  | refl => exact ⟨hbooks, .of_subset hbooks rfl (List.Subset.refl _)⟩
  | tail _ hact ih => exact ⟨ih.1.act hact, ih.2.trans (hact.kept ih.1 hpolls)⟩

theorem toScope_polls {e : Event} (h : e ≠ .poll) : e.toScope.polls = false := by
  cases e <;> first | rfl | exact absurd rfl h

theorem kept_of_step (hbooks : ch.Books) {e : Event} (he : e ≠ .poll) (hstep : ch.step e = some ch') :
    ch'.Books ∧ Kept ch ch' := by
  rcases acts_of_step hstep with hacts | ⟨-, rfl⟩
  · exact hacts.kept hbooks (toScope_polls he)
  · have hopened : { ch.Allocate with pings := 1 }.Books := hbooks.congr rfl rfl (List.Subset.refl _) rfl rfl rfl rfl
    exact ⟨hopened, .of_subset hbooks rfl (List.Subset.refl _)⟩

/-- What the channel does, the monitor allows. -/
theorem Kept.mayBecome (h : Kept ch ch') (hseen : ch.Shows seen) (hseen' : ch'.Shows seen') : seen.MayBecome seen' := by
  refine ⟨?_, fun x hx => ?_⟩
  · rw [hseen.constructed, hseen'.constructed]
    exact h.constructed
  · obtain ⟨c', hc', hshows'⟩ := exists_of_forall₂ (List.Forall₂.flip hseen'.connections) hx
    rw [hseen.constructed, hshows'.key, hshows'.reported]
    refine (h.connections c' hc').imp_left ?_
    rintro ⟨hlt, c, hc, hkey, hreported⟩
    obtain ⟨y, hy, hshows⟩ := exists_of_forall₂ hseen.connections hc
    exact ⟨hlt, y, hy, hshows.key.trans hkey, hshows.reported.trans hreported⟩

end P2PTransportChannel

/-! ### The two together -/

structure Monitored where
  channel : P2PTransportChannel
  monitor : SocketMonitor

namespace Monitored

def new (times : Nat → UInt32) : Monitored := { channel := .new times, monitor := .new true }

/-- When the channel works, the monitor will find it as it is then. When a step of the monitor is a poll, the channel
    has been polled. -/
inductive Step : Monitored → Monitored → Prop where
  | channel {s : Monitored} {e : P2PTransportChannel.Event} {ch : P2PTransportChannel} {seen : ProbICE.P2PTransportChannel}
      (he : e ≠ .poll) (hstep : s.channel.step e = some ch) (hseen : ch.Shows seen) :
      Step s { channel := ch, monitor := { s.monitor with channel := some seen } }
  | monitor {s : Monitored} {e : SocketMonitor.Event} {m : SocketMonitor} (he : ∀ seen, e ≠ .work seen)
      (hstep : s.monitor.step e = some m) :
      Step s
        { channel := if m.gathered.length = s.monitor.gathered.length then s.channel else s.channel.PollSocket, monitor := m }

/-- The monitor sees the channel as it is. -/
structure Follows (s : Monitored) : Prop where
  books : s.channel.Books
  shows : ∃ seen, s.monitor.channel = some seen ∧ s.channel.Shows seen

theorem follows_new (times : Nat → UInt32) : (new times).Follows :=
  ⟨P2PTransportChannel.books_new times, .new, rfl, P2PTransportChannel.shows_new times⟩

/-- What a step of the monitor that is not work of the channel does to what it sees. -/
theorem polled_or_same {m t : SocketMonitor} {e : SocketMonitor.Event} (he : ∀ seen, e ≠ .work seen)
    (hstep : m.step e = some t) :
    (t.gathered.length = m.gathered.length ∧ t.channel = m.channel) ∨
      (t.gathered.length = m.gathered.length + 1 ∧ t.channel = m.channel.map ProbICE.P2PTransportChannel.set_reported) := by
  have hpoll : ∀ (m : SocketMonitor) poll evt,
      (m.PollSocket poll evt).gathered.length = m.gathered.length + 1 := fun m poll evt => List.length_append
  cases e with
  | post msg =>
    obtain rfl := Option.some.inj hstep
    exact Or.inl ⟨rfl, rfl⟩
  | dispatch =>
    unfold SocketMonitor.step at hstep
    dsimp only at hstep
    split at hstep
    · cases hstep
    · rename_i msg messages _
      obtain rfl := Option.some.inj hstep
      cases msg with
      | start =>
        unfold SocketMonitor.OnMessage
        dsimp only
        split
        · exact Or.inr ⟨hpoll _ _ _, rfl⟩
        · exact Or.inl ⟨rfl, rfl⟩
      | stop =>
        unfold SocketMonitor.OnMessage
        dsimp only
        split <;> exact Or.inl ⟨rfl, rfl⟩
  | poll =>
    obtain ⟨-, heq⟩ := Option.ite_none_right_eq_some.mp hstep
    obtain rfl := Option.some.inj heq
    exact Or.inr ⟨hpoll _ _ _, rfl⟩
  | connectionMonitor evt =>
    obtain ⟨-, heq⟩ := Option.ite_none_right_eq_some.mp hstep
    obtain rfl := Option.some.inj heq
    unfold SocketMonitor.OnConnectionMonitor
    split
    · exact Or.inr ⟨hpoll _ _ _, rfl⟩
    · exact Or.inl ⟨rfl, rfl⟩
  | work seen => exact absurd rfl (he seen)
  | signal =>
    unfold SocketMonitor.step at hstep
    dsimp only at hstep
    split at hstep
    · cases hstep
    · obtain rfl := Option.some.inj hstep
      exact Or.inl ⟨rfl, rfl⟩

/-- A step of the two is a step of the channel, and a step of the monitor on its own notion of a channel. -/
theorem Follows.step {s t : Monitored} (h : s.Follows) (hstep : Step s t) :
    t.Follows ∧ Machine.Reaches P2PTransportChannel.step s.channel t.channel ∧
      Machine.Reaches SocketMonitor.step s.monitor t.monitor := by
  obtain ⟨seen, hseen, hshows⟩ := h.shows
  cases hstep with
  | @channel e ch seen' he hstep hshows' =>
    obtain ⟨hbooks, hkept⟩ := P2PTransportChannel.kept_of_step h.books he hstep
    have hwork : s.monitor.step (.work seen') = some { s.monitor with channel := some seen' } := by
      unfold SocketMonitor.step
      rw [hseen]
      exact if_pos (hkept.mayBecome hshows hshows')
    exact ⟨⟨hbooks, seen', rfl, hshows'⟩, .single hstep, .single hwork⟩
  | @monitor e m he hstep =>
    rcases polled_or_same he hstep with ⟨hlength, hchannel⟩ | ⟨hlength, hchannel⟩
    · rw [if_pos hlength]
      exact ⟨⟨h.books, seen, hchannel.trans hseen, hshows⟩, .refl _, .single hstep⟩
    · rw [if_neg (by rw [hlength]; exact Nat.succ_ne_self _)]
      have hpoll : s.channel.step .poll = some s.channel.PollSocket := rfl
      refine ⟨⟨h.books.poll, seen.set_reported, ?_, hshows.poll⟩, .single hpoll, .single hstep⟩
      rw [hchannel, hseen]
      rfl

/-- A channel makes each of its runs also while the monitor does nothing. -/
theorem Follows.run {s : Monitored} (h : s.Follows) {es : List P2PTransportChannel.Event} (hes : ∀ e ∈ es, e ≠ .poll)
    {ch : P2PTransportChannel} (hrun : s.channel.run es = some ch) :
    ∃ seen, Relation.ReflTransGen Step s { channel := ch, monitor := { s.monitor with channel := some seen } } := by
  induction es generalizing s with
  | nil =>
    obtain ⟨seen, hseen, -⟩ := h.shows
    obtain rfl := Option.some.inj hrun
    refine ⟨seen, ?_⟩
    rw [← hseen]
  | cons e es ih =>
    obtain ⟨ch', hstep, hrun⟩ := Machine.run_cons_eq_some.mp hrun
    have he := hes e List.mem_cons_self
    obtain ⟨seen, hseen⟩ := (P2PTransportChannel.kept_of_step h.books he hstep).1.exists_shows
    have hfirst : Step s _ := .channel he hstep hseen
    obtain ⟨seen', hlater⟩ := ih (h.step hfirst).1 (fun e he => hes e (List.mem_cons_of_mem _ he)) hrun
    exact ⟨seen', hlater.head hfirst⟩

/-- However a channel and its monitor take turns, the channel is in a state of its own runs, the monitor is in a state of
    its runs on the channel that it is modelled with, and what it sees there is what the channel is. Nor does the monitor
    keep the channel from a step. -/
theorem refines_of_steps {times : Nat → UInt32} {s : Monitored} (h : Relation.ReflTransGen Step (new times) s) :
    Machine.Reaches P2PTransportChannel.step (.new times) s.channel ∧
      Machine.Reaches SocketMonitor.step (.new true) s.monitor ∧
        (∃ seen, s.monitor.channel = some seen ∧ s.channel.Shows seen) ∧
          ∀ e ch, e ≠ .poll → s.channel.step e = some ch → ∃ t, Step s t ∧ t.channel = ch := by
  have hall : s.Follows ∧ Machine.Reaches P2PTransportChannel.step (.new times) s.channel ∧
      Machine.Reaches SocketMonitor.step (.new true) s.monitor := by
    induction h with
    | refl => exact ⟨follows_new times, .refl _, .refl _⟩
    | tail _ hstep ih =>
      obtain ⟨hfollows, hchannel, hmonitor⟩ := ih
      obtain ⟨hfollows', hchannel', hmonitor'⟩ := hfollows.step hstep
      exact ⟨hfollows', hchannel.trans hchannel', hmonitor.trans hmonitor'⟩
  obtain ⟨hfollows, hchannel, hmonitor⟩ := hall
  refine ⟨hchannel, hmonitor, hfollows.shows, fun e ch he hstep => ?_⟩
  obtain ⟨seen, hseen⟩ := (P2PTransportChannel.kept_of_step hfollows.books he hstep).1.exists_shows
  exact ⟨_, .channel he hstep hseen, rfl⟩

end Monitored

end ProbICE.Ice

namespace ProbICE.Ice.Monitored

attribute [local instance] Arithmetic.plain

/-- The left side has made its connection when the monitor starts and polls it. -/
theorem refines_of_steps_started :
    ∃ s, Relation.ReflTransGen Step (new fun _ => 0) s ∧ s.monitor.gathered.length = 1 ∧
      (∃ c ∈ s.channel.connections, c.reported = true) ∧ ∃ seen, s.monitor.channel = some seen ∧ s.channel.Shows seen := by
  have hunpolled : ∀ e ∈ P2PTransportChannel.leftOpening, e ≠ .poll := by
    rintro e (_ | ⟨_, _ | ⟨_, _ | ⟨_, _ | ⟨_, _ | ⟨_, ⟨⟩⟩⟩⟩⟩⟩) <;> nofun
  obtain ⟨seen, hopened⟩ := (follows_new fun _ => 0).run hunpolled P2PTransportChannel.run_leftOpening
  have hstart := hopened.tail (.monitor (e := .post .start) nofun rfl)
  have hpolled := hstart.tail (.monitor (e := .dispatch) nofun rfl)
  exact ⟨_, hpolled, rfl, ⟨_, List.mem_cons_self, rfl⟩, (refines_of_steps hpolled).2.2.1⟩

end ProbICE.Ice.Monitored
