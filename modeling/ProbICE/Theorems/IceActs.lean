import Mathlib.Logic.Relation
import ProbICE.Theorems.IceConnections

/-! # What a channel does in a step

Each event is a sequence of acts. What every act keeps, every run keeps. -/

namespace ProbICE.Ice
open Stun

section
variable [Host]

/-- What becomes of a connection, when the queue is `q` in the end. -/
structure Became (q : Queue) (c c' : Connection) : Prop where
  key : c'.key = c.key
  port : c'.port = c.port
  remote_candidate : c'.remote_candidate = c.remote_candidate
  reported : c'.reported = c.reported
  pruned : c.pruned → c'.pruned
  changed : ¬ q.sort_dirty → c'.read_state = c.read_state ∧ c'.write_state = c.write_state
  dead : c'.IsDead → c.IsDead ∨ c.key ∈ q.deletes

theorem Became.later {q q' : Queue} {c c' : Connection} (h : Became q c c') (hdirty : q.sort_dirty → q'.sort_dirty)
    (hdeletes : q.deletes ⊆ q'.deletes) : Became q' c c' :=
  { h with
    changed := fun hclean => h.changed fun hd => hclean (hdirty hd)
    dead := fun hdead => (h.dead hdead).imp_right fun hmem => hdeletes hmem }

theorem Became.refl (q : Queue) (c : Connection) : Became q c c :=
  ⟨rfl, rfl, rfl, rfl, id, fun _ => ⟨rfl, rfl⟩, Or.inl⟩

theorem Became.trans {q : Queue} {c c' c'' : Connection} (h : Became q c c') (h' : Became q c' c'') : Became q c c'' where
  key := h'.key.trans h.key
  port := h'.port.trans h.port
  remote_candidate := h'.remote_candidate.trans h.remote_candidate
  reported := h'.reported.trans h.reported
  pruned hpruned := h'.pruned (h.pruned hpruned)
  changed hclean :=
    ⟨(h'.changed hclean).1.trans (h.changed hclean).1, (h'.changed hclean).2.trans (h.changed hclean).2⟩
  dead hdead := by
    rcases h'.dead hdead with hdead' | hmem
    · exact h.dead hdead'
    · exact Or.inr (h.key ▸ hmem)

theorem Evolves.became {c c' : Connection} {q q' : Queue} (h : Evolves c q c' q') : Became q' c c' :=
  ⟨h.key, h.port, h.remote_candidate, h.reported, h.pruned, h.changed, h.dead⟩

/-- What becomes of the connections and of the queue of a channel, where the connections may be sorted. -/
structure Evolved (cs : List Connection) (q : Queue) (cs' : List Connection) (q' : Queue) : Prop where
  keys : (cs'.map Connection.key).Perm (cs.map Connection.key)
  back : ∀ c' ∈ cs', ∃ c ∈ cs, Became q' c c'
  forth : ∀ c ∈ cs, ∃ c' ∈ cs', Became q' c c'
  dirty : q.sort_dirty → q'.sort_dirty
  posted : q'.sort_dirty → q.sort_dirty ∨ q.sorts < q'.sorts
  sorts : q.sorts ≤ q'.sorts
  deletes : q.deletes ⊆ q'.deletes
  deleted : ∀ key ∈ q'.deletes, key ∈ q.deletes ∨ ∃ c ∈ cs, c.key = key

namespace Evolved

theorem of_perm {cs cs' : List Connection} (h : cs'.Perm cs) (q : Queue) : Evolved cs q cs' q :=
  ⟨h.map _, fun c hc => ⟨c, h.mem_iff.mp hc, .refl q c⟩, fun c hc => ⟨c, h.mem_iff.mpr hc, .refl q c⟩, id, Or.inl,
    Nat.le_refl _, List.Subset.refl _, fun _ => Or.inl⟩

theorem refl (cs : List Connection) (q : Queue) : Evolved cs q cs q := of_perm (.refl cs) q

theorem trans {cs cs' cs'' : List Connection} {q q' q'' : Queue} (h : Evolved cs q cs' q') (h' : Evolved cs' q' cs'' q'') :
    Evolved cs q cs'' q'' where
  keys := h'.keys.trans h.keys
  back c'' hc'' := by
    obtain ⟨c', hc', hbecame'⟩ := h'.back c'' hc''
    obtain ⟨c, hc, hbecame⟩ := h.back c' hc'
    exact ⟨c, hc, (hbecame.later h'.dirty h'.deletes).trans hbecame'⟩
  forth c hc := by
    obtain ⟨c', hc', hbecame⟩ := h.forth c hc
    obtain ⟨c'', hc'', hbecame'⟩ := h'.forth c' hc'
    exact ⟨c'', hc'', (hbecame.later h'.dirty h'.deletes).trans hbecame'⟩
  dirty hdirty := h'.dirty (h.dirty hdirty)
  posted hdirty := by
    rcases h'.posted hdirty with hdirty' | hless
    · exact (h.posted hdirty').imp_right fun hless => hless.trans_le h'.sorts
    · exact Or.inr (h.sorts.trans_lt hless)
  sorts := h.sorts.trans h'.sorts
  deletes := List.Subset.trans h.deletes h'.deletes
  deleted key hkey := by
    rcases h'.deleted key hkey with hkey | ⟨c', hc', rfl⟩
    · exact h.deleted key hkey
    · obtain ⟨c, hc, hbecame⟩ := h.back c' hc'
      exact Or.inr ⟨c, hc, hbecame.key.symm⟩

/-- One connection and then the others. -/
theorem cons {c c' : Connection} {cs cs' : List Connection} {q q' q'' : Queue} (h : Evolves c q c' q')
    (h' : Evolved cs q' cs' q'') : Evolved (c :: cs) q (c' :: cs') q'' where
  keys := by
    rw [List.map_cons, List.map_cons, h.key]
    exact h'.keys.cons _
  back x hx := by
    rcases List.mem_cons.mp hx with rfl | hx
    · exact ⟨c, List.mem_cons_self, h.became.later h'.dirty h'.deletes⟩
    · obtain ⟨y, hy, hbecame⟩ := h'.back x hx
      exact ⟨y, List.mem_cons_of_mem _ hy, hbecame⟩
  forth x hx := by
    rcases List.mem_cons.mp hx with rfl | hx
    · exact ⟨c', List.mem_cons_self, h.became.later h'.dirty h'.deletes⟩
    · obtain ⟨y, hy, hbecame⟩ := h'.forth x hx
      exact ⟨y, List.mem_cons_of_mem _ hy, hbecame⟩
  dirty hdirty := h'.dirty (h.dirty hdirty)
  posted hdirty := by
    rcases h'.posted hdirty with hdirty' | hless
    · exact (h.posted hdirty').imp_right fun hless => hless.trans_le h'.sorts
    · exact Or.inr (h.sorts.trans_lt hless)
  sorts := h.sorts.trans h'.sorts
  deletes := List.Subset.trans h.deletes h'.deletes
  deleted key hkey := by
    rcases h'.deleted key hkey with hkey | ⟨x, hx, rfl⟩
    · exact (h.deleted key hkey).imp_right fun hkey => ⟨c, List.mem_cons_self, hkey.symm⟩
    · exact Or.inr ⟨x, List.mem_cons_of_mem _ hx, rfl⟩

end Evolved

end

variable [Arithmetic]

namespace P2PTransportChannel

theorem connection_key {ch : P2PTransportChannel} {key : Nat} {c : Connection} (h : ch.connection key = some c) :
    c.key = key := by
  have hfound := List.find?_some h
  exact of_decide_eq_true hfound

theorem connection_mem {ch : P2PTransportChannel} {key : Nat} {c : Connection} (h : ch.connection key = some c) :
    c ∈ ch.connections :=
  List.mem_of_find?_eq_some h

theorem port_key {ch : P2PTransportChannel} {key : Nat} {port : Port} (h : ch.port key = some port) : port.key = key := by
  have hfound := List.find?_some h
  exact of_decide_eq_true hfound

theorem port_mem {ch : P2PTransportChannel} {key : Nat} {port : Port} (h : ch.port key = some port) :
    port ∈ ch.allocated :=
  List.mem_of_find?_eq_some h

theorem evolved_visit {f : Connection → Queue → Connection × Queue} (hf : Evolving f) (cs : List Connection) (q : Queue) :
    Evolved cs q (visit f cs q).1 (visit f cs q).2 := by
  induction cs generalizing q with
  | nil => exact .refl [] q
  | cons c cs ih => exact .cons (hf c q) (ih _)

/-- Nothing is changed but connections and the queue. -/
structure Worked (ch ch' : P2PTransportChannel) : Prop where
  same : ch' = { ch with connections := ch'.connections, queue := ch'.queue }
  evolved : Evolved ch.connections ch.queue ch'.connections ch'.queue

theorem Worked.refl (ch : P2PTransportChannel) : Worked ch ch := ⟨rfl, .refl _ _⟩

theorem Worked.trans {ch ch' ch'' : P2PTransportChannel} (h : Worked ch ch') (h' : Worked ch' ch'') : Worked ch ch'' where
  same := h'.same.trans (by rw [h.same])
  evolved := h.evolved.trans h'.evolved

theorem worked_forConnections (ch : P2PTransportChannel) {f : Connection → Queue → Connection × Queue} (hf : Evolving f) :
    Worked ch (ch.forConnections f) :=
  ⟨rfl, evolved_visit hf _ _⟩

theorem worked_pruneNetwork (ch : P2PTransportChannel) (network : Nat) : Worked ch (ch.pruneNetwork network) := by
  unfold pruneNetwork
  split
  · exact .refl ch
  split
  · exact .refl ch
  · exact worked_forConnections ch Connection.evolving_Prune.ite

theorem worked_pruneNetworks (networks : List Nat) (ch : P2PTransportChannel) :
    Worked ch (networks.foldl pruneNetwork ch) := by
  induction networks generalizing ch with
  | nil => exact .refl ch
  | cons network networks ih => exact (worked_pruneNetwork ch network).trans (ih _)

/-- The ports and the candidates stay as they are. -/
structure SameBooks (ch ch' : P2PTransportChannel) : Prop where
  allocated : ch'.allocated = ch.allocated
  ports_constructed : ch'.ports_constructed = ch.ports_constructed
  ports : ch'.ports = ch.ports
  constructed : ch'.constructed = ch.constructed
  remote_candidates : ch'.remote_candidates = ch.remote_candidates
  pinging_started : ch'.pinging_started = ch.pinging_started
  incoming_only : ch'.incoming_only = ch.incoming_only
  pings : ch'.pings = ch.pings
  sent : ch'.sent = ch.sent
  received : ch'.received = ch.received

theorem SameBooks.trans {ch ch' ch'' : P2PTransportChannel} (h : SameBooks ch ch') (h' : SameBooks ch' ch'') :
    SameBooks ch ch'' where
  allocated := h'.allocated.trans h.allocated
  ports_constructed := h'.ports_constructed.trans h.ports_constructed
  ports := h'.ports.trans h.ports
  constructed := h'.constructed.trans h.constructed
  remote_candidates := h'.remote_candidates.trans h.remote_candidates
  pinging_started := h'.pinging_started.trans h.pinging_started
  incoming_only := h'.incoming_only.trans h.incoming_only
  pings := h'.pings.trans h.pings
  sent := h'.sent.trans h.sent
  received := h'.received.trans h.received

theorem Worked.books {ch ch' : P2PTransportChannel} (h : Worked ch ch') : SameBooks ch ch' := by
  rw [h.same]
  exact ⟨rfl, rfl, rfl, rfl, rfl, rfl, rfl, rfl, rfl, rfl⟩

/-- The part of `settle` before the flags are set. -/
def choose (ch : P2PTransportChannel) : P2PTransportChannel :=
  let ch := { ch with queue := { ch.queue with sort_dirty := false } }
  (ch.connections.map (·.port.network)).dedup.foldl pruneNetwork ch.chooseBest

theorem settle_eq (ch : P2PTransportChannel) : ch.settle = ch.choose.handleStates.UpdateChannelState := rfl

theorem sortConnections_eq (ch : P2PTransportChannel) : ch.SortConnections = ch.UpdateConnectionStates.settle := rfl

theorem sorted_perm (connections : List Connection) : (sorted connections).Perm connections :=
  List.perm_insertionSort _ _

/-- Choosing the best connection leaves all but the order of the connections. -/
theorem evolved_chooseBest (ch : P2PTransportChannel) : Evolved ch.connections ch.queue ch.chooseBest.connections ch.queue := by
  unfold chooseBest
  dsimp only
  split <;> exact .of_perm (sorted_perm _) _

theorem chooseBest_queue (ch : P2PTransportChannel) : ch.chooseBest.queue = ch.queue := by
  unfold chooseBest
  dsimp only
  split <;> rfl

theorem books_chooseBest (ch : P2PTransportChannel) : SameBooks ch ch.chooseBest := by
  unfold chooseBest
  dsimp only
  split <;> exact ⟨rfl, rfl, rfl, rfl, rfl, rfl, rfl, rfl, rfl, rfl⟩

/-- The best connection is one of the connections. -/
theorem chooseBest_best {ch : P2PTransportChannel} {key : Nat} (h : ch.chooseBest.best_connection = some key) :
    ch.best_connection = some key ∨ ∃ c ∈ ch.connections, c.key = key := by
  unfold chooseBest at h
  dsimp only at h
  split at h
  · right
    obtain ⟨c, hc, rfl⟩ := Option.map_eq_some_iff.mp h
    exact ⟨c, (sorted_perm _).mem_iff.mp (List.mem_of_mem_head? hc), rfl⟩
  · exact Or.inl h

theorem evolved_choose (ch : P2PTransportChannel) :
    Evolved ch.connections { ch.queue with sort_dirty := false } ch.choose.connections ch.choose.queue := by
  have hchoose := evolved_chooseBest { ch with queue := { ch.queue with sort_dirty := false } }
  have hprune := (worked_pruneNetworks (ch.connections.map (·.port.network)).dedup
    { ch with queue := { ch.queue with sort_dirty := false } }.chooseBest).evolved
  rw [chooseBest_queue] at hprune
  exact hchoose.trans hprune

theorem choose_best_connection (ch : P2PTransportChannel) :
    ch.choose.best_connection = { ch with queue := { ch.queue with sort_dirty := false } }.chooseBest.best_connection := by
  unfold choose
  rw [(worked_pruneNetworks _ _).same]

theorem books_choose (ch : P2PTransportChannel) : SameBooks ch ch.choose := by
  have hdirty : SameBooks ch { ch with queue := { ch.queue with sort_dirty := false } } :=
    ⟨rfl, rfl, rfl, rfl, rfl, rfl, rfl, rfl, rfl, rfl⟩
  exact (hdirty.trans (books_chooseBest _)).trans (worked_pruneNetworks _ _).books

/-- The handlers set flags and plan allocations. -/
theorem handleStates_same (ch : P2PTransportChannel) :
    ch.handleStates =
      { ch with
        allocator_sessions := ch.handleStates.allocator_sessions
        waiting_for_signaling := ch.handleStates.waiting_for_signaling
        allocates := ch.handleStates.allocates
        was_writable := ch.handleStates.was_writable
        was_timed_out := ch.handleStates.was_timed_out
        writable := ch.handleStates.writable } := by
  unfold handleStates HandleWritable HandleNotWritable HandleAllTimedOut
  split_ifs <;> rfl

theorem settle_connections (ch : P2PTransportChannel) : ch.settle.connections = ch.choose.connections := by
  rw [settle_eq, UpdateChannelState, handleStates_same]

theorem settle_queue (ch : P2PTransportChannel) : ch.settle.queue = ch.choose.queue := by
  rw [settle_eq, UpdateChannelState, handleStates_same]

theorem settle_best_connection (ch : P2PTransportChannel) : ch.settle.best_connection = ch.choose.best_connection := by
  rw [settle_eq, UpdateChannelState, handleStates_same]

theorem books_settle (ch : P2PTransportChannel) : SameBooks ch ch.settle := by
  have hflags : SameBooks ch.choose ch.settle := by
    rw [settle_eq, UpdateChannelState, handleStates_same]
    exact ⟨rfl, rfl, rfl, rfl, rfl, rfl, rfl, rfl, rfl, rfl⟩
  exact (books_choose ch).trans hflags

theorem evolved_settle (ch : P2PTransportChannel) :
    Evolved ch.connections { ch.queue with sort_dirty := false } ch.settle.connections ch.settle.queue := by
  rw [settle_connections, settle_queue]
  exact evolved_choose ch

/-- The best connection after a sort is one of the connections. -/
theorem settle_best {ch : P2PTransportChannel} {key : Nat} (h : ch.settle.best_connection = some key) :
    ch.best_connection = some key ∨ ∃ c ∈ ch.connections, c.key = key := by
  rw [settle_best_connection, choose_best_connection] at h
  have hbest := chooseBest_best h
  exact hbest

/-! ### Acts -/

/-- The clock is read, or packets are sent or passed on. -/
def Idle (ch ch' : P2PTransportChannel) : Prop :=
  ch' = { ch with times := ch'.times, sent := ch'.sent, received := ch'.received }

/-- What a step may do besides what all steps may do. -/
structure Scope where
  /-- There may be new ports and new candidates. -/
  opens : Bool
  /-- The new port. -/
  ready : Option Port
  /-- A connection may be found to be readable or writable, or be pinged. -/
  touches : Bool
  /-- A packet may be passed on. -/
  passes : Bool
  /-- A monitor may see the connections. -/
  polls : Bool

def Scope.none : Scope := { opens := false, ready := .none, touches := false, passes := false, polls := false }

/-- The ports and the candidates stay. -/
def Scope.inside : Scope := { Scope.none with touches := true, passes := true }

/-- What happens in a step, one after the other. -/
inductive Act (scope : Scope) : P2PTransportChannel → P2PTransportChannel → Prop where
  | idle {ch ch' : P2PTransportChannel} (h : Idle ch ch') (hreceived : scope.passes = false → ch'.received = ch.received) :
      Act scope ch ch'
  | work (ch : P2PTransportChannel) {f : Connection → Queue → Connection × Queue} (hf : Evolving f)
      (htame : scope.touches = false → Taming f) : Act scope ch (ch.forConnections f)
  | settle (ch : P2PTransportChannel) : Act scope ch ch.settle
  | sort {ch : P2PTransportChannel} (h : 0 < ch.queue.sorts) :
      Act scope ch { ch with queue := { ch.queue with sorts := ch.queue.sorts - 1 } }.SortConnections
  | create {ch : P2PTransportChannel} {port : Port} {remote_candidate : Candidate} (hport : ch.port port.key = some port)
      (hnone : (port.GetConnection remote_candidate.address).bind ch.connection = none) :
      Act scope ch (ch.PortCreateConnection port remote_candidate).2
  | remember (hopens : scope.opens = true) (ch : P2PTransportChannel) (remote_candidate : Candidate) (origin_port : Option Nat) :
      Act scope ch (ch.RememberRemoteCandidate remote_candidate origin_port)
  | addPort (hopens : scope.opens = true) {ch : P2PTransportChannel} {port : Port} (hready : scope.ready = some port)
      (hkey : port.key = ch.ports_constructed) (hconnections : port.connections = []) (hlifetime : port.lifetime ≠ .postTimeout) :
      Act scope ch (ch.addPort port)
  | startPort (ch : P2PTransportChannel) (key : Nat) : Act scope ch (ch.StartPort key)
  | portTimeout (ch : P2PTransportChannel) (key : Nat) : Act scope ch (ch.OnPortTimeout key)
  | delete {ch : P2PTransportChannel} {c : Connection} (hc : ch.connection c.key = some c)
      (hdelete : c.key ∈ ch.queue.deletes) : Act scope ch (ch.OnDelete c)
  | signalingReady (ch : P2PTransportChannel) : Act scope ch ch.OnSignalingReady
  | allocate (ch : P2PTransportChannel) : Act scope ch ch.Allocate
  | poll (hpolling : scope.polls = true) (ch : P2PTransportChannel) : Act scope ch ch.PollSocket

/-- A sequence of acts. -/
abbrev Acts (scope : Scope) : P2PTransportChannel → P2PTransportChannel → Prop := Relation.ReflTransGen (Act scope)

variable {scope : Scope}

/-- What every act keeps, a sequence of acts keeps. -/
theorem Acts.keeps {I : P2PTransportChannel → Prop} (h : ∀ ch ch', I ch → Act scope ch ch' → I ch') {ch ch' : P2PTransportChannel}
    (hi : I ch) (hacts : Acts scope ch ch') : I ch' := by
  induction hacts with
  | refl => exact hi
  | tail _ hact ih => exact h _ _ ih hact

namespace Acts

theorem idle {ch ch' : P2PTransportChannel} (h : Idle ch ch') (hreceived : ch'.received = ch.received) : Acts scope ch ch' :=
  .single (.idle h fun _ => hreceived)

theorem forConnections (ch : P2PTransportChannel) {f : Connection → Queue → Connection × Queue} (hf : Evolving f)
    (htame : scope.touches = false → Taming f) : Acts scope ch (ch.forConnections f) :=
  .single (.work ch hf htame)

theorem forConnection (ch : P2PTransportChannel) (key : Nat) {f : Connection → Queue → Connection × Queue} (hf : Evolving f)
    (htame : scope.touches = false → Taming f) : Acts scope ch (ch.forConnection key f) :=
  forConnections ch hf.ite fun htouches => (htame htouches).ite

/-- Work on a connection where connections may be touched. -/
theorem touch (htouches : scope.touches = true) (ch : P2PTransportChannel) (key : Nat)
    {f : Connection → Queue → Connection × Queue} (hf : Evolving f) : Acts scope ch (ch.forConnection key f) :=
  forConnection ch key hf fun hnot => absurd (htouches.symm.trans hnot) Bool.noConfusion

theorem tick (ch : P2PTransportChannel) : Acts scope ch ch.tick := idle rfl rfl

theorem SendTo (ch : P2PTransportChannel) (port : Nat) (addr : SocketAddress) (data : List UInt8) :
    Acts scope ch (ch.SendTo port addr data) :=
  idle rfl rfl

theorem SignalReadPacket (hpasses : scope.passes = true) (ch : P2PTransportChannel) (data : List UInt8) :
    Acts scope ch (ch.SignalReadPacket data) :=
  .single (.idle rfl fun hnot => absurd (hpasses.symm.trans hnot) Bool.noConfusion)

theorem SendMessage (ch : P2PTransportChannel) (port : Nat) (addr : SocketAddress) (msg : Option StunMessage) :
    Acts scope ch (ch.SendMessage port addr msg) := by
  unfold P2PTransportChannel.SendMessage
  split <;> exact idle rfl rfl

theorem UpdateConnectionStates (ch : P2PTransportChannel) : Acts scope ch ch.UpdateConnectionStates :=
  (tick ch).trans (forConnections _ (Connection.evolving_UpdateState _) fun _ => Connection.taming_UpdateState _)

theorem SortConnections (ch : P2PTransportChannel) : Acts scope ch ch.SortConnections :=
  (UpdateConnectionStates ch).tail (.settle _)

theorem ReceivedPing (htouches : scope.touches = true) (ch : P2PTransportChannel) (key : Nat) :
    Acts scope ch (ch.ReceivedPing key) :=
  (tick ch).trans (touch htouches _ key (Connection.evolving_ReceivedPing _))

theorem CreateConnection (ch : P2PTransportChannel) (port : Nat) (remote_candidate : Candidate) (origin_port : Option Nat)
    (readable : Bool) (htouches : readable → scope.touches = true) :
    Acts scope ch (ch.CreateConnection port remote_candidate origin_port readable).2 := by
  unfold P2PTransportChannel.CreateConnection
  rcases hport : ch.port port with _ | port'
  · exact .refl
  dsimp only
  rcases hconnection : (port'.GetConnection remote_candidate.address).bind ch.connection with _ | connection
  · dsimp only
    have hkey : ch.port port'.key = some port' := by rw [← hport, port_key hport]
    have hcreate : Act scope ch (ch.PortCreateConnection port' remote_candidate).2 := .create hkey hconnection
    split
    · exact .refl
    split
    · rename_i ch' heq
      rw [heq] at hcreate
      exact .single hcreate
    · rename_i ch' heq
      rw [heq] at hcreate
      dsimp only
      split
      · rename_i hreadable
        exact (Relation.ReflTransGen.single hcreate).trans (ReceivedPing (htouches hreadable) _ _)
      · exact .single hcreate
  · dsimp only
    split
    · exact .refl
    · dsimp only
      split
      · rename_i hreadable
        exact ReceivedPing (htouches hreadable) _ _
      · exact .refl

theorem createOn (remote_candidate : Candidate) (origin_port : Option Nat) (readable : Bool)
    (htouches : readable → scope.touches = true) (s : Bool × P2PTransportChannel) (port : Nat) :
    Acts scope s.2 (createOn remote_candidate origin_port readable s port).2 :=
  CreateConnection s.2 port remote_candidate origin_port readable htouches

/-- A loop of acts. -/
theorem foldl {α β : Type} {f : β × P2PTransportChannel → α → β × P2PTransportChannel}
    (h : ∀ s a, Acts scope s.2 (f s a).2) (l : List α) (s : β × P2PTransportChannel) : Acts scope s.2 (l.foldl f s).2 := by
  induction l generalizing s with
  | nil => exact .refl
  | cons a l ih => exact (h s a).trans (ih _)

theorem CreateConnections (hopens : scope.opens = true) (ch : P2PTransportChannel) (remote_candidate : Candidate)
    (origin_port : Option Nat) (readable : Bool) (htouches : readable → scope.touches = true) :
    Acts scope ch (ch.CreateConnections remote_candidate origin_port readable).2 := by
  have hloop : Acts scope ch _ := foldl (createOn remote_candidate origin_port readable htouches) ch.ports.reverse (false, ch)
  unfold P2PTransportChannel.CreateConnections
  rcases origin_port with _ | port
  · exact hloop.tail (.remember hopens _ _ _)
  · dsimp only
    split
    · exact hloop.tail (.remember hopens _ _ _)
    · exact (hloop.trans (createOn remote_candidate (some port) readable htouches _ port)).tail (.remember hopens _ _ _)

theorem tryCandidates (port : Nat) (rcs : List RemoteCandidate) (ch : P2PTransportChannel) :
    Acts scope ch (rcs.foldl (tryCandidate port) ch) := by
  induction rcs generalizing ch with
  | nil => exact .refl
  | cons rc rcs ih => exact (CreateConnection ch port rc.candidate rc.origin_port false nofun).trans (ih _)

theorem OnPortReady (hopens : scope.opens = true) {ch : P2PTransportChannel} {port : Port} (hready : scope.ready = some port)
    (hkey : port.key = ch.ports_constructed) (hconnections : port.connections = []) (hlifetime : port.lifetime ≠ .postTimeout) :
    Acts scope ch (ch.OnPortReady port) :=
  ((Relation.ReflTransGen.single (Act.addPort hopens hready hkey hconnections hlifetime)).trans (tryCandidates port.key _ _)).trans
    (SortConnections _)

theorem SendBindingResponse (htouches : scope.touches = true) (ch : P2PTransportChannel) (port : Nat) (request : StunMessage) (addr : SocketAddress) :
    Acts scope ch (ch.SendBindingResponse port request addr) := by
  unfold P2PTransportChannel.SendBindingResponse
  split
  · exact .refl
  · dsimp only
    split
    · exact SendTo _ _ _ _
    · exact (SendTo _ _ _ _).trans (ReceivedPing htouches _ _)

theorem OnUnknownAddress (hopens : scope.opens = true) (htouches : scope.touches = true) (ch : P2PTransportChannel)
    (port : Nat) (address : SocketAddress) (stun_msg : StunMessage) (remote_username : CString) :
    Acts scope ch (ch.OnUnknownAddress port address stun_msg remote_username) := by
  unfold P2PTransportChannel.OnUnknownAddress
  split
  · exact SendMessage _ _ _ _
  · rename_i candidate _
    have hcreate : Acts scope ch _ :=
      CreateConnections hopens ch { candidate.candidate with address } (some port) true fun _ => htouches
    split
    · rename_i ch' heq
      rw [heq] at hcreate
      exact (hcreate.trans (SendBindingResponse htouches _ _ _ _)).trans (SortConnections _)
    · rename_i ch' heq
      rw [heq] at hcreate
      exact hcreate.trans (SendMessage _ _ _ _)

theorem OnConnectionReadPacket (htouches : scope.touches = true) (hpasses : scope.passes = true) (ch : P2PTransportChannel)
    (c : Connection) (data : List UInt8) : Acts scope ch (ch.OnConnectionReadPacket c data) := by
  unfold P2PTransportChannel.OnConnectionReadPacket
  dsimp only
  split
  · split
    · have hreceived : Evolving fun (c : Connection) q => ({ c with last_data_received := ch.Time }, q) := fun _ q =>
        Connection.evolves_of_same q rfl rfl rfl rfl id rfl rfl
      have hdata : Acts scope ch _ := (tick ch).trans (touch htouches ch.tick c.key hreceived)
      exact (hdata.trans (SignalReadPacket hpasses _ _)).trans (touch htouches _ c.key Connection.evolving_startAgain)
    · exact .refl
  · exact SendMessage _ _ _ _
  · split
    · split
      · exact SendMessage _ _ _ _
      · exact .refl
    split
    · exact (SendBindingResponse htouches _ _ _ _).trans (touch htouches _ c.key Connection.evolving_startAgain)
    · exact (tick ch).trans (touch htouches _ c.key (Connection.evolving_CheckResponse _ _))

theorem OnReadPacket (hopens : scope.opens = true) (htouches : scope.touches = true) (hpasses : scope.passes = true)
    (ch : P2PTransportChannel) (port : Port) (remote_addr : SocketAddress) (data : List UInt8) :
    Acts scope ch (ch.OnReadPacket port remote_addr data) := by
  unfold P2PTransportChannel.OnReadPacket
  split
  · exact .refl
  split
  · exact OnConnectionReadPacket htouches hpasses _ _ _
  · unfold OnPortReadPacket
    split
    · exact .refl
    · exact SendMessage _ _ _ _
    · split
      · exact OnUnknownAddress hopens htouches _ _ _ _ _
      · exact .refl

theorem SendPacket (ch : P2PTransportChannel) (data : List UInt8) : Acts scope ch (ch.SendPacket data) := by
  unfold P2PTransportChannel.SendPacket
  split
  · exact .refl
  split
  · exact .refl
  · exact idle rfl rfl

theorem OnStunSend (ch : P2PTransportChannel) (c : Connection) (request : ConnectionRequest) :
    Acts scope ch (ch.OnStunSend c request) := by
  have hsend : Acts scope ch _ := (tick ch).trans
    (forConnection ch.tick c.key (Connection.evolving_OnStunSend request.id ch.Time) fun _ =>
      Connection.taming_OnStunSend request.id ch.Time)
  unfold P2PTransportChannel.OnStunSend
  dsimp only
  split
  · exact hsend
  · exact hsend.trans (idle rfl rfl)

theorem OnPing (htouches : scope.touches = true) (ch : P2PTransportChannel) (id_ : CString) : Acts scope ch (ch.OnPing id_) := by
  unfold P2PTransportChannel.OnPing
  dsimp only
  split
  · exact (UpdateConnectionStates ch).trans (tick _)
  · exact (((UpdateConnectionStates ch).trans (tick _)).trans (tick _)).trans
      (touch htouches _ _ (Connection.evolving_Ping _ _))

end Acts

/-- What an act has nothing to do with. -/
structure Unplanned (scope : Scope) (ch ch' : P2PTransportChannel) : Prop where
  pings : ch'.pings = ch.pings
  incoming_only : ch'.incoming_only = ch.incoming_only
  received : scope.passes = false → ch'.received = ch.received

theorem Act.unplanned {ch ch' : P2PTransportChannel} (h : Act scope ch ch') : Unplanned scope ch ch' := by
  cases h with
  | idle hidle hreceived =>
    refine ⟨?_, ?_, hreceived⟩
    · rw [hidle]
    · rw [hidle]
  | work => exact ⟨rfl, rfl, fun _ => rfl⟩
  | settle =>
    have hbooks := books_settle ch
    exact ⟨hbooks.pings, hbooks.incoming_only, fun _ => hbooks.received⟩
  | sort =>
    have hbooks := books_settle { ch with queue := { ch.queue with sorts := ch.queue.sorts - 1 } }.UpdateConnectionStates
    rw [sortConnections_eq]
    exact ⟨hbooks.pings, hbooks.incoming_only, fun _ => hbooks.received⟩
  | create =>
    unfold PortCreateConnection
    split <;> exact ⟨rfl, rfl, fun _ => rfl⟩
  | remember =>
    unfold RememberRemoteCandidate
    dsimp only
    split_ifs <;> exact ⟨rfl, rfl, fun _ => rfl⟩
  | addPort => exact ⟨rfl, rfl, fun _ => rfl⟩
  | startPort => exact ⟨rfl, rfl, fun _ => rfl⟩
  | portTimeout key =>
    unfold OnPortTimeout CheckPortTimeout
    split <;> exact ⟨rfl, rfl, fun _ => rfl⟩
  | delete =>
    unfold OnDelete clearDeletes OnConnectionDestroyed OnPortConnectionDestroyed CheckPortTimeout
    dsimp only
    split_ifs <;> exact ⟨rfl, rfl, fun _ => rfl⟩
  | signalingReady =>
    unfold OnSignalingReady
    split <;> exact ⟨rfl, rfl, fun _ => rfl⟩
  | allocate => exact ⟨rfl, rfl, fun _ => rfl⟩
  | poll => exact ⟨rfl, rfl, fun _ => rfl⟩

theorem Acts.unplanned {ch ch' : P2PTransportChannel} (h : Acts scope ch ch') : Unplanned scope ch ch' := by
  induction h with
  | refl => exact ⟨rfl, rfl, fun _ => rfl⟩
  | tail _ hact ih =>
    have hlast := hact.unplanned
    exact ⟨hlast.pings.trans ih.pings, hlast.incoming_only.trans ih.incoming_only,
      fun hpasses => (hlast.received hpasses).trans (ih.received hpasses)⟩

def Event.toScope : Event → Scope
  | .portReady port => { Scope.none with opens := true, ready := some port }
  | .candidate _ => { Scope.none with opens := true }
  | .packet _ _ _ => { Scope.none with opens := true, touches := true, passes := true }
  | .ping _ => { Scope.none with touches := true }
  | .poll => { Scope.none with polls := true }
  | _ => Scope.none

/-- Each event is a sequence of acts, but the first one of a channel, which posts the `MSG_PING` that all others come of. -/
theorem acts_of_step {ch ch' : P2PTransportChannel} {e : Event} (h : ch.step e = some ch') :
    Acts e.toScope ch ch' ∨ ch.pings = 0 ∧ ch' = { ch.Allocate with pings := 1 } := by
  cases e with
  | connect =>
    obtain ⟨hpings, heq⟩ := Option.ite_none_right_eq_some.mp h
    obtain rfl := Option.some.inj heq
    exact Or.inr ⟨hpings, rfl⟩
  | signalingReady =>
    obtain rfl := Option.some.inj h
    exact Or.inl (.single (.signalingReady ch))
  | portReady port =>
    obtain ⟨⟨hkey, hconnections, hlifetime⟩, heq⟩ := Option.ite_none_right_eq_some.mp h
    obtain rfl := Option.some.inj heq
    exact Or.inl (.OnPortReady rfl rfl hkey hconnections hlifetime)
  | startPort key =>
    obtain rfl := Option.some.inj h
    exact Or.inl (.single (.startPort ch key))
  | candidate candidate =>
    obtain rfl := Option.some.inj h
    exact Or.inl ((Acts.CreateConnections rfl ch candidate none false nofun).trans (Acts.SortConnections _))
  | packet key remote_addr data =>
    obtain ⟨port, -, rfl⟩ := Option.map_eq_some_iff.mp h
    exact Or.inl (.OnReadPacket rfl rfl rfl ch port remote_addr data)
  | sendPacket data =>
    obtain rfl := Option.some.inj h
    exact Or.inl (.SendPacket ch data)
  | sort =>
    obtain ⟨hsorts, heq⟩ := Option.ite_none_right_eq_some.mp h
    obtain rfl := Option.some.inj heq
    exact Or.inl (.single (.sort hsorts))
  | ping id_ =>
    obtain ⟨⟨hpings, -⟩, heq⟩ := Option.ite_none_right_eq_some.mp h
    obtain rfl := Option.some.inj heq
    have hacts : Acts (Event.ping id_).toScope ch (ch.OnPing id_) := .OnPing rfl ch id_
    have hsame : { ch.OnPing id_ with pings := ch.pings - 1 + 1 } = ch.OnPing id_ := by
      rw [Nat.sub_add_cancel hpings, ← hacts.unplanned.pings]
    rw [hsame]
    exact Or.inl hacts
  | allocate =>
    obtain ⟨-, heq⟩ := Option.ite_none_right_eq_some.mp h
    obtain rfl := Option.some.inj heq
    exact Or.inl (.single (.allocate ch))
  | stunSend key id_ =>
    obtain ⟨c, -, h⟩ := Option.bind_eq_some_iff.mp h
    obtain ⟨request, -, heq⟩ := Option.bind_eq_some_iff.mp h
    obtain rfl := Option.some.inj heq
    exact Or.inl (.OnStunSend ch c request)
  | delete key =>
    obtain ⟨hdelete, heq⟩ := Option.ite_none_right_eq_some.mp h
    obtain ⟨c, hc, rfl⟩ := Option.map_eq_some_iff.mp heq
    obtain rfl := connection_key hc
    exact Or.inl (.single (.delete hc hdelete))
  | portTimeout key =>
    obtain ⟨-, heq⟩ := Option.ite_none_right_eq_some.mp h
    obtain rfl := Option.some.inj heq
    exact Or.inl (.single (.portTimeout ch key))
  | poll =>
    obtain rfl := Option.some.inj h
    exact Or.inl (.single (.poll rfl ch))

/-- What every act keeps, whatever the count of the `MSG_PING`s, every run keeps. -/
theorem run_keeps {I : P2PTransportChannel → Prop} (hact : ∀ scope ch ch', I ch → Act scope ch ch' → I ch')
    (hpings : ∀ ch pings, I ch → I { ch with pings }) {ch ch' : P2PTransportChannel} {es : List Event} (hi : I ch)
    (hrun : ch.run es = some ch') : I ch' := by
  refine Machine.run_keeps (fun s t e _ hs hstep => ?_) hi hrun
  rcases acts_of_step hstep with hacts | ⟨-, rfl⟩
  · exact hacts.keeps (hact e.toScope) hs
  · exact hpings _ 1 (hact e.toScope _ _ hs (.allocate s))

end P2PTransportChannel

end ProbICE.Ice
