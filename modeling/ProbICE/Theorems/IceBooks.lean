import Mathlib.Data.List.Pairwise
import ProbICE.Theorems.IceActs

/-! # The books of a channel

The ports find their connections by address, and the channel keeps them in a list. Both speak of the same
connections as long as the channel lives, and nothing in the books points to what is gone. -/

namespace ProbICE

namespace SocketAddress

theorem equal_iff {a b : SocketAddress} :
    a.Equal b ↔ a.ip = b.ip ∧ (IPIsAny a.ip → a.hostname = b.hostname) ∧ a.port = b.port :=
  decide_eq_true_iff

theorem Equal.refl (a : SocketAddress) : a.Equal a := equal_iff.mpr ⟨rfl, fun _ => rfl, rfl⟩

theorem Equal.symm {a b : SocketAddress} (h : a.Equal b) : b.Equal a := by
  obtain ⟨hip, hname, hport⟩ := equal_iff.mp h
  exact equal_iff.mpr ⟨hip.symm, fun hany => (hname (hip ▸ hany)).symm, hport.symm⟩

theorem Equal.trans {a b c : SocketAddress} (h : a.Equal b) (h' : b.Equal c) : a.Equal c := by
  obtain ⟨hip, hname, hport⟩ := equal_iff.mp h
  obtain ⟨hip', hname', hport'⟩ := equal_iff.mp h'
  exact equal_iff.mpr ⟨hip.trans hip', fun hany => (hname hany).trans (hname' (hip ▸ hany)), hport.trans hport'⟩

end SocketAddress

namespace Ice.P2PTransportChannel
open Stun

section
variable [Arithmetic]

instance : Std.Symm fun entry entry' : SocketAddress × Nat => ¬ entry.1.Equal entry'.1 :=
  ⟨fun _ _ hne hequal => hne (SocketAddress.Equal.symm hequal)⟩

/-- The books agree with each other. -/
structure Books (ch : P2PTransportChannel) : Prop where
  ports_nodup : (ch.allocated.map fun p => p.key).Nodup
  ports_lt : ∀ p ∈ ch.allocated, p.key < ch.ports_constructed
  ports_alive : ∀ key ∈ ch.ports, ∃ p ∈ ch.allocated, p.key = key
  keys_nodup : (ch.connections.map Connection.key).Nodup
  keys_lt : ∀ c ∈ ch.connections, c.key < ch.constructed.length
  known : ∀ c ∈ ch.connections, ∃ p ∈ ch.allocated,
    p.toPortBase = c.port ∧ (c.remote_candidate.address, c.key) ∈ p.connections
  entries : ∀ p ∈ ch.allocated, ∀ entry ∈ p.connections, ∃ c ∈ ch.connections,
    c.key = entry.2 ∧ c.remote_candidate.address = entry.1 ∧ c.port = p.toPortBase
  distinct : ∀ p ∈ ch.allocated, p.connections.Pairwise fun entry entry' => ¬ entry.1.Equal entry'.1
  best : ∀ key, ch.best_connection = some key → ∃ c ∈ ch.connections, c.key = key
  deletes : ∀ key ∈ ch.queue.deletes, ∃ c ∈ ch.connections, c.key = key
  dead : ∀ c ∈ ch.connections, c.IsDead → c.key ∈ ch.queue.deletes

/-- A port whose time is over has connections. -/
def InUse (ch : P2PTransportChannel) : Prop := ∀ p ∈ ch.allocated, p.lifetime = .postTimeout → p.connections ≠ []

theorem books_new (times : Nat → UInt32) : (new times).Books :=
  ⟨List.nodup_nil, fun _ h => absurd h List.not_mem_nil, fun _ h => absurd h List.not_mem_nil, List.nodup_nil,
    fun _ h => absurd h List.not_mem_nil, fun _ h => absurd h List.not_mem_nil, fun _ h => absurd h List.not_mem_nil,
    fun _ h => absurd h List.not_mem_nil, fun _ h => absurd h.symm (Option.some_ne_none _),
    fun _ h => absurd h List.not_mem_nil, fun _ h => absurd h List.not_mem_nil⟩

namespace Books

variable {ch ch' : P2PTransportChannel} {scope : Scope}

theorem port_eq (h : ch.Books) {p p' : Port} (hp : p ∈ ch.allocated) (hp' : p' ∈ ch.allocated) (hkey : p.key = p'.key) :
    p = p' :=
  List.inj_on_of_nodup_map h.ports_nodup hp hp' hkey

theorem connection_eq (h : ch.Books) {c c' : Connection} (hc : c ∈ ch.connections) (hc' : c' ∈ ch.connections)
    (hkey : c.key = c'.key) : c = c' :=
  List.inj_on_of_nodup_map h.keys_nodup hc hc' hkey

theorem connection_of_mem (h : ch.Books) {c : Connection} (hc : c ∈ ch.connections) : ch.connection c.key = some c := by
  rcases hfind : ch.connection c.key with _ | c'
  · exact absurd (decide_eq_true rfl) (List.find?_eq_none.mp hfind c hc)
  · rw [h.connection_eq (connection_mem hfind) hc (connection_key hfind)]

theorem port_of_mem (h : ch.Books) {p : Port} (hp : p ∈ ch.allocated) : ch.port p.key = some p := by
  rcases hfind : ch.port p.key with _ | p'
  · exact absurd (decide_eq_true rfl) (List.find?_eq_none.mp hfind p hp)
  · rw [h.port_eq (port_mem hfind) hp (port_key hfind)]

/-- An address that a port has no connection for. -/
theorem not_equal_of_none (h : ch.Books) {p : Port} (hp : p ∈ ch.allocated) {address : SocketAddress}
    (hnone : (p.GetConnection address).bind ch.connection = none) : ∀ entry ∈ p.connections, ¬ entry.1.Equal address := by
  intro entry hentry hequal
  rcases hfind : p.connections.find? fun entry => entry.1.Equal address with _ | found
  · exact List.find?_eq_none.mp hfind entry hentry hequal
  · obtain ⟨c, hc, hkey, -, -⟩ := h.entries p hp found (List.mem_of_find?_eq_some hfind)
    have hget : p.GetConnection address = some c.key := by rw [Port.GetConnection, hfind, hkey]; rfl
    rw [hget, Option.bind_some, h.connection_of_mem hc] at hnone
    cases hnone

/-- Work on the connections leaves the books in order. -/
theorem evolved (h : ch.Books) (hbooks : SameBooks ch ch') {q : Queue} (hq : q.deletes = ch.queue.deletes)
    (hevolved : Evolved ch.connections q ch'.connections ch'.queue)
    (hbest : ∀ key, ch'.best_connection = some key → ch.best_connection = some key ∨ ∃ c ∈ ch.connections, c.key = key) :
    ch'.Books where
  ports_nodup := by
    rw [hbooks.allocated]
    exact h.ports_nodup
  ports_lt := by
    rw [hbooks.allocated, hbooks.ports_constructed]
    exact h.ports_lt
  ports_alive := by
    rw [hbooks.allocated, hbooks.ports]
    exact h.ports_alive
  keys_nodup := hevolved.keys.nodup_iff.mpr h.keys_nodup
  keys_lt c' hc' := by
    obtain ⟨c, hc, hbecame⟩ := hevolved.back c' hc'
    rw [hbooks.constructed, hbecame.key]
    exact h.keys_lt c hc
  known c' hc' := by
    obtain ⟨c, hc, hbecame⟩ := hevolved.back c' hc'
    rw [hbooks.allocated, hbecame.port, hbecame.remote_candidate, hbecame.key]
    exact h.known c hc
  entries p hp entry hentry := by
    rw [hbooks.allocated] at hp
    obtain ⟨c, hc, hkey, haddress, hport⟩ := h.entries p hp entry hentry
    obtain ⟨c', hc', hbecame⟩ := hevolved.forth c hc
    refine ⟨c', hc', ?_, ?_, ?_⟩
    · rw [hbecame.key, hkey]
    · rw [hbecame.remote_candidate, haddress]
    · rw [hbecame.port, hport]
  distinct := by
    rw [hbooks.allocated]
    exact h.distinct
  best key hkey := by
    obtain ⟨c, hc, rfl⟩ : ∃ c ∈ ch.connections, c.key = key := by
      rcases hbest key hkey with hold | hnew
      · exact h.best key hold
      · exact hnew
    obtain ⟨c', hc', hbecame⟩ := hevolved.forth c hc
    exact ⟨c', hc', hbecame.key⟩
  deletes key hkey := by
    obtain ⟨c, hc, rfl⟩ : ∃ c ∈ ch.connections, c.key = key := by
      rcases hevolved.deleted key hkey with hold | hnew
      · exact h.deletes key (hq ▸ hold)
      · exact hnew
    obtain ⟨c', hc', hbecame⟩ := hevolved.forth c hc
    exact ⟨c', hc', hbecame.key⟩
  dead c' hc' hdead := by
    obtain ⟨c, hc, hbecame⟩ := hevolved.back c' hc'
    rw [hbecame.key]
    rcases hbecame.dead hdead with hdead | hmem
    · exact hevolved.deletes (hq ▸ h.dead c hc hdead)
    · exact hmem

/-! #### Ports -/

theorem mem_modifyPort {key : Nat} {f : Port → Port} {p' : Port} :
    p' ∈ (ch.modifyPort key f).allocated ↔ ∃ p ∈ ch.allocated, (if p.key = key then f p else p) = p' :=
  List.mem_map

/-- A port that is modified remains the port that it is. -/
theorem modifyPort_keys {key : Nat} {f : Port → Port} (hf : ∀ p, (f p).toPortBase = p.toPortBase) :
    (ch.modifyPort key f).allocated.map (fun p => p.key) = ch.allocated.map fun p => p.key := by
  unfold modifyPort
  rw [List.map_map]
  refine List.map_congr_left fun p _ => ?_
  dsimp only [Function.comp_apply]
  split
  · rw [hf]
  · rfl

theorem modified_base {key : Nat} {f : Port → Port} (hf : ∀ p, (f p).toPortBase = p.toPortBase) (p : Port) :
    (if p.key = key then f p else p).toPortBase = p.toPortBase := by
  split
  · exact hf p
  · rfl

/-- A port gets a connection for an address that it has none for. -/
theorem create (h : ch.Books) {port : Port} {remote_candidate : Candidate} (hport : ch.port port.key = some port)
    (hnone : (port.GetConnection remote_candidate.address).bind ch.connection = none) :
    (ch.PortCreateConnection port remote_candidate).2.Books := by
  unfold PortCreateConnection
  split
  · exact h
  have hmem := port_mem hport
  have hfree := h.not_equal_of_none hmem hnone
  have hbase : ∀ p : Port, ({ p with connections := p.connections ++ [(remote_candidate.address, ch.constructed.length)] } :
      Port).toPortBase = p.toPortBase := fun _ => rfl
  refine ⟨?_, ?_, ?_, ?_, ?_, ?_, ?_, ?_, ?_, ?_, ?_⟩
  · dsimp only
    rw [modifyPort_keys hbase]
    exact h.ports_nodup
  · intro p' hp'
    obtain ⟨p, hp, rfl⟩ := mem_modifyPort.mp hp'
    rw [modified_base hbase]
    exact h.ports_lt p hp
  · intro key hkey
    obtain ⟨p, hp, rfl⟩ := h.ports_alive key hkey
    exact ⟨_, mem_modifyPort.mpr ⟨p, hp, rfl⟩, by rw [modified_base hbase]⟩
  · dsimp only
    rw [List.map_append, List.nodup_append]
    refine ⟨h.keys_nodup, List.nodup_singleton _, fun key hkey key' hkey' => ?_⟩
    obtain ⟨c, hc, rfl⟩ := List.mem_map.mp hkey
    obtain rfl := List.mem_singleton.mp hkey'
    exact Nat.ne_of_lt (h.keys_lt c hc)
  · intro c hc
    have hlength : (ch.constructed ++ [(port.key, remote_candidate.address)]).length = ch.constructed.length + 1 :=
      List.length_append
    rcases List.mem_append.mp hc with hc | hc
    · exact (h.keys_lt c hc).trans_le (by rw [hlength]; exact Nat.le_succ _)
    · rw [List.mem_singleton.mp hc, hlength]
      exact Nat.lt_succ_self _
  · intro c hc
    rcases List.mem_append.mp hc with hc | hc
    · obtain ⟨p, hp, hpbase, hentry⟩ := h.known c hc
      refine ⟨_, mem_modifyPort.mpr ⟨p, hp, rfl⟩, by rw [modified_base hbase, hpbase], ?_⟩
      split
      · exact List.mem_append_left _ hentry
      · exact hentry
    · rw [List.mem_singleton.mp hc]
      refine ⟨_, mem_modifyPort.mpr ⟨port, hmem, rfl⟩, modified_base hbase port, ?_⟩
      rw [if_pos rfl]
      exact List.mem_append_right _ (List.mem_singleton.mpr rfl)
  · intro p' hp' entry hentry
    obtain ⟨p, hp, rfl⟩ := mem_modifyPort.mp hp'
    rw [modified_base hbase]
    have hcases : entry ∈ p.connections ∨
        p.key = port.key ∧ entry = (remote_candidate.address, ch.constructed.length) := by
      split at hentry
      · rename_i hkey
        exact (List.mem_append.mp hentry).imp_right fun hnew => ⟨hkey, List.mem_singleton.mp hnew⟩
      · exact Or.inl hentry
    rcases hcases with hold | ⟨hkey, rfl⟩
    · obtain ⟨c, hc, hfits⟩ := h.entries p hp entry hold
      exact ⟨c, List.mem_append_left _ hc, hfits⟩
    · obtain rfl := h.port_eq hp hmem hkey
      exact ⟨_, List.mem_append_right _ (List.mem_singleton.mpr rfl), rfl, rfl, rfl⟩
  · intro p' hp'
    obtain ⟨p, hp, rfl⟩ := mem_modifyPort.mp hp'
    split
    · rename_i hkey
      obtain rfl := h.port_eq hp hmem hkey
      refine List.pairwise_append.mpr ⟨h.distinct p hp, List.pairwise_singleton _ _, fun entry hentry entry' hentry' => ?_⟩
      rw [List.mem_singleton.mp hentry']
      exact hfree entry hentry
    · exact h.distinct p hp
  · intro key hkey
    obtain ⟨c, hc, hckey⟩ := h.best key hkey
    exact ⟨c, List.mem_append_left _ hc, hckey⟩
  · intro key hkey
    obtain ⟨c, hc, hckey⟩ := h.deletes key hkey
    exact ⟨c, List.mem_append_left _ hc, hckey⟩
  · intro c hc hdead
    rcases List.mem_append.mp hc with hc | hc
    · exact h.dead c hc hdead
    · rw [List.mem_singleton.mp hc] at hdead
      exact absurd hdead (by simp [Connection.IsDead, Connection.new])

/-- What is not in the books may change, and the channel may leave ports alone. -/
theorem congr (h : ch.Books) (hallocated : ch'.allocated = ch.allocated)
    (hports_constructed : ch'.ports_constructed = ch.ports_constructed) (hports : ch'.ports ⊆ ch.ports)
    (hconnections : ch'.connections = ch.connections) (hconstructed : ch'.constructed = ch.constructed)
    (hbest : ch'.best_connection = ch.best_connection) (hdeletes : ch'.queue.deletes = ch.queue.deletes) : ch'.Books := by
  refine ⟨?_, ?_, ?_, ?_, ?_, ?_, ?_, ?_, ?_, ?_, ?_⟩
  · exact hallocated ▸ h.ports_nodup
  · rw [hallocated, hports_constructed]
    exact h.ports_lt
  · rw [hallocated]
    exact fun key hkey => h.ports_alive key (hports hkey)
  · exact hconnections ▸ h.keys_nodup
  · rw [hconnections, hconstructed]
    exact h.keys_lt
  · rw [hconnections, hallocated]
    exact h.known
  · rw [hallocated, hconnections]
    exact h.entries
  · exact hallocated ▸ h.distinct
  · rw [hbest, hconnections]
    exact h.best
  · rw [hdeletes, hconnections]
    exact h.deletes
  · rw [hdeletes, hconnections]
    exact h.dead

theorem addPort (h : ch.Books) {port : Port} (hkey : port.key = ch.ports_constructed)
    (hconnections : port.connections = []) : (ch.addPort port).Books where
  ports_nodup := by
    unfold P2PTransportChannel.addPort
    dsimp only
    rw [List.map_append, List.nodup_append]
    refine ⟨h.ports_nodup, List.nodup_singleton _, fun key hmem key' hmem' => ?_⟩
    obtain ⟨p, hp, rfl⟩ := List.mem_map.mp hmem
    rw [List.map_singleton, List.mem_singleton] at hmem'
    rw [hmem', hkey]
    exact Nat.ne_of_lt (h.ports_lt p hp)
  ports_lt p hp := by
    rcases List.mem_append.mp hp with hp | hp
    · exact (h.ports_lt p hp).trans (Nat.lt_succ_self _)
    · rw [List.mem_singleton.mp hp, hkey]
      exact Nat.lt_succ_self _
  ports_alive key hmem := by
    rcases List.mem_append.mp hmem with hmem | hmem
    · obtain ⟨p, hp, hpkey⟩ := h.ports_alive key hmem
      exact ⟨p, List.mem_append_left _ hp, hpkey⟩
    · exact ⟨port, List.mem_append_right _ (List.mem_singleton.mpr rfl), (List.mem_singleton.mp hmem).symm⟩
  keys_nodup := h.keys_nodup
  keys_lt := h.keys_lt
  known c hc := by
    obtain ⟨p, hp, hbase, hentry⟩ := h.known c hc
    exact ⟨p, List.mem_append_left _ hp, hbase, hentry⟩
  entries p hp entry hentry := by
    rcases List.mem_append.mp hp with hp | hp
    · exact h.entries p hp entry hentry
    · rw [List.mem_singleton.mp hp, hconnections] at hentry
      exact absurd hentry List.not_mem_nil
  distinct p hp := by
    rcases List.mem_append.mp hp with hp | hp
    · exact h.distinct p hp
    · rw [List.mem_singleton.mp hp, hconnections]
      exact List.Pairwise.nil
  best := h.best
  deletes := h.deletes
  dead := h.dead

/-- The lifetime of a port changes. -/
theorem modifyLifetime (h : ch.Books) {key : Nat} {f : Port → Port} (hbase : ∀ p, (f p).toPortBase = p.toPortBase)
    (hconnections : ∀ p, (f p).connections = p.connections) : (ch.modifyPort key f).Books := by
  have hsame : ∀ p : Port, (if p.key = key then f p else p).connections = p.connections := by
    intro p
    split
    · exact hconnections p
    · rfl
  refine ⟨?_, ?_, ?_, h.keys_nodup, h.keys_lt, ?_, ?_, ?_, h.best, h.deletes, h.dead⟩
  · rw [modifyPort_keys hbase]
    exact h.ports_nodup
  · intro p' hp'
    obtain ⟨p, hp, rfl⟩ := mem_modifyPort.mp hp'
    rw [modified_base hbase]
    exact h.ports_lt p hp
  · intro key' hkey'
    obtain ⟨p, hp, rfl⟩ := h.ports_alive key' hkey'
    exact ⟨_, mem_modifyPort.mpr ⟨p, hp, rfl⟩, by rw [modified_base hbase]⟩
  · intro c hc
    obtain ⟨p, hp, hpbase, hentry⟩ := h.known c hc
    exact ⟨_, mem_modifyPort.mpr ⟨p, hp, rfl⟩, by rw [modified_base hbase, hpbase], by rwa [hsame]⟩
  · intro p' hp' entry hentry
    obtain ⟨p, hp, rfl⟩ := mem_modifyPort.mp hp'
    rw [hsame] at hentry
    rw [modified_base hbase]
    exact h.entries p hp entry hentry
  · intro p' hp'
    obtain ⟨p, hp, rfl⟩ := mem_modifyPort.mp hp'
    rw [hsame]
    exact h.distinct p hp

/-! #### Ends -/

/-- A port without connections goes, and no connection has it. -/
theorem checkPortTimeout (h : ch.Books) (key : Nat) : (ch.CheckPortTimeout key).Books := by
  unfold CheckPortTimeout
  split
  swap
  · exact h
  rename_i hgone
  obtain ⟨port, hport, hempty⟩ := (Option.any_eq_true _ _).mp hgone
  obtain ⟨-, hempty⟩ := of_decide_eq_true hempty
  have hmem : ∀ {p : Port}, p ∈ ch.allocated.filter (·.key ≠ key) ↔ p ∈ ch.allocated ∧ p.key ≠ key := by
    intro p
    rw [List.mem_filter, decide_eq_true_iff]
  refine ⟨?_, ?_, ?_, h.keys_nodup, h.keys_lt, ?_, ?_, ?_, h.best, h.deletes, h.dead⟩
  · exact h.ports_nodup.sublist (List.filter_sublist.map _)
  · exact fun p hp => h.ports_lt p (hmem.mp hp).1
  · intro key' hkey'
    obtain ⟨hkey', hne⟩ := List.mem_filter.mp hkey'
    obtain ⟨p, hp, rfl⟩ := h.ports_alive key' hkey'
    exact ⟨p, hmem.mpr ⟨hp, of_decide_eq_true hne⟩, rfl⟩
  · intro c hc
    obtain ⟨p, hp, hbase, hentry⟩ := h.known c hc
    refine ⟨p, hmem.mpr ⟨hp, fun hkey => ?_⟩, hbase, hentry⟩
    obtain rfl := h.port_eq hp (port_mem hport) (hkey.trans (port_key hport).symm)
    rw [List.isEmpty_iff.mp hempty] at hentry
    exact List.not_mem_nil hentry
  · exact fun p hp => h.entries p (hmem.mp hp).1
  · exact fun p hp => h.distinct p (hmem.mp hp).1

/-- The port, the channel and the queue forget a connection. -/
def unlink (ch : P2PTransportChannel) (c : Connection) : P2PTransportChannel :=
  ((ch.modifyPort c.port.key fun p =>
    { p with connections := p.connections.filter fun entry => ¬ entry.1.Equal c.remote_candidate.address }).OnConnectionDestroyed
      c).clearDeletes c.key

theorem onDelete_eq (ch : P2PTransportChannel) (c : Connection) : ch.OnDelete c = (unlink ch c).CheckPortTimeout c.port.key := by
  unfold OnDelete OnPortConnectionDestroyed unlink CheckPortTimeout
  have hport : ∀ ch' : P2PTransportChannel, ((ch'.OnConnectionDestroyed c).clearDeletes c.key).port c.port.key = ch'.port c.port.key := by
    intro ch'
    unfold OnConnectionDestroyed
    dsimp only
    split <;> rfl
  rw [hport]
  split
  · unfold OnConnectionDestroyed
    dsimp only
    split <;> rfl
  · rfl

theorem mem_unlink_connections {c x : Connection} :
    x ∈ (unlink ch c).connections ↔ x ∈ ch.connections ∧ x.key ≠ c.key := by
  have hfilter : (unlink ch c).connections = ch.connections.filter (·.key ≠ c.key) := by
    unfold unlink OnConnectionDestroyed
    dsimp only
    split <;> rfl
  rw [hfilter, List.mem_filter, decide_eq_true_iff]

theorem mem_unlink_deletes {c : Connection} {key : Nat} :
    key ∈ (unlink ch c).queue.deletes ↔ key ∈ ch.queue.deletes ∧ key ≠ c.key := by
  have hfilter : (unlink ch c).queue.deletes = ch.queue.deletes.filter (· ≠ c.key) := by
    unfold unlink OnConnectionDestroyed
    dsimp only
    split
    · unfold clearDeletes RequestSort
      dsimp only
      rw [Queue.RequestSort_deletes]
      rfl
    · rfl
  rw [hfilter, List.mem_filter, decide_eq_true_iff]

theorem unlink_best {c : Connection} {key : Nat} (h : (unlink ch c).best_connection = some key) :
    ch.best_connection = some key ∧ key ≠ c.key := by
  unfold unlink OnConnectionDestroyed at h
  dsimp only at h
  split at h
  · cases h
  · rename_i hne
    exact ⟨h, fun hkey => hne (hkey ▸ h)⟩

theorem unlink_allocated (ch : P2PTransportChannel) (c : Connection) :
    (unlink ch c).allocated = (ch.modifyPort c.port.key fun p =>
      { p with connections := p.connections.filter fun entry => ¬ entry.1.Equal c.remote_candidate.address }).allocated := by
  unfold unlink OnConnectionDestroyed
  dsimp only
  split <;> rfl

theorem unlink_same (ch : P2PTransportChannel) (c : Connection) :
    (unlink ch c).ports_constructed = ch.ports_constructed ∧ (unlink ch c).ports = ch.ports ∧
      (unlink ch c).constructed = ch.constructed ∧ (unlink ch c).remote_candidates = ch.remote_candidates ∧
        (unlink ch c).incoming_only = ch.incoming_only := by
  unfold unlink OnConnectionDestroyed
  dsimp only
  split <;> exact ⟨rfl, rfl, rfl, rfl, rfl⟩

/-- A connection goes from all the books at once. -/
theorem of_unlink (h : ch.Books) {c : Connection} (hc : c ∈ ch.connections) : (unlink ch c).Books := by
  obtain ⟨hports_constructed, hports, hconstructed, -, -⟩ := unlink_same ch c
  have hbase : ∀ p : Port, ({ p with
      connections := p.connections.filter fun entry => ¬ entry.1.Equal c.remote_candidate.address } : Port).toPortBase =
        p.toPortBase := fun _ => rfl
  have hsub : ∀ p : Port, (if p.key = c.port.key then
      { p with connections := p.connections.filter fun entry => ¬ entry.1.Equal c.remote_candidate.address } else
        p).connections.Sublist p.connections := by
    intro p
    split
    · exact List.filter_sublist
    · exact List.Sublist.refl _
  refine ⟨?_, ?_, ?_, ?_, ?_, ?_, ?_, ?_, ?_, ?_, ?_⟩
  · rw [unlink_allocated, modifyPort_keys hbase]
    exact h.ports_nodup
  · intro p' hp'
    rw [unlink_allocated] at hp'
    obtain ⟨p, hp, rfl⟩ := mem_modifyPort.mp hp'
    rw [modified_base hbase, hports_constructed]
    exact h.ports_lt p hp
  · intro key hkey
    rw [hports] at hkey
    obtain ⟨p, hp, rfl⟩ := h.ports_alive key hkey
    rw [unlink_allocated]
    exact ⟨_, mem_modifyPort.mpr ⟨p, hp, rfl⟩, by rw [modified_base hbase]⟩
  · refine h.keys_nodup.sublist (List.Sublist.map _ ?_)
    unfold unlink OnConnectionDestroyed
    dsimp only
    split <;> exact List.filter_sublist
  · intro x hx
    rw [hconstructed]
    exact h.keys_lt x (mem_unlink_connections.mp hx).1
  · intro x hx
    obtain ⟨hx, hne⟩ := mem_unlink_connections.mp hx
    obtain ⟨p, hp, hpbase, hentry⟩ := h.known x hx
    rw [unlink_allocated]
    refine ⟨_, mem_modifyPort.mpr ⟨p, hp, rfl⟩, by rw [modified_base hbase, hpbase], ?_⟩
    split
    · rename_i hkey
      obtain ⟨p', hp', hpbase', hentry'⟩ := h.known c hc
      obtain rfl : p' = p := h.port_eq hp' hp (by rw [hkey, hpbase'])
      refine List.mem_filter.mpr ⟨hentry, decide_eq_true fun hequal => ?_⟩
      have hdiffer : (x.remote_candidate.address, x.key) ≠ (c.remote_candidate.address, c.key) :=
        fun heq => hne (Prod.mk.inj heq).2
      exact (h.distinct p' hp).forall hentry hentry' hdiffer hequal
    · exact hentry
  · intro p' hp' entry hentry
    rw [unlink_allocated] at hp'
    obtain ⟨p, hp, rfl⟩ := mem_modifyPort.mp hp'
    rw [modified_base hbase]
    obtain ⟨x, hx, hkey, haddress, hport⟩ := h.entries p hp entry ((hsub p).subset hentry)
    refine ⟨x, mem_unlink_connections.mpr ⟨hx, fun hxc => ?_⟩, hkey, haddress, hport⟩
    obtain rfl := h.connection_eq hx hc hxc
    rw [if_pos (by rw [hport])] at hentry
    obtain ⟨-, hnot⟩ := List.mem_filter.mp hentry
    refine of_decide_eq_true hnot ?_
    rw [haddress]
    exact SocketAddress.Equal.refl _
  · intro p' hp'
    rw [unlink_allocated] at hp'
    obtain ⟨p, hp, rfl⟩ := mem_modifyPort.mp hp'
    exact (h.distinct p hp).sublist (hsub p)
  · intro key hkey
    obtain ⟨hold, hne⟩ := unlink_best hkey
    obtain ⟨x, hx, rfl⟩ := h.best key hold
    exact ⟨x, mem_unlink_connections.mpr ⟨hx, hne⟩, rfl⟩
  · intro key hkey
    obtain ⟨hold, hne⟩ := mem_unlink_deletes.mp hkey
    obtain ⟨x, hx, rfl⟩ := h.deletes key hold
    exact ⟨x, mem_unlink_connections.mpr ⟨hx, hne⟩, rfl⟩
  · intro x hx hdead
    obtain ⟨hx, hne⟩ := mem_unlink_connections.mp hx
    exact mem_unlink_deletes.mpr ⟨h.dead x hx hdead, hne⟩

theorem work (h : ch.Books) (hworked : Worked ch ch') : ch'.Books := by
  refine h.evolved hworked.books rfl hworked.evolved fun key hkey => Or.inl ?_
  rw [hworked.same] at hkey
  exact hkey

theorem settle (h : ch.Books) : ch.settle.Books := by
  have hdeletes : ({ ch.queue with sort_dirty := false } : Queue).deletes = ch.queue.deletes := rfl
  exact h.evolved (books_settle ch) hdeletes (evolved_settle ch) fun _ hkey => settle_best hkey

theorem updateConnectionStates (h : ch.Books) : ch.UpdateConnectionStates.Books := by
  have htick : ch.tick.Books := h.congr rfl rfl (List.Subset.refl _) rfl rfl rfl rfl
  exact htick.work (worked_forConnections _ (Connection.evolving_UpdateState _))

theorem mem_pollSocket {c' : Connection} :
    c' ∈ ch.PollSocket.connections ↔ ∃ c ∈ ch.connections, { c with reported := true } = c' :=
  List.mem_map

theorem poll (h : ch.Books) : ch.PollSocket.Books := by
  refine ⟨h.ports_nodup, h.ports_lt, h.ports_alive, ?_, ?_, ?_, ?_, h.distinct, ?_, ?_, ?_⟩
  · unfold PollSocket
    dsimp only
    rw [List.map_map]
    exact h.keys_nodup
  · intro c' hc'
    obtain ⟨c, hc, rfl⟩ := mem_pollSocket.mp hc'
    exact h.keys_lt c hc
  · intro c' hc'
    obtain ⟨c, hc, rfl⟩ := mem_pollSocket.mp hc'
    exact h.known c hc
  · intro p hp entry hentry
    obtain ⟨c, hc, hfits⟩ := h.entries p hp entry hentry
    exact ⟨_, mem_pollSocket.mpr ⟨c, hc, rfl⟩, hfits⟩
  · intro key hkey
    obtain ⟨c, hc, hckey⟩ := h.best key hkey
    exact ⟨_, mem_pollSocket.mpr ⟨c, hc, rfl⟩, hckey⟩
  · intro key hkey
    obtain ⟨c, hc, hckey⟩ := h.deletes key hkey
    exact ⟨_, mem_pollSocket.mpr ⟨c, hc, rfl⟩, hckey⟩
  · intro c' hc' hdead
    obtain ⟨c, hc, rfl⟩ := mem_pollSocket.mp hc'
    exact h.dead c hc hdead

theorem act (h : ch.Books) (hact : Act scope ch ch') : ch'.Books := by
  cases hact with
  | idle hidle =>
    rw [hidle]
    exact h.congr rfl rfl (List.Subset.refl _) rfl rfl rfl rfl
  | work _ hf => exact h.work (worked_forConnections ch hf)
  | settle => exact h.settle
  | sort hsorts =>
    have hpopped : { ch with queue := { ch.queue with sorts := ch.queue.sorts - 1 } }.Books :=
      h.congr rfl rfl (List.Subset.refl _) rfl rfl rfl rfl
    exact hpopped.updateConnectionStates.settle
  | create hport hnone => exact h.create hport hnone
  | remember _ _ remote_candidate origin_port =>
    unfold RememberRemoteCandidate
    dsimp only
    split_ifs <;> exact h.congr rfl rfl (List.Subset.refl _) rfl rfl rfl rfl
  | addPort _ _ hkey hconnections => exact h.addPort hkey hconnections
  | startPort _ key =>
    refine h.modifyLifetime (fun p => ?_) fun p => ?_
    · split <;> rfl
    · split <;> rfl
  | portTimeout _ key =>
    have hover : (ch.modifyPort key fun p => { p with lifetime := .postTimeout }).Books :=
      h.modifyLifetime (fun _ => rfl) fun _ => rfl
    exact hover.checkPortTimeout key
  | delete hc =>
    rw [onDelete_eq]
    exact (h.of_unlink (connection_mem hc)).checkPortTimeout _
  | signalingReady =>
    unfold OnSignalingReady
    split
    · exact h.congr rfl rfl (List.nil_subset _) rfl rfl rfl rfl
    · exact h
  | allocate => exact h.congr rfl rfl (List.Subset.refl _) rfl rfl rfl rfl
  | poll => exact h.poll

/-- The books are in order after every run. -/
theorem of_run {times : Nat → UInt32} {es : List Event} (h : (new times).run es = some ch) : ch.Books :=
  run_keeps (fun _ _ _ hbooks hact => hbooks.act hact)
    (fun _ _ hbooks => hbooks.congr rfl rfl (List.Subset.refl _) rfl rfl rfl rfl) (books_new times) h

/-! #### Ports that are over -/

theorem inUse_checkPortTimeout (h : ch.Books) {key : Nat}
    (hothers : ∀ p ∈ ch.allocated, p.key ≠ key → p.lifetime = .postTimeout → p.connections ≠ []) :
    (ch.CheckPortTimeout key).InUse := by
  unfold CheckPortTimeout
  split
  · intro p hp
    obtain ⟨hp, hne⟩ := List.mem_filter.mp hp
    exact hothers p hp (of_decide_eq_true hne)
  · rename_i hstays
    intro p hp hpost hempty
    by_cases hkey : p.key = key
    · subst hkey
      refine hstays ((Option.any_eq_true _ _).mpr ⟨p, h.port_of_mem hp, decide_eq_true ⟨hpost, ?_⟩⟩)
      rw [hempty]
      rfl
    · exact hothers p hp hkey hpost hempty

theorem inUse_of_same (h : ch.InUse) (hallocated : ch'.allocated = ch.allocated) : ch'.InUse := by
  unfold InUse
  rwa [hallocated]

theorem inUse_modifyPort (h : ch.InUse) {key : Nat} {f : Port → Port}
    (hf : ∀ p, (f p).lifetime = .postTimeout → p.lifetime = .postTimeout ∧ (p.connections ≠ [] → (f p).connections ≠ []) ∨
      (f p).connections ≠ []) : (ch.modifyPort key f).InUse := by
  intro p' hp' hpost
  obtain ⟨p, hp, rfl⟩ := mem_modifyPort.mp hp'
  split at hpost
  · rename_i hkey
    rw [if_pos hkey]
    rcases hf p hpost with ⟨hold, hkeeps⟩ | hne
    · exact hkeeps (h p hp hold)
    · exact hne
  · rename_i hkey
    rw [if_neg hkey]
    exact h p hp hpost

/-- No port without connections is kept when its time is over. -/
theorem inUse_act (h : ch.Books) (huse : ch.InUse) (hact : Act scope ch ch') : ch'.InUse := by
  cases hact with
  | idle hidle => exact inUse_of_same huse (by rw [hidle])
  | work _ hf => exact inUse_of_same huse (worked_forConnections ch hf).books.allocated
  | settle => exact inUse_of_same huse (books_settle ch).allocated
  | sort hsorts =>
    exact inUse_of_same huse ((books_settle _).allocated.trans
      (worked_forConnections _ (Connection.evolving_UpdateState _)).books.allocated)
  | create hport hnone =>
    unfold PortCreateConnection
    split
    · exact huse
    · exact inUse_of_same (inUse_modifyPort huse fun p _ =>
        Or.inr (List.append_ne_nil_of_right_ne_nil _ (List.cons_ne_nil _ _))) rfl
  | remember _ _ remote_candidate origin_port =>
    unfold RememberRemoteCandidate
    dsimp only
    split_ifs <;> exact inUse_of_same huse rfl
  | addPort _ _ hkey hconnections hlifetime =>
    intro p hp
    rcases List.mem_append.mp hp with hp | hp
    · exact huse p hp
    · rw [List.mem_singleton.mp hp]
      exact fun hpost => absurd hpost hlifetime
  | startPort _ key =>
    refine inUse_modifyPort huse fun p hpost => Or.inl ?_
    split at hpost
    · cases hpost
    · rename_i hstarted
      rw [if_neg hstarted]
      exact ⟨hpost, id⟩
  | portTimeout _ key =>
    have hover : (ch.modifyPort key fun p => { p with lifetime := .postTimeout }).Books :=
      h.modifyLifetime (fun _ => rfl) fun _ => rfl
    refine hover.inUse_checkPortTimeout fun p' hp' hne hpost => ?_
    obtain ⟨p, hp, rfl⟩ := mem_modifyPort.mp hp'
    by_cases hkey : p.key = key
    · rw [if_pos hkey] at hne
      exact absurd hkey hne
    · rw [if_neg hkey] at hpost ⊢
      exact huse p hp hpost
  | @delete _ c hc =>
    rw [onDelete_eq]
    refine (h.of_unlink (connection_mem hc)).inUse_checkPortTimeout fun p' hp' hne hpost => ?_
    rw [unlink_allocated] at hp'
    obtain ⟨p, hp, rfl⟩ := mem_modifyPort.mp hp'
    by_cases hkey : p.key = c.port.key
    · rw [if_pos hkey] at hne
      exact absurd hkey hne
    · rw [if_neg hkey] at hpost ⊢
      exact huse p hp hpost
  | signalingReady =>
    unfold OnSignalingReady
    split
    · exact inUse_of_same huse rfl
    · exact huse
  | allocate => exact inUse_of_same huse rfl
  | poll => exact inUse_of_same huse rfl

theorem inUse_run {times : Nat → UInt32} {es : List Event} (h : (new times).run es = some ch) : ch.InUse := by
  have hact : ∀ scope (ch ch' : P2PTransportChannel), ch.Books ∧ ch.InUse → Act scope ch ch' → ch'.Books ∧ ch'.InUse :=
    fun _ _ _ hi hact => ⟨hi.1.act hact, inUse_act hi.1 hi.2 hact⟩
  have hpings : ∀ (ch : P2PTransportChannel) pings, ch.Books ∧ ch.InUse →
      { ch with pings }.Books ∧ { ch with pings }.InUse :=
    fun _ _ hi => ⟨hi.1.congr rfl rfl (List.Subset.refl _) rfl rfl rfl rfl, inUse_of_same hi.2 rfl⟩
  exact (run_keeps hact hpings ⟨books_new times, fun _ hp => absurd hp List.not_mem_nil⟩ h).2

/-! #### The two books of the connections -/

theorem getConnection_eq_some (h : ch.Books) {port : Port} (hport : port ∈ ch.allocated) (address : SocketAddress) (key : Nat) :
    port.GetConnection address = some key ↔
      ∃ c ∈ ch.connections, c.key = key ∧ c.port = port.toPortBase ∧ c.remote_candidate.address.Equal address := by
  constructor
  · intro hget
    obtain ⟨entry, hfind, rfl⟩ := Option.map_eq_some_iff.mp hget
    obtain ⟨c, hc, hkey, haddress, hbase⟩ := h.entries port hport entry (List.mem_of_find?_eq_some hfind)
    have hequal := List.find?_some hfind
    exact ⟨c, hc, hkey, hbase, by rwa [haddress]⟩
  · rintro ⟨c, hc, rfl, hbase, hequal⟩
    obtain ⟨p, hp, hpbase, hentry⟩ := h.known c hc
    obtain rfl : p = port := h.port_eq hp hport (by rw [hpbase, hbase])
    unfold Port.GetConnection
    rcases hfind : p.connections.find? fun entry => entry.1.Equal address with _ | entry
    · exact absurd hequal (List.find?_eq_none.mp hfind _ hentry)
    · have hfound := List.find?_some hfind
      have hsame : entry = (c.remote_candidate.address, c.key) := by
        by_contra hne
        have hequal' := SocketAddress.Equal.trans hfound (SocketAddress.Equal.symm hequal)
        exact (h.distinct p hp).forall (List.mem_of_find?_eq_some hfind) hentry hne hequal'
      rw [hfind, hsame]
      rfl

end Books

end

/-! ### A session of two sides -/

section
attribute [local instance] Arithmetic.plain

/-- The address 192.0.2.`n`. -/
def addressOf (n : UInt32) : SocketAddress := { hostname := [], ip := .v4 (0xC0000200 + n), port := 5000, literal := false }

def candidateOf (username : CString) (n : UInt32) : Candidate :=
  { name := cstr "rtp", protocol := cstr "udp", address := addressOf n, preference := (1 : Nat), username, password := [],
    type := cstr "local", network_name := cstr "eth0", generation := 0 }

def left : CString := cstr "leftleftleftleft"

def right : CString := cstr "rightrightrightr"

def leftPort : Port :=
  { key := 0, network := 0, generation := 0, username_fragment := left, local_candidate := candidateOf left 1, servers := [],
    fragment := rfl, connections := [], lifetime := .preStart }

/-- The left side has a port and knows a candidate of the right side. -/
def leftOpening : List Event := [.connect, .signalingReady, .portReady leftPort, .startPort 0, .candidate (candidateOf right 2)]

/-- The times are all 0. -/
def leftOpened : P2PTransportChannel := ((new fun _ => 0).run leftOpening).get (by decide)

theorem run_leftOpening : (new fun _ => 0).run leftOpening = some leftOpened := (Option.some_get _).symm

def pingId : CString := cstr "abcdefghijkl"

/-- A message from the right side. -/
def fromRight (type : UInt16) (username : CString) : List UInt8 :=
  ((StunMessage.new type pingId).AddAttribute (.ofBytes STUN_ATTR_USERNAME username)).Write

/-- The left side pings and is answered, is pinged, and gets a packet. -/
def leftTalking : List Event :=
  leftOpening ++ [.ping pingId, .stunSend 0 pingId, .packet 0 (addressOf 2) (fromRight STUN_BINDING_RESPONSE (right ++ left)),
    .sort, .packet 0 (addressOf 2) (fromRight STUN_BINDING_REQUEST (left ++ right)), .sort, .packet 0 (addressOf 2) [0x55]]

def leftTalked : P2PTransportChannel := ((new fun _ => 0).run leftTalking).get (by decide)

theorem run_leftTalking : (new fun _ => 0).run leftTalking = some leftTalked := (Option.some_get _).symm

/-! ### After a run -/

/-- A port finds exactly the connections that the channel has at the port, by any address that is equal to theirs. -/
theorem getConnection_iff [Arithmetic] {times : Nat → UInt32} {es : List Event} {ch : P2PTransportChannel}
    (hrun : (new times).run es = some ch) {port : Port} (hport : port ∈ ch.allocated) (address : SocketAddress) (key : Nat) :
    port.GetConnection address = some key ↔
      ∃ c ∈ ch.connections, c.key = key ∧ c.port = port.toPortBase ∧ c.remote_candidate.address.Equal address :=
  (Books.of_run hrun).getConnection_eq_some hport address key

theorem getConnection_iff_leftOpened :
    leftOpened.allocated[0].GetConnection (addressOf 2) = some 0 ∧
      ∃ c ∈ leftOpened.connections, c.key = 0 ∧ c.port = leftOpened.allocated[0].toPortBase ∧
        c.remote_candidate.address.Equal (addressOf 2) := by
  have hfound : leftOpened.allocated[0].GetConnection (addressOf 2) = some 0 := by decide
  exact ⟨hfound, (getConnection_iff run_leftOpening (List.getElem_mem _) (addressOf 2) 0).mp hfound⟩

/-- What is in the books is there: the best connection, the ports of the newest session, and the connections that are to be
    deleted. The connections that have timed out in both directions are among these. -/
theorem books_of_run [Arithmetic] {times : Nat → UInt32} {es : List Event} {ch : P2PTransportChannel}
    (h : (new times).run es = some ch) :
    (∀ key, ch.best_connection = some key → ∃ c ∈ ch.connections, c.key = key) ∧
      (∀ key ∈ ch.ports, ∃ p ∈ ch.allocated, p.key = key) ∧
        (∀ key ∈ ch.queue.deletes, ∃ c ∈ ch.connections, c.key = key) ∧
          ∀ c ∈ ch.connections, c.IsDead → c.key ∈ ch.queue.deletes := by
  have hbooks := Books.of_run h
  exact ⟨hbooks.best, hbooks.ports_alive, hbooks.deletes, hbooks.dead⟩

theorem books_of_run_leftOpened : leftOpened.best_connection = some 0 ∧ ∃ c ∈ leftOpened.connections, c.key = 0 := by
  have hbest : leftOpened.best_connection = some 0 := by decide
  exact ⟨hbest, (books_of_run run_leftOpening).1 0 hbest⟩

/-- After a run, no port is kept whose time is over and that has no connections. -/
theorem inUse_of_run [Arithmetic] {times : Nat → UInt32} {es : List Event} {ch : P2PTransportChannel}
    (h : (new times).run es = some ch) {p : Port} (hp : p ∈ ch.allocated) (hpost : p.lifetime = .postTimeout) : p.connections ≠ [] :=
  Books.inUse_run h p hp hpost

/-- The time of the port is over. -/
def leftOver : P2PTransportChannel := ((new fun _ => 0).run (leftOpening ++ [.portTimeout 0])).get (by decide)

theorem inUse_of_run_leftOver :
    leftOver.allocated[0].lifetime = .postTimeout ∧ leftOver.allocated[0].connections ≠ [] := by
  have hrun : (new fun _ => 0).run (leftOpening ++ [.portTimeout 0]) = some leftOver := (Option.some_get _).symm
  have hover : leftOver.allocated[0].lifetime = .postTimeout := by decide
  exact ⟨hover, inUse_of_run hrun (List.getElem_mem _) hover⟩

end

end Ice.P2PTransportChannel

end ProbICE
