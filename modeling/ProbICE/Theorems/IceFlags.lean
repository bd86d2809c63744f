import ProbICE.Lib.RankSort
import ProbICE.Theorems.IceBooks

/-! # The flags of a channel

The channel is writable when one of its connections is, and then the best connection is. A change of a connection is not
lost: until the flags follow, a `MSG_SORT` is waiting. A channel that is not writable is on its way to new ports. -/

namespace ProbICE.Ice.P2PTransportChannel

section
variable [Arithmetic] {ch ch' : P2PTransportChannel} {scope : Scope}

def HasWritable (ch : P2PTransportChannel) : Prop := ∃ c ∈ ch.connections, c.write_state = .writable

def IsBestWritable (ch : P2PTransportChannel) : Prop :=
  ∃ c ∈ ch.connections, ch.best_connection = some c.key ∧ c.write_state = .writable

/-! ### The best connection -/

theorem respects_ConnectionCompare :
    RankSort.Respects (fun a b : Connection => ¬ ConnectionCompare b a) fun c => stateRank c.write_state := by
  intro a b hlt
  have hbetter : CompareConnections a b = 1 := if_pos hlt
  have hworse : CompareConnections b a = -1 := by
    unfold CompareConnections
    rw [if_neg (Nat.lt_asymm hlt), if_pos hlt]
  have hfirst : ConnectionCompare a b = true := by
    unfold ConnectionCompare
    rw [hbetter]
    rfl
  have hlast : ConnectionCompare b a = false := by
    unfold ConnectionCompare
    rw [hworse]
    rfl
  exact ⟨fun h => Bool.false_ne_true (hlast.symm.trans h), fun h => h hfirst⟩

omit [Arithmetic] in
theorem stateRank_eq_zero {s : WriteState} : stateRank s = 0 ↔ s = .writable := by cases s <;> decide

/-- The first one of the sorted connections is writable if any of them is. -/
theorem writable_head {cs : List Connection} {top : Connection} (h : (sorted cs).head? = some top)
    (hany : ∃ c ∈ cs, c.write_state = .writable) : top.write_state = .writable := by
  obtain ⟨c, hc, hwritable⟩ := hany
  have hle := RankSort.rank_head_le respects_ConnectionCompare h c hc
  rw [hwritable] at hle
  exact stateRank_eq_zero.mp (Nat.le_zero.mp hle)

theorem best_key {c : Connection} (h : ch.best = some c) : c ∈ ch.connections ∧ ch.best_connection = some c.key := by
  obtain ⟨key, hkey, hfind⟩ := Option.bind_eq_some_iff.mp h
  have hfound := List.find?_some hfind
  rw [hkey, of_decide_eq_true hfound]
  exact ⟨List.mem_of_find?_eq_some hfind, rfl⟩

theorem best_of_mem (hnodup : (ch.connections.map Connection.key).Nodup) {b : Connection} (hb : b ∈ ch.connections)
    (hbest : ch.best_connection = some b.key) : ch.best = some b := by
  unfold best
  rw [hbest, Option.bind_some]
  rcases hfind : ch.connections.find? (·.key = b.key) with _ | b'
  · exact absurd (decide_eq_true rfl) (List.find?_eq_none.mp hfind b hb)
  · have hkey := List.find?_some hfind
    rw [hfind, List.inj_on_of_nodup_map hnodup (List.mem_of_find?_eq_some hfind) hb (of_decide_eq_true hkey)]

/-- A connection that is not writable gives way to one that is. -/
theorem shouldSwitch_of_writable {a b : Connection} (ha : a.write_state ≠ .writable) (hb : b.write_state = .writable)
    (hkey : a.key ≠ b.key) : ShouldSwitch (some a) (some b) = true := by
  have hpos : 0 < stateRank a.write_state := Nat.pos_of_ne_zero fun hzero => ha (stateRank_eq_zero.mp hzero)
  have hrank : stateRank b.write_state < stateRank a.write_state := by
    rw [hb]
    exact hpos
  have hworse : CompareConnections a b = -1 := by
    unfold CompareConnections
    rw [if_neg (Nat.lt_asymm hrank), if_pos hrank]
  unfold ShouldSwitch
  rw [if_neg (by simpa using hkey)]
  dsimp only
  rw [hworse]
  rfl

theorem chooseBest_connections (ch : P2PTransportChannel) : ch.chooseBest.connections = sorted ch.connections := by
  unfold chooseBest
  dsimp only
  split <;> rfl

theorem isBestWritable_chooseBest (h : ch.HasWritable) : ch.chooseBest.IsBestWritable := by
  obtain ⟨c, hc, hwritable⟩ := h
  have hmem := (sorted_perm ch.connections).mem_iff.mpr hc
  obtain ⟨top, rest, hsorted⟩ := List.exists_cons_of_ne_nil (List.ne_nil_of_mem hmem)
  have hhead : (sorted ch.connections).head? = some top := by rw [hsorted]; rfl
  have htop : top.write_state = .writable := writable_head hhead ⟨c, hc, hwritable⟩
  have htopmem : top ∈ sorted ch.connections := List.mem_of_mem_head? hhead
  unfold chooseBest
  dsimp only
  rw [hhead]
  split
  · exact ⟨top, htopmem, rfl, htop⟩
  · rename_i hstay
    rcases hbest : { ch with connections := sorted ch.connections }.best with _ | best
    · rw [hbest] at hstay
      exact absurd rfl hstay
    · obtain ⟨hbestmem, hbestkey⟩ := best_key hbest
      rw [hbest] at hstay
      by_cases hkey : best.key = top.key
      · exact ⟨top, htopmem, hbestkey.trans (congrArg some hkey), htop⟩
      · refine ⟨best, hbestmem, hbestkey, ?_⟩
        by_contra hunwritable
        exact hstay (shouldSwitch_of_writable hunwritable htop hkey)

/-! ### Pruning -/

theorem exists_visited {f : Connection → Queue → Connection × Queue} {cs : List Connection} {q : Queue} {c : Connection}
    (h : c ∈ cs) : ∃ q₁, (f c q₁).1 ∈ (visit f cs q).1 := by
  induction cs generalizing q with
  | nil => exact absurd h List.not_mem_nil
  | cons x xs ih =>
    rcases List.mem_cons.mp h with rfl | h
    · exact ⟨q, List.mem_cons_self⟩
    · obtain ⟨q₁, hq₁⟩ := ih h
      exact ⟨q₁, List.mem_cons_of_mem _ hq₁⟩

theorem exists_visiting {f : Connection → Queue → Connection × Queue} {cs : List Connection} {q : Queue} {c' : Connection}
    (h : c' ∈ (visit f cs q).1) : ∃ c ∈ cs, ∃ q₁, c' = (f c q₁).1 := by
  induction cs generalizing q with
  | nil => exact absurd h List.not_mem_nil
  | cons x xs ih =>
    rcases List.mem_cons.mp h with rfl | h
    · exact ⟨x, List.mem_cons_self, q, rfl⟩
    · obtain ⟨c, hc, hq₁⟩ := ih h
      exact ⟨c, List.mem_cons_of_mem _ hc, hq₁⟩

/-- The best connection is the one to prune for on its network. -/
theorem getBestConnectionOnNetwork_of_best {best : Connection} (h : ch.best = some best) :
    ch.GetBestConnectionOnNetwork best.port.network = some best := by
  unfold GetBestConnectionOnNetwork
  rw [h]
  exact if_pos rfl

/-- Pruning leaves the best connection as it is. -/
theorem best_mem_pruneNetwork (hnodup : (ch.connections.map Connection.key).Nodup) {c : Connection} (hc : c ∈ ch.connections)
    (hbest : ch.best_connection = some c.key) (network : Nat) : c ∈ (ch.pruneNetwork network).connections := by
  have hfind := best_of_mem hnodup hc hbest
  unfold pruneNetwork
  rcases hprimier : ch.GetBestConnectionOnNetwork network with _ | primier
  · exact hc
  dsimp only
  split
  · exact hc
  have hspared : ¬ (c.key ≠ primier.key ∧ c.port.network = network ∧ 0 ≤ CompareConnectionCandidates primier c) := by
    rintro ⟨hne, hnetwork, -⟩
    rw [← hnetwork, getBestConnectionOnNetwork_of_best hfind] at hprimier
    exact hne (congrArg Connection.key (Option.some.inj hprimier))
  obtain ⟨q, hvisited⟩ := exists_visited (f := fun c q =>
    if c.key ≠ primier.key ∧ c.port.network = network ∧ 0 ≤ CompareConnectionCandidates primier c then c.Prune q
    else (c, q)) (q := ch.queue) hc
  rw [if_neg hspared] at hvisited
  exact hvisited

theorem write_state_set_write_state (value : WriteState) (c : Connection) (q : Queue) :
    (c.set_write_state value q).1.write_state = value := by
  unfold Connection.set_write_state
  dsimp only
  split <;> rfl

theorem hasWritable_of_pruneNetwork {network : Nat} (h : (ch.pruneNetwork network).HasWritable) : ch.HasWritable := by
  unfold pruneNetwork at h
  split at h
  · exact h
  split at h
  · exact h
  obtain ⟨c', hc', hwritable⟩ := h
  obtain ⟨c, hc, q, rfl⟩ := exists_visiting hc'
  split at hwritable
  · unfold Connection.Prune at hwritable
    split at hwritable
    · rw [write_state_set_write_state] at hwritable
      cases hwritable
    · exact ⟨c, hc, hwritable⟩
  · exact ⟨c, hc, hwritable⟩

/-- The loop over the networks leaves the best connection writable. -/
theorem isBestWritable_pruneNetworks (networks : List Nat) (hnodup : (ch.connections.map Connection.key).Nodup)
    (h : ch.HasWritable → ch.IsBestWritable) (hwritable : (networks.foldl pruneNetwork ch).HasWritable) :
    (networks.foldl pruneNetwork ch).IsBestWritable := by
  induction networks generalizing ch with
  | nil => exact h hwritable
  | cons network networks ih =>
    have hworked := worked_pruneNetwork ch network
    refine ih (hworked.evolved.keys.nodup_iff.mpr hnodup) (fun hpruned => ?_) hwritable
    obtain ⟨c, hc, hbest, hcwritable⟩ := h (hasWritable_of_pruneNetwork hpruned)
    refine ⟨c, best_mem_pruneNetwork hnodup hc hbest network, ?_, hcwritable⟩
    rw [hworked.same]
    exact hbest

/-- When a connection is writable after the sort, then the best connection is. -/
theorem isBestWritable_settle (hnodup : (ch.connections.map Connection.key).Nodup) (h : ch.settle.HasWritable) :
    ch.settle.IsBestWritable := by
  have hchoose : ch.choose.HasWritable := by
    unfold HasWritable at h
    rwa [settle_connections] at h
  have hbest : ch.choose.IsBestWritable := by
    refine isBestWritable_pruneNetworks _ ?_ (fun hwritable => isBestWritable_chooseBest ?_) hchoose
    · rw [chooseBest_connections]
      exact ((sorted_perm _).map _).nodup_iff.mpr hnodup
    · obtain ⟨c, hc, hcwritable⟩ := hwritable
      rw [chooseBest_connections] at hc
      exact ⟨c, (sorted_perm _).mem_iff.mp hc, hcwritable⟩
  unfold IsBestWritable
  rw [settle_connections, settle_best_connection]
  exact hbest

/-! ### The writable state -/

/-- The flags follow the connections, or a sort is waiting. -/
structure Settled (ch : P2PTransportChannel) : Prop where
  writable : ¬ ch.queue.sort_dirty → (ch.writable ↔ ch.HasWritable)
  best : ¬ ch.queue.sort_dirty → ch.HasWritable → ch.IsBestWritable
  waiting : ch.queue.sort_dirty → 0 < ch.queue.sorts

theorem settle_writable (ch : P2PTransportChannel) : ch.settle.writable ↔ ch.settle.HasWritable := by
  have hany : ch.settle.HasWritable ↔ ch.choose.connections.any (·.write_state = .writable) := by
    unfold HasWritable
    rw [settle_connections, List.any_eq_true]
    exact exists_congr fun c => and_congr_right fun _ => decide_eq_true_iff.symm
  rw [hany, settle_eq, UpdateChannelState]
  dsimp only
  unfold handleStates HandleWritable HandleNotWritable HandleAllTimedOut
  split
  · rename_i h
    exact ⟨fun _ => h, fun _ => rfl⟩
  · rename_i h
    split
    · exact iff_of_false Bool.false_ne_true h
    · exact iff_of_false Bool.false_ne_true h

theorem isWritable_iff (hnodup : (ch.connections.map Connection.key).Nodup) : ch.isWritable ↔ ch.IsBestWritable := by
  unfold isWritable
  constructor
  · intro h
    obtain ⟨c, hbest, hwritable⟩ := (Option.any_eq_true _ _).mp h
    obtain ⟨hc, hkey⟩ := best_key hbest
    exact ⟨c, hc, hkey, of_decide_eq_true hwritable⟩
  · rintro ⟨c, hc, hkey, hwritable⟩
    exact (Option.any_eq_true _ _).mpr ⟨c, best_of_mem hnodup hc hkey, decide_eq_true hwritable⟩

theorem isWritable_settle (hnodup : (ch.connections.map Connection.key).Nodup) : ch.settle.isWritable = ch.settle.writable := by
  have hnodup' : (ch.settle.connections.map Connection.key).Nodup := (evolved_settle ch).keys.nodup_iff.mpr hnodup
  have hbest : ch.settle.IsBestWritable ↔ ch.settle.HasWritable :=
    ⟨fun ⟨c, hc, _, hwritable⟩ => ⟨c, hc, hwritable⟩, isBestWritable_settle hnodup⟩
  exact Bool.eq_iff_iff.mpr ((isWritable_iff hnodup').trans (hbest.trans (settle_writable ch).symm))

theorem settled_settle (hnodup : (ch.connections.map Connection.key).Nodup) : ch.settle.Settled where
  writable _ := settle_writable ch
  best _ := isBestWritable_settle hnodup
  waiting hdirty := by
    rcases (evolved_settle ch).posted hdirty with hclean | hposted
    · cases hclean
    · exact Nat.zero_lt_of_lt hposted

theorem Settled.congr (h : ch.Settled) (hconnections : ch'.connections = ch.connections) (hqueue : ch'.queue = ch.queue)
    (hbest : ch'.best_connection = ch.best_connection) (hwritable : ch'.writable = ch.writable) : ch'.Settled := by
  obtain ⟨h₁, h₂, h₃⟩ := h
  refine ⟨?_, ?_, ?_⟩
  · unfold HasWritable
    rwa [hqueue, hwritable, hconnections]
  · unfold HasWritable IsBestWritable
    rwa [hqueue, hconnections, hbest]
  · rwa [hqueue]

theorem Settled.work (h : ch.Settled) (hworked : Worked ch ch') : ch'.Settled := by
  have hevolved := hworked.evolved
  have hwritable : ch'.writable = ch.writable := by rw [hworked.same]
  have hbest : ch'.best_connection = ch.best_connection := by rw [hworked.same]
  have hback : ¬ ch'.queue.sort_dirty → ch'.HasWritable → ch.HasWritable := by
    rintro hclean ⟨c', hc', hcwritable⟩
    obtain ⟨c, hc, hbecame⟩ := hevolved.back c' hc'
    exact ⟨c, hc, (hbecame.changed hclean).2 ▸ hcwritable⟩
  have hclean : ¬ ch'.queue.sort_dirty → ¬ ch.queue.sort_dirty := fun hclean hdirty => hclean (hevolved.dirty hdirty)
  refine ⟨fun hc => ?_, fun hc hhas => ?_, fun hdirty => ?_⟩
  · rw [hwritable, h.writable (hclean hc)]
    refine ⟨?_, hback hc⟩
    rintro ⟨c, hmem, hcwritable⟩
    obtain ⟨c', hc', hbecame⟩ := hevolved.forth c hmem
    exact ⟨c', hc', (hbecame.changed hc).2.trans hcwritable⟩
  · obtain ⟨c, hmem, hkey, hcwritable⟩ := h.best (hclean hc) (hback hc hhas)
    obtain ⟨c', hc', hbecame⟩ := hevolved.forth c hmem
    exact ⟨c', hc', by rw [hbest, hkey, hbecame.key], (hbecame.changed hc).2.trans hcwritable⟩
  · rcases hevolved.posted hdirty with hold | hposted
    · exact (h.waiting hold).trans_le hevolved.sorts
    · exact Nat.zero_lt_of_lt hposted

/-- A connection goes. If it was the best one, a sort is waiting. -/
theorem Settled.delete (h : ch.Settled) (c : Connection) : (ch.OnDelete c).Settled := by
  have hdelete : ch.OnDelete c = (Books.unlink ch c).CheckPortTimeout c.port.key := Books.onDelete_eq ch c
  have hunlink : (Books.unlink ch c).Settled := by
    by_cases hbest : ch.best_connection = some c.key
    · have hqueue : (Books.unlink ch c).queue = { ch.queue.RequestSort with
          deletes := ch.queue.RequestSort.deletes.filter (· ≠ c.key) } := by
        unfold Books.unlink OnConnectionDestroyed
        dsimp only
        split
        · rfl
        · rename_i hne
          exact absurd hbest hne
      have hdirty : (Books.unlink ch c).queue.sort_dirty := by
        rw [hqueue]
        exact ch.queue.RequestSort_dirty
      refine ⟨fun hclean => absurd hdirty hclean, fun hclean => absurd hdirty hclean, fun _ => ?_⟩
      rw [hqueue]
      rcases ch.queue.RequestSort_posted with hold | hposted
      · exact (h.waiting hold).trans_le ch.queue.le_RequestSort_sorts
      · exact Nat.zero_lt_of_lt hposted
    · have hsame : (Books.unlink ch c).queue.sort_dirty = ch.queue.sort_dirty ∧
          (Books.unlink ch c).queue.sorts = ch.queue.sorts ∧ (Books.unlink ch c).writable = ch.writable ∧
            (Books.unlink ch c).best_connection = ch.best_connection := by
        unfold Books.unlink OnConnectionDestroyed
        dsimp only
        split
        · rename_i heq
          exact absurd heq hbest
        · exact ⟨rfl, rfl, rfl, rfl⟩
      obtain ⟨hdirty, hsorts, hwritable, hbest'⟩ := hsame
      have hstays : ch.IsBestWritable → (Books.unlink ch c).IsBestWritable := by
        rintro ⟨x, hx, hkey, hxwritable⟩
        have hne : x.key ≠ c.key := fun heq => hbest (heq ▸ hkey)
        exact ⟨x, Books.mem_unlink_connections.mpr ⟨hx, hne⟩, hbest'.trans hkey, hxwritable⟩
      have hback : (Books.unlink ch c).HasWritable → ch.HasWritable := by
        rintro ⟨x, hx, hxwritable⟩
        exact ⟨x, (Books.mem_unlink_connections.mp hx).1, hxwritable⟩
      refine ⟨fun hclean => ?_, fun hclean hhas => ?_, fun hd => ?_⟩
      · rw [hdirty] at hclean
        rw [hwritable, h.writable hclean]
        refine ⟨fun hhas => ?_, hback⟩
        obtain ⟨x, hx, -, hxwritable⟩ := hstays (h.best hclean hhas)
        exact ⟨x, hx, hxwritable⟩
      · rw [hdirty] at hclean
        exact hstays (h.best hclean (hback hhas))
      · rw [hdirty] at hd
        rw [hsorts]
        exact h.waiting hd
  rw [hdelete]
  unfold CheckPortTimeout
  split
  · exact hunlink.congr rfl rfl rfl rfl
  · exact hunlink

theorem Settled.create (h : ch.Settled) (port : Port) (remote_candidate : Candidate) :
    (ch.PortCreateConnection port remote_candidate).2.Settled := by
  unfold PortCreateConnection
  split
  · exact h
  have hold : ∀ {c : Connection}, c ∈ ch.connections ++ [.new ch.constructed.length port.toPortBase remote_candidate] →
      c.write_state = .writable → c ∈ ch.connections := by
    intro c hc hwritable
    rcases List.mem_append.mp hc with hc | hc
    · exact hc
    · rw [List.mem_singleton.mp hc] at hwritable
      cases hwritable
  refine ⟨fun hclean => (h.writable hclean).trans ⟨?_, ?_⟩, fun hclean => ?_, h.waiting⟩
  · rintro ⟨c, hc, hwritable⟩
    exact ⟨c, List.mem_append_left _ hc, hwritable⟩
  · rintro ⟨c, hc, hwritable⟩
    exact ⟨c, hold hc hwritable, hwritable⟩
  · rintro ⟨c, hc, hwritable⟩
    obtain ⟨x, hx, hkey, hxwritable⟩ := h.best hclean ⟨c, hold hc hwritable, hwritable⟩
    exact ⟨x, List.mem_append_left _ hx, hkey, hxwritable⟩

theorem Settled.poll (h : ch.Settled) : ch.PollSocket.Settled := by
  have hhas : ch.PollSocket.HasWritable ↔ ch.HasWritable := by
    constructor
    · rintro ⟨c', hc', hwritable⟩
      obtain ⟨c, hc, rfl⟩ := Books.mem_pollSocket.mp hc'
      exact ⟨c, hc, hwritable⟩
    · rintro ⟨c, hc, hwritable⟩
      exact ⟨_, Books.mem_pollSocket.mpr ⟨c, hc, rfl⟩, hwritable⟩
  refine ⟨fun hclean => (h.writable hclean).trans hhas.symm, fun hclean hpolled => ?_, h.waiting⟩
  obtain ⟨c, hc, hbest, hwritable⟩ := h.best hclean (hhas.mp hpolled)
  exact ⟨_, Books.mem_pollSocket.mpr ⟨c, hc, rfl⟩, hbest, hwritable⟩

theorem Settled.act (hbooks : ch.Books) (h : ch.Settled) (hact : Act scope ch ch') : ch'.Settled := by
  cases hact with
  | idle hidle =>
    rw [hidle]
    exact h.congr rfl rfl rfl rfl
  | work _ hf => exact h.work (worked_forConnections ch hf)
  | settle => exact settled_settle hbooks.keys_nodup
  | sort hsorts =>
    refine settled_settle ?_
    exact (worked_forConnections _ (Connection.evolving_UpdateState _)).evolved.keys.nodup_iff.mpr hbooks.keys_nodup
  | create => exact h.create _ _
  | remember _ _ remote_candidate origin_port =>
    unfold RememberRemoteCandidate
    dsimp only
    split_ifs <;> exact h.congr rfl rfl rfl rfl
  | addPort => exact h.congr rfl rfl rfl rfl
  | startPort => exact h.congr rfl rfl rfl rfl
  | portTimeout =>
    unfold OnPortTimeout CheckPortTimeout
    split <;> exact h.congr rfl rfl rfl rfl
  | delete => exact h.delete _
  | signalingReady =>
    unfold OnSignalingReady
    split
    · exact h.congr rfl rfl rfl rfl
    · exact h
  | allocate => exact h.congr rfl rfl rfl rfl
  | poll => exact h.poll

/-! ### The next allocation -/

/-- There is one allocation at a time, and a channel that was writable knows it. -/
structure Allocating (ch : P2PTransportChannel) : Prop where
  was_writable : ch.was_writable = ch.writable
  was_timed_out : ch.was_timed_out → ch.writable = false
  allocates : ch.allocates ≤ 1
  waiting : ch.waiting_for_signaling → ch.allocates = 0

/-- The channel waits for the signaling channel, or for the time of the next allocation. -/
def Underway (ch : P2PTransportChannel) : Prop := ch.writable = false → ch.waiting_for_signaling ∨ ch.allocates = 1

theorem Allocating.congr (h : ch.Allocating) (hwas_writable : ch'.was_writable = ch.was_writable)
    (hwritable : ch'.writable = ch.writable) (hwas_timed_out : ch'.was_timed_out = ch.was_timed_out)
    (hallocates : ch'.allocates = ch.allocates) (hwaiting : ch'.waiting_for_signaling = ch.waiting_for_signaling) :
    ch'.Allocating := by
  obtain ⟨h₁, h₂, h₃, h₄⟩ := h
  exact ⟨by rwa [hwas_writable, hwritable], by rwa [hwas_timed_out, hwritable], by rwa [hallocates],
    by rwa [hwaiting, hallocates]⟩

theorem Underway.congr (h : ch.Underway) (hwritable : ch'.writable = ch.writable) (hallocates : ch'.allocates = ch.allocates)
    (hwaiting : ch'.waiting_for_signaling = ch.waiting_for_signaling) : ch'.Underway := by
  unfold Underway
  rwa [hwritable, hallocates, hwaiting]

theorem Allocating.handleStates (h : ch.Allocating) : ch.handleStates.Allocating := by
  unfold P2PTransportChannel.handleStates
  split
  · unfold HandleWritable
    dsimp only
    split
    · exact ⟨rfl, nofun, Nat.zero_le _, fun _ => rfl⟩
    · exact ⟨rfl, nofun, h.allocates, h.waiting⟩
  split
  · unfold HandleNotWritable
    dsimp only
    split
    · exact ⟨rfl, fun _ => rfl, Nat.zero_le _, fun _ => rfl⟩
    · rename_i hwas
      exact ⟨Bool.eq_false_iff.mpr hwas, fun _ => rfl, h.allocates, h.waiting⟩
  · unfold HandleAllTimedOut
    dsimp only
    split
    · exact ⟨rfl, fun _ => rfl, Nat.zero_le _, fun _ => rfl⟩
    · exact ⟨rfl, fun _ => rfl, h.allocates, h.waiting⟩

/-- A channel that ceases to be writable, or whose connections have all timed out, asks for new ports. -/
theorem Underway.handleStates (hallocating : ch.Allocating) (h : ch.Underway) : ch.handleStates.Underway := by
  unfold P2PTransportChannel.handleStates
  split
  · exact nofun
  split
  · unfold HandleNotWritable
    dsimp only
    split
    · exact fun _ => Or.inl rfl
    · rename_i hwas
      exact fun _ => h (hallocating.was_writable ▸ Bool.eq_false_iff.mpr hwas)
  · unfold HandleAllTimedOut
    dsimp only
    split
    · exact fun _ => Or.inl rfl
    · rename_i hwas
      exact fun _ => h (hallocating.was_timed_out (not_not.mp hwas))

/-- Choosing the best connection has nothing to do with the allocation. -/
theorem choose_same (ch : P2PTransportChannel) :
    ch.choose.was_writable = ch.was_writable ∧ ch.choose.writable = ch.writable ∧
      ch.choose.was_timed_out = ch.was_timed_out ∧ ch.choose.allocates = ch.allocates ∧
        ch.choose.waiting_for_signaling = ch.waiting_for_signaling := by
  unfold choose
  rw [(worked_pruneNetworks _ _).same]
  unfold chooseBest
  dsimp only
  split <;> exact ⟨rfl, rfl, rfl, rfl, rfl⟩

theorem Allocating.settle (h : ch.Allocating) : ch.settle.Allocating := by
  obtain ⟨hwas_writable, hwritable, hwas_timed_out, hallocates, hwaiting⟩ := choose_same ch
  have hchoose : ch.choose.Allocating := h.congr hwas_writable hwritable hwas_timed_out hallocates hwaiting
  rw [settle_eq]
  exact hchoose.handleStates.congr rfl rfl rfl rfl rfl

theorem Underway.settle (h : ch.Allocating) (h' : ch.Underway) : ch.settle.Underway := by
  obtain ⟨hwas_writable, hwritable, hwas_timed_out, hallocates, hwaiting⟩ := choose_same ch
  have hchoose : ch.choose.Allocating := h.congr hwas_writable hwritable hwas_timed_out hallocates hwaiting
  have hunderway : ch.choose.Underway := h'.congr hwritable hallocates hwaiting
  rw [settle_eq]
  exact (hunderway.handleStates hchoose).congr rfl rfl rfl

/-- What an act leaves alone that is not a sort and does not allocate. -/
theorem Act.same_or {ch ch' : P2PTransportChannel} (h : Act scope ch ch') :
    (ch'.was_writable = ch.was_writable ∧ ch'.writable = ch.writable ∧ ch'.was_timed_out = ch.was_timed_out ∧
      ch'.allocates = ch.allocates ∧ ch'.waiting_for_signaling = ch.waiting_for_signaling) ∨
    (∃ ch₁ : P2PTransportChannel, (ch₁.was_writable = ch.was_writable ∧ ch₁.writable = ch.writable ∧
      ch₁.was_timed_out = ch.was_timed_out ∧ ch₁.allocates = ch.allocates ∧
        ch₁.waiting_for_signaling = ch.waiting_for_signaling) ∧ ch' = ch₁.settle) ∨
    (ch.waiting_for_signaling ∧ ch' = ch.OnSignalingReady) ∨ ch' = ch.Allocate := by
  cases h with
  | idle hidle =>
    rw [hidle]
    exact Or.inl ⟨rfl, rfl, rfl, rfl, rfl⟩
  | work => exact Or.inl ⟨rfl, rfl, rfl, rfl, rfl⟩
  | settle => exact Or.inr (Or.inl ⟨ch, ⟨rfl, rfl, rfl, rfl, rfl⟩, rfl⟩)
  | sort =>
    refine Or.inr (Or.inl ⟨_, ?_, sortConnections_eq _⟩)
    exact ⟨rfl, rfl, rfl, rfl, rfl⟩
  | create =>
    unfold PortCreateConnection
    split <;> exact Or.inl ⟨rfl, rfl, rfl, rfl, rfl⟩
  | remember =>
    unfold RememberRemoteCandidate
    dsimp only
    split_ifs <;> exact Or.inl ⟨rfl, rfl, rfl, rfl, rfl⟩
  | addPort => exact Or.inl ⟨rfl, rfl, rfl, rfl, rfl⟩
  | startPort => exact Or.inl ⟨rfl, rfl, rfl, rfl, rfl⟩
  | portTimeout =>
    unfold OnPortTimeout CheckPortTimeout
    split <;> exact Or.inl ⟨rfl, rfl, rfl, rfl, rfl⟩
  | delete =>
    unfold OnDelete clearDeletes OnConnectionDestroyed OnPortConnectionDestroyed CheckPortTimeout
    dsimp only
    split_ifs <;> exact Or.inl ⟨rfl, rfl, rfl, rfl, rfl⟩
  | signalingReady =>
    by_cases hwaiting : ch.waiting_for_signaling
    · exact Or.inr (Or.inr (Or.inl ⟨hwaiting, rfl⟩))
    · refine Or.inl ?_
      rw [OnSignalingReady, if_neg hwaiting]
      exact ⟨rfl, rfl, rfl, rfl, rfl⟩
  | allocate => exact Or.inr (Or.inr (Or.inr rfl))
  | poll => exact Or.inl ⟨rfl, rfl, rfl, rfl, rfl⟩

theorem Allocating.allocate (h : ch.Allocating) : ch.Allocate.Allocating :=
  ⟨h.was_writable, h.was_timed_out, Nat.zero_le _, fun _ => rfl⟩

theorem Allocating.act (h : ch.Allocating) (hact : Act scope ch ch') : ch'.Allocating := by
  rcases hact.same_or with ⟨h₁, h₂, h₃, h₄, h₅⟩ | ⟨ch₁, ⟨h₁, h₂, h₃, h₄, h₅⟩, rfl⟩ | ⟨hwaiting, rfl⟩ | rfl
  · exact h.congr h₁ h₂ h₃ h₄ h₅
  · exact Allocating.settle (h.congr h₁ h₂ h₃ h₄ h₅)
  · have hzero := h.waiting hwaiting
    rw [OnSignalingReady, if_pos hwaiting]
    refine ⟨h.was_writable, h.was_timed_out, ?_, nofun⟩
    show ch.allocates + 1 ≤ 1
    rw [hzero]
  · exact h.allocate

theorem Underway.act (hallocating : ch.Allocating) (h : ch.Underway) (hact : Act scope ch ch') : ch'.Underway := by
  rcases hact.same_or with ⟨-, h₂, -, h₄, h₅⟩ | ⟨ch₁, ⟨h₁, h₂, h₃, h₄, h₅⟩, rfl⟩ | ⟨hwaiting, rfl⟩ | rfl
  · exact h.congr h₂ h₄ h₅
  · exact Underway.settle (hallocating.congr h₁ h₂ h₃ h₄ h₅) (h.congr h₂ h₄ h₅)
  · have hzero := hallocating.waiting hwaiting
    rw [OnSignalingReady, if_pos hwaiting]
    refine fun _ => Or.inr ?_
    show ch.allocates + 1 = 1
    rw [hzero]
  · exact fun _ => Or.inl rfl

theorem allocating_of_run {times : Nat → UInt32} {es : List Event} (h : (new times).run es = some ch) : ch.Allocating :=
  run_keeps (fun _ _ _ hi hact => hi.act hact) (fun _ _ hi => hi.congr rfl rfl rfl rfl rfl)
    ⟨rfl, fun _ => rfl, Nat.zero_le _, fun _ => rfl⟩ h

/-- What holds from `Connect` on. -/
structure Connected (ch : P2PTransportChannel) : Prop where
  pings : ch.pings = 1
  allocating : ch.Allocating
  underway : ch.Underway

theorem Connected.step {e : Event} (h : ch.Connected) (hstep : ch.step e = some ch') : ch'.Connected := by
  rcases acts_of_step hstep with hacts | ⟨hzero, -⟩
  · have hact : ∀ ch ch' : P2PTransportChannel, ch.Allocating ∧ ch.Underway → Act e.toScope ch ch' → ch'.Allocating ∧ ch'.Underway :=
      fun _ _ hi hact => ⟨hi.1.act hact, hi.2.act hi.1 hact⟩
    obtain ⟨hallocating, hunderway⟩ := Acts.keeps hact ⟨h.allocating, h.underway⟩ hacts
    exact ⟨hacts.unplanned.pings.trans h.pings, hallocating, hunderway⟩
  · exact absurd (h.pings.symm.trans hzero) Nat.one_ne_zero

end

/-! ### After a run -/

section
attribute [local instance] Arithmetic.plain

/-- After a run, the channel is writable exactly if one of its connections is, and then the best one is; or it is still
    to be sorted, and a `MSG_SORT` is waiting. -/
theorem settled_of_run [Arithmetic] {ch : P2PTransportChannel} {times : Nat → UInt32} {es : List Event}
    (h : (new times).run es = some ch) : ch.Settled := by
  have hact : ∀ scope (ch ch' : P2PTransportChannel), ch.Books ∧ ch.Settled → Act scope ch ch' → ch'.Books ∧ ch'.Settled :=
    fun _ _ _ hi hact => ⟨hi.1.act hact, hi.2.act hi.1 hact⟩
  have hpings : ∀ (ch : P2PTransportChannel) pings, ch.Books ∧ ch.Settled →
      { ch with pings }.Books ∧ { ch with pings }.Settled :=
    fun _ _ hi => ⟨hi.1.congr rfl rfl (List.Subset.refl _) rfl rfl rfl rfl, hi.2.congr rfl rfl rfl rfl⟩
  have hnew : (new times).Settled := by
    refine ⟨fun _ => ⟨nofun, ?_⟩, fun _ => ?_, nofun⟩
    · rintro ⟨c, hc, -⟩
      exact absurd hc List.not_mem_nil
    · rintro ⟨c, hc, -⟩
      exact absurd hc List.not_mem_nil
  exact (run_keeps hact hpings ⟨books_new times, hnew⟩ h).2

theorem settled_of_run_leftTalked : leftTalked.writable = true ∧ leftTalked.Settled := by
  have hwritable : leftTalked.writable = true := by decide
  exact ⟨hwritable, settled_of_run run_leftTalking⟩

/-- The assertion of `UpdateChannelState` holds wherever a run comes to it: where connections are sorted in the middle of a
    step, and where they are for a `MSG_SORT`. -/
theorem assertion_of_run [Arithmetic] {ch ch' : P2PTransportChannel} {scope : Scope} {times : Nat → UInt32} {es : List Event}
    (h : (new times).run es = some ch) (hacts : Acts scope ch ch') :
    ch'.SortConnections.isWritable = ch'.SortConnections.writable ∧
      ∀ ch'', ch'.step .sort = some ch'' → ch''.isWritable = ch''.writable := by
  have hbooks : ch'.Books := hacts.keeps (fun _ _ hi hact => hi.act hact) (Books.of_run h)
  refine ⟨isWritable_settle hbooks.updateConnectionStates.keys_nodup, fun ch'' hstep => ?_⟩
  obtain ⟨-, heq⟩ := Option.ite_none_right_eq_some.mp hstep
  have hpopped : { ch' with queue := { ch'.queue with sorts := ch'.queue.sorts - 1 } }.Books :=
    hbooks.congr rfl rfl (List.Subset.refl _) rfl rfl rfl rfl
  rw [← Option.some.inj heq]
  exact isWritable_settle hpopped.updateConnectionStates.keys_nodup

/-- The left side has been answered, and a `MSG_SORT` is waiting. -/
def leftAnswered : P2PTransportChannel := ((new fun _ => 0).run (leftTalking.take 8)).get (by decide)

theorem assertion_of_run_leftAnswered :
    leftAnswered.SortConnections.isWritable = true ∧
      ∃ ch, leftAnswered.step .sort = some ch ∧ ch.writable = true ∧ ch.isWritable = ch.writable := by
  have hrun : (new fun _ => 0).run (leftTalking.take 8) = some leftAnswered := (Option.some_get _).symm
  have hstays : Acts Scope.none leftAnswered leftAnswered := Relation.ReflTransGen.refl
  obtain ⟨hhere, hsort⟩ := assertion_of_run hrun hstays
  have hstep := (Option.some_get (x := leftAnswered.step .sort) (by decide)).symm
  refine ⟨hhere.trans (by decide), _, hstep, by decide, hsort _ hstep⟩

/-- From `Connect` on, one `MSG_PING` is waiting all the time, and while the channel is not writable there is exactly one
    allocation to come: it waits for the signaling channel, or one `MSG_ALLOCATE` is waiting. -/
theorem underway_of_run [Arithmetic] {ch : P2PTransportChannel} {times : Nat → UInt32} {es₁ es₂ : List Event}
    (h : (new times).run (es₁ ++ .connect :: es₂) = some ch) :
    ch.pings = 1 ∧ (ch.writable = false → (ch.waiting_for_signaling ∧ ch.allocates = 0) ∨
      (ch.waiting_for_signaling = false ∧ ch.allocates = 1)) := by
  rw [run, Machine.run_append] at h
  obtain ⟨ch₁, hrun₁, hrun⟩ := Option.bind_eq_some_iff.mp h
  obtain ⟨ch₂, hconnect, hrun₂⟩ := Machine.run_cons_eq_some.mp hrun
  obtain ⟨-, heq⟩ := Option.ite_none_right_eq_some.mp hconnect
  obtain rfl := Option.some.inj heq
  have hallocate : ch₁.Allocate.Allocating := (allocating_of_run hrun₁).allocate
  have hconnected : { ch₁.Allocate with pings := 1 }.Connected :=
    ⟨rfl, hallocate.congr rfl rfl rfl rfl rfl, fun _ => Or.inl rfl⟩
  obtain ⟨hpings, hallocating, hunderway⟩ := Machine.run_keeps (fun _ _ _ _ hi hstep => hi.step hstep) hconnected hrun₂
  refine ⟨hpings, fun hunwritable => ?_⟩
  by_cases hwaiting : ch.waiting_for_signaling
  · exact Or.inl ⟨hwaiting, hallocating.waiting hwaiting⟩
  · rcases hunderway hunwritable with hwaits | hone
    · exact absurd hwaits hwaiting
    · exact Or.inr ⟨Bool.eq_false_iff.mpr hwaiting, hone⟩

theorem underway_of_run_leftOpened :
    leftOpened.pings = 1 ∧ leftOpened.writable = false ∧ leftOpened.waiting_for_signaling = false ∧ leftOpened.allocates = 1 := by
  have hrun : (new fun _ => 0).run ([] ++ .connect :: leftOpening.tail) = some leftOpened := run_leftOpening
  have hunwritable : leftOpened.writable = false := by decide
  have hready : leftOpened.waiting_for_signaling = false := by decide
  obtain ⟨hpings, hunderway⟩ := underway_of_run hrun
  rcases hunderway hunwritable with ⟨hwaiting, -⟩ | ⟨-, hallocates⟩
  · exact absurd (hready.symm.trans hwaiting) Bool.noConfusion
  · exact ⟨hpings, hunwritable, hready, hallocates⟩

end

end ProbICE.Ice.P2PTransportChannel
