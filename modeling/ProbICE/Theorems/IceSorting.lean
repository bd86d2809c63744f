import Mathlib.Data.List.Dedup
import ProbICE.Theorems.IceFlags

/-! # What a sort leaves, and which connection is pinged

A sort prunes what the best connection of a network makes superfluous. What is left is pinged in turn, the connection
first that has waited longest. -/

namespace ProbICE.Ice.P2PTransportChannel

/-! ### Pruning -/

section
variable [Arithmetic] {ch ch' : P2PTransportChannel}

/-- On a network, the best connection has made the others superfluous that are not better candidates. -/
def PrunedOn (network : Nat) (ch : P2PTransportChannel) : Prop :=
  ∀ b ∈ ch.connections, ch.best_connection = some b.key → b.write_state = .writable → b.port.network = network →
    ∀ c ∈ ch.connections, c.key ≠ b.key → c.port.network = network → 0 ≤ CompareConnectionCandidates b c → c.pruned

/-- A turn of the loop over the networks is work on the connections that makes none of them writable. -/
structure Pruning (ch ch' : P2PTransportChannel) : Prop where
  best_connection : ch'.best_connection = ch.best_connection
  nodup : (ch.connections.map Connection.key).Nodup → (ch'.connections.map Connection.key).Nodup
  back : ∀ c' ∈ ch'.connections, ∃ c ∈ ch.connections, c'.key = c.key ∧ c'.port = c.port ∧
    c'.remote_candidate = c.remote_candidate ∧ (c.pruned → c'.pruned) ∧ (c'.write_state = .writable → c.write_state = .writable)

theorem pruning_pruneNetwork (ch : P2PTransportChannel) (network : Nat) : Pruning ch (ch.pruneNetwork network) := by
  have hworked := worked_pruneNetwork ch network
  refine ⟨?_, fun hnodup => hworked.evolved.keys.nodup_iff.mpr hnodup, ?_⟩
  · rw [hworked.same]
  · have hself : ∀ c ∈ ch.connections, ∃ x ∈ ch.connections, c.key = x.key ∧ c.port = x.port ∧
        c.remote_candidate = x.remote_candidate ∧ (x.pruned → c.pruned) ∧ (c.write_state = .writable → x.write_state = .writable) :=
      fun c hc => ⟨c, hc, rfl, rfl, rfl, id, id⟩
    unfold pruneNetwork
    split
    · exact hself
    split
    · exact hself
    · intro c' hc'
      obtain ⟨c, hc, q, rfl⟩ := exists_visiting hc'
      refine ⟨c, hc, ?_⟩
      split
      · have hevolves := Connection.evolving_Prune c q
        exact ⟨hevolves.key, hevolves.port, hevolves.remote_candidate, hevolves.pruned, (Connection.taming_Prune c q).writable⟩
      · exact ⟨rfl, rfl, rfl, id, id⟩

theorem compare_congr {b b' c c' : Connection} (hb : b'.port = b.port) (hb' : b'.remote_candidate = b.remote_candidate)
    (hc : c'.port = c.port) (hc' : c'.remote_candidate = c.remote_candidate) :
    CompareConnectionCandidates b' c' = CompareConnectionCandidates b c := by
  unfold CompareConnectionCandidates combinedPreference
  rw [hb, hb', hc, hc']

theorem PrunedOn.pruning {network : Nat} (h : PrunedOn network ch) (hpruning : Pruning ch ch') : PrunedOn network ch' := by
  intro b' hb' hbest hwritable hnetwork c' hc' hne hnetwork' hcompare
  obtain ⟨b, hb, hbkey, hbport, hbremote, -, hbwritable⟩ := hpruning.back b' hb'
  obtain ⟨c, hc, hckey, hcport, hcremote, hcpruned, -⟩ := hpruning.back c' hc'
  rw [hpruning.best_connection, hbkey] at hbest
  rw [hbport] at hnetwork
  rw [hckey, hbkey] at hne
  rw [hcport] at hnetwork'
  rw [compare_congr hbport hbremote hcport hcremote] at hcompare
  exact hcpruned (h b hb hbest (hbwritable hwritable) hnetwork c hc hne hnetwork' hcompare)

theorem prune_pruned (c : Connection) (q : Queue) : (c.Prune q).1.pruned := by
  unfold Connection.Prune
  split
  · rw [Connection.set_write_state_eq]
  · rename_i h
    exact not_not.mp h

theorem prunedOn_pruneNetwork (hnodup : (ch.connections.map Connection.key).Nodup) (network : Nat) :
    PrunedOn network (ch.pruneNetwork network) := by
  have hpruning := pruning_pruneNetwork ch network
  intro b' hb' hbest hwritable hnetwork c' hc' hne hnetwork' hcompare
  obtain ⟨b, hb, hbkey, hbport, hbremote, -, hbwritable⟩ := hpruning.back b' hb'
  rw [hpruning.best_connection, hbkey] at hbest
  rw [hbport] at hnetwork
  have hprimier : ch.GetBestConnectionOnNetwork network = some b := by
    rw [← hnetwork]
    exact getBestConnectionOnNetwork_of_best (best_of_mem hnodup hb hbest)
  unfold pruneNetwork at hc'
  rw [hprimier] at hc'
  dsimp only at hc'
  rw [if_neg (not_not_intro (hbwritable hwritable))] at hc'
  obtain ⟨c, hc, q, rfl⟩ := exists_visiting hc'
  split
  · exact prune_pruned c q
  · rename_i hspared
    rw [if_neg hspared] at hne hnetwork' hcompare
    rw [compare_congr hbport hbremote rfl rfl] at hcompare
    exact absurd ⟨hbkey ▸ hne, hnetwork', hcompare⟩ hspared

/-- The loop over the networks prunes on each of them, and does not undo it. -/
theorem prunedOn_pruneNetworks {networks : List Nat} (hnodup : (ch.connections.map Connection.key).Nodup) {network : Nat}
    (hnetwork : network ∈ networks ∨ PrunedOn network ch) : PrunedOn network (networks.foldl pruneNetwork ch) := by
  induction networks generalizing ch with
  | nil => exact hnetwork.resolve_left List.not_mem_nil
  | cons first networks ih =>
    have hpruning := pruning_pruneNetwork ch first
    refine ih (hpruning.nodup hnodup) ?_
    rcases hnetwork with hmem | hpruned
    · rcases List.mem_cons.mp hmem with rfl | hmem
      · exact Or.inr (prunedOn_pruneNetwork hnodup network)
      · exact Or.inl hmem
    · exact Or.inr (hpruned.pruning hpruning)

theorem prunedOn_settle (hnodup : (ch.connections.map Connection.key).Nodup) {b : Connection} (hb : b ∈ ch.settle.connections) :
    PrunedOn b.port.network ch.settle := by
  have hchosen : ({ ch with queue := { ch.queue with sort_dirty := false } }.chooseBest.connections.map Connection.key).Nodup := by
    rw [chooseBest_connections]
    exact ((sorted_perm _).map _).nodup_iff.mpr hnodup
  have hnetwork : b.port.network ∈ (ch.connections.map (·.port.network)).dedup := by
    obtain ⟨c, hc, hbecame⟩ := (evolved_settle ch).back b hb
    rw [List.mem_dedup, hbecame.port]
    exact List.mem_map.mpr ⟨c, hc, rfl⟩
  have hchoose : PrunedOn b.port.network ch.choose := prunedOn_pruneNetworks hchosen (Or.inl hnetwork)
  unfold PrunedOn
  rw [settle_connections, settle_best_connection]
  exact hchoose

end

section
attribute [local instance] Arithmetic.plain

/-- When a sort that comes in a run leaves a best connection that is writable, then every other connection on its network is
    pruned that is not better by the preferences and the generations of its candidates. -/
theorem pruned_of_run [Arithmetic] {ch : P2PTransportChannel} {times : Nat → UInt32} {es : List Event}
    (h : (new times).run (es ++ [.sort]) = some ch) {b c : Connection} (hb : b ∈ ch.connections)
    (hbest : ch.best_connection = some b.key) (hwritable : b.write_state = .writable)
    (hc : c ∈ ch.connections) (hne : c.key ≠ b.key) (hnetwork : c.port.network = b.port.network)
    (hcompare : 0 ≤ CompareConnectionCandidates b c) : c.pruned := by
  rw [run, Machine.run_append] at h
  obtain ⟨ch₁, hrun, hsort⟩ := Option.bind_eq_some_iff.mp h
  obtain ⟨ch₂, hstep, hrest⟩ := Machine.run_cons_eq_some.mp hsort
  obtain rfl := Option.some.inj hrest
  obtain ⟨-, heq⟩ := Option.ite_none_right_eq_some.mp hstep
  obtain rfl := Option.some.inj heq
  have hbooks : { ch₁ with queue := { ch₁.queue with sorts := ch₁.queue.sorts - 1 } }.Books :=
    (Books.of_run hrun).congr rfl rfl (List.Subset.refl _) rfl rfl rfl rfl
  exact prunedOn_settle hbooks.updateConnectionStates.keys_nodup hb b hb hbest hwritable rfl c hc hne hnetwork hcompare

/-- The left side knows two candidates, and the first one answers. -/
def leftChoosing : List Event :=
  leftOpening ++ [.candidate (candidateOf right 3), .ping (cstr "abcdefghijkl"),
    .packet 0 (addressOf 2) (((Stun.StunMessage.new Stun.STUN_BINDING_RESPONSE (cstr "abcdefghijkl")).AddAttribute
      (.ofBytes Stun.STUN_ATTR_USERNAME (right ++ left))).Write)]

def leftChosen : P2PTransportChannel := ((new fun _ => 0).run (leftChoosing ++ [.sort])).get (by decide)

theorem pruned_of_run_leftChosen : leftChosen.connections[0].write_state = .writable ∧ leftChosen.connections[1].pruned := by
  have hrun : (new fun _ => 0).run (leftChoosing ++ [.sort]) = some leftChosen := (Option.some_get _).symm
  have hwritable : leftChosen.connections[0].write_state = .writable := by decide
  have hbest : leftChosen.best_connection = some leftChosen.connections[0].key := by decide
  have hne : leftChosen.connections[1].key ≠ leftChosen.connections[0].key := by decide
  have hcompare : (0 : Int32) ≤ CompareConnectionCandidates leftChosen.connections[0] leftChosen.connections[1] := by decide
  exact ⟨hwritable, pruned_of_run hrun (List.getElem_mem _) hbest hwritable (List.getElem_mem _) hne rfl hcompare⟩

end

/-! ### Pings -/

section
variable [Arithmetic] {ch : P2PTransportChannel}

/-- What the loop over the connections has found so far. -/
structure Oldest (ch : P2PTransportChannel) (seen : List Connection) (s : Option Connection × UInt32) : Prop where
  time : s.2 = (s.1.map Connection.last_ping_sent).getD 0xFFFFFFFF
  found : ∀ c, s.1 = some c → c ∈ seen ∧ ch.IsPingable c
  least : ∀ d ∈ seen, ch.IsPingable d → s.2 ≤ d.last_ping_sent

theorem Oldest.visit {seen : List Connection} {s : Option Connection × UInt32} (h : ch.Oldest seen s) (c : Connection) :
    ch.Oldest (seen ++ [c]) (ch.oldest s c) := by
  have hlater : ∀ d, s.1 = some d → d ∈ seen ++ [c] ∧ ch.IsPingable d := fun d hd =>
    ⟨List.mem_append_left _ (h.found d hd).1, (h.found d hd).2⟩
  unfold oldest
  split
  · rename_i hpingable
    split
    · rename_i hless
      refine ⟨rfl, fun d hd => ?_, fun d hd hping => ?_⟩
      · obtain rfl := Option.some.inj hd
        exact ⟨List.mem_append_right _ (List.mem_singleton.mpr rfl), hpingable⟩
      · rcases List.mem_append.mp hd with hd | hd
        · exact UInt32.le_trans (UInt32.le_of_lt hless) (h.least d hd hping)
        · rw [List.mem_singleton.mp hd]
          exact UInt32.le_refl _
    · rename_i hnotless
      refine ⟨h.time, hlater, fun d hd hping => ?_⟩
      rcases List.mem_append.mp hd with hd | hd
      · exact h.least d hd hping
      · rw [List.mem_singleton.mp hd]
        exact UInt32.not_lt.mp hnotless
  · rename_i hnot
    refine ⟨h.time, hlater, fun d hd hping => ?_⟩
    rcases List.mem_append.mp hd with hd | hd
    · exact h.least d hd hping
    · rw [List.mem_singleton.mp hd] at hping
      exact absurd hping hnot

theorem Oldest.visits (cs : List Connection) {seen : List Connection} {s : Option Connection × UInt32} (h : ch.Oldest seen s) :
    ch.Oldest (seen ++ cs) (cs.foldl ch.oldest s) := by
  induction cs generalizing seen s with
  | nil => rwa [List.append_nil]
  | cons c cs ih =>
    rw [List.append_cons]
    exact ih (h.visit c)

theorem oldest_connections (ch : P2PTransportChannel) :
    ch.Oldest ch.connections (ch.connections.foldl ch.oldest (none, 0xFFFFFFFF)) := by
  have hnone : ch.Oldest [] (none, 0xFFFFFFFF) :=
    ⟨rfl, fun _ h => absurd h.symm (Option.some_ne_none _), fun _ h => absurd h List.not_mem_nil⟩
  have hall := hnone.visits ch.connections
  rwa [List.nil_append] at hall

/-- The time of the best connection has come, if it is writable. -/
def BestDue (ch : P2PTransportChannel) (now : UInt32) : Prop :=
  ∃ best, ch.best = some best ∧ best.write_state = .writable ∧ best.last_ping_sent + MAX_CURRENT_WRITABLE_DELAY ≤ now

/-- The connection that is pinged next is the best one if its time has come, and else one of the pingable connections that
    have waited longest. There is none only if every pingable connection has been pinged at the last tick of the clock. -/
theorem findNextPingableConnection_spec (ch : P2PTransportChannel) (now : UInt32) :
    (ch.BestDue now ∧ ch.FindNextPingableConnection now = ch.best) ∨
    (¬ ch.BestDue now ∧
      ((∃ c ∈ ch.connections, ch.FindNextPingableConnection now = some c ∧ ch.IsPingable c ∧
          ∀ d ∈ ch.connections, ch.IsPingable d → c.last_ping_sent ≤ d.last_ping_sent) ∨
        (ch.FindNextPingableConnection now = none ∧
          ∀ d ∈ ch.connections, ch.IsPingable d → d.last_ping_sent = 0xFFFFFFFF))) := by
  have holdest := oldest_connections ch
  have hfound : ∀ found, (ch.connections.foldl ch.oldest (none, 0xFFFFFFFF)).1 = found →
      (∃ c ∈ ch.connections, found = some c ∧ ch.IsPingable c ∧
          ∀ d ∈ ch.connections, ch.IsPingable d → c.last_ping_sent ≤ d.last_ping_sent) ∨
        (found = none ∧ ∀ d ∈ ch.connections, ch.IsPingable d → d.last_ping_sent = 0xFFFFFFFF) := by
    intro found hfold
    have htime := holdest.time
    rw [hfold] at htime
    cases found with
    | none =>
      refine Or.inr ⟨rfl, fun d hd hping => UInt32.le_antisymm ?_ ?_⟩
      · exact UInt32.le_ofNat_iff (by norm_num) |>.mpr (Nat.le_of_lt_succ d.last_ping_sent.toNat_lt)
      · have hleast := holdest.least d hd hping
        rwa [htime] at hleast
    | some c =>
      obtain ⟨hc, hping⟩ := holdest.found c hfold
      refine Or.inl ⟨c, hc, rfl, hping, fun d hd hpingd => ?_⟩
      have hleast := holdest.least d hd hpingd
      rwa [htime] at hleast
  unfold FindNextPingableConnection BestDue
  rcases hbest : ch.best with _ | best
  · refine Or.inr ⟨?_, hfound _ rfl⟩
    rintro ⟨best, heq, -⟩
    cases heq
  · dsimp only
    split
    · rename_i hdue
      exact Or.inl ⟨⟨best, rfl, hdue.1, hdue.2⟩, rfl⟩
    · rename_i hnot
      refine Or.inr ⟨?_, hfound _ rfl⟩
      rintro ⟨best', heq, hwritable, hlate⟩
      obtain rfl := Option.some.inj heq
      exact hnot ⟨hwritable, hlate⟩

end

end ProbICE.Ice.P2PTransportChannel
