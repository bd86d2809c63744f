import ProbICE.Theorems.IcePairs
import ProbICE.Theorems.IcePast

/-! # Pings from addresses that a port does not know

The channel makes out by the username whose candidate has moved. It takes the first candidate that fits, which is one of
the newest generation. -/

namespace ProbICE.Ice.P2PTransportChannel
open Stun

/-! ### The candidates that are remembered -/

section
variable [Arithmetic] {ch ch' : P2PTransportChannel} {scope : Scope}

/-- The one that comes later is no duplicate, and of no newer generation. -/
def Precedes (rc rc' : RemoteCandidate) : Prop :=
  rc'.candidate.generation ≤ rc.candidate.generation ∧ ¬ rc.candidate.IsEquivalent rc'.candidate

def Remembered (ch : P2PTransportChannel) : Prop := ch.remote_candidates.Pairwise Precedes

theorem Remembered.remember (h : ch.Remembered) (remote_candidate : Candidate) (origin_port : Option Nat) :
    (ch.RememberRemoteCandidate remote_candidate origin_port).Remembered := by
  have hfiltered : (ch.remote_candidates.filter fun rc =>
      ¬ rc.candidate.generation < remote_candidate.generation).Pairwise Precedes := h.sublist List.filter_sublist
  have happended (hnew : ¬ (ch.remote_candidates.filter fun rc =>
      ¬ rc.candidate.generation < remote_candidate.generation).any (·.candidate.IsEquivalent remote_candidate)) :
      ((ch.remote_candidates.filter fun rc => ¬ rc.candidate.generation < remote_candidate.generation) ++
        [({ candidate := remote_candidate, origin_port } : RemoteCandidate)]).Pairwise Precedes := by
    refine List.pairwise_append.mpr ⟨hfiltered, List.pairwise_singleton _ _, fun rc hrc rc' hrc' => ?_⟩
    rw [List.mem_singleton.mp hrc']
    refine ⟨?_, fun hequivalent => hnew (List.any_eq_true.mpr ⟨rc, hrc, hequivalent⟩)⟩
    have hnotolder := (List.mem_filter.mp hrc).2
    exact UInt32.not_lt.mp (of_decide_eq_true hnotolder)
  unfold RememberRemoteCandidate Remembered
  dsimp only
  split
  · exact hfiltered
  · rename_i hnew
    split <;> exact happended hnew

theorem Remembered.act (h : ch.Remembered) (hact : Act scope ch ch') : ch'.Remembered := by
  rcases hact.more with ⟨-, hsame⟩ | ⟨-, ⟨port, rfl⟩ | ⟨remote_candidate, origin_port, rfl⟩⟩
  · unfold Remembered
    rwa [hsame]
  · exact h
  · exact h.remember remote_candidate origin_port

theorem remembered_of_run {times : Nat → UInt32} {es : List Event} (h : (new times).run es = some ch) : ch.Remembered := by
  have hnew : (new times).Remembered := List.Pairwise.nil
  exact run_keeps (fun _ _ _ hi hact => hi.act hact) (fun _ _ hi => hi) hnew h

end

section
attribute [local instance] Arithmetic.plain

/-- After a run, the candidate that an unknown address is taken to belong to is of the newest generation that is remembered
    for its username, and none other of the remembered candidates is equivalent to it. -/
theorem newest_of_run [Arithmetic] {ch : P2PTransportChannel} {times : Nat → UInt32} {es : List Event}
    (h : (new times).run es = some ch) {username : CString}
    {rc : RemoteCandidate} (hfind : ch.remote_candidates.find? (·.candidate.username = username) = some rc) :
    (∀ rc' ∈ ch.remote_candidates, rc'.candidate.username = username → rc'.candidate.generation ≤ rc.candidate.generation) ∧
      ch.remote_candidates.Pairwise fun rc rc' => ¬ rc.candidate.IsEquivalent rc'.candidate := by
  have hremembered := remembered_of_run h
  refine ⟨fun rc' hrc' husername => ?_, hremembered.imp And.right⟩
  obtain ⟨-, before, after, heq, hbefore⟩ := List.find?_eq_some_iff_append.mp hfind
  unfold Remembered at hremembered
  rw [heq] at hremembered hrc'
  rcases List.mem_append.mp hrc' with hrc' | hrc'
  · have hother := hbefore rc' hrc'
    rw [husername] at hother
    simp at hother
  rcases List.mem_cons.mp hrc' with rfl | hrc'
  · exact UInt32.le_refl _
  · exact ((List.pairwise_cons.mp (List.pairwise_append.mp hremembered).2.1).1 rc' hrc').1

/-- A candidate of a newer generation comes, and then one of the older generation. -/
def leftRenewing : List Event :=
  leftOpening ++ [.candidate { candidateOf right 3 with generation := 1 }, .candidate (candidateOf right 4)]

def leftRenewed : P2PTransportChannel := ((new fun _ => 0).run leftRenewing).get (by decide)

theorem newest_of_run_leftRenewed :
    leftRenewed.remote_candidates[1].candidate.generation ≤ leftRenewed.remote_candidates[0].candidate.generation := by
  have hrun : (new fun _ => 0).run leftRenewing = some leftRenewed := (Option.some_get _).symm
  have hfind : leftRenewed.remote_candidates.find? (·.candidate.username = right) = some leftRenewed.remote_candidates[0] := rfl
  exact (newest_of_run hrun hfind).1 leftRenewed.remote_candidates[1] (List.getElem_mem _) rfl

end

/-! ### New connections for a candidate that has moved -/

section
variable [Arithmetic] {ch : P2PTransportChannel}

/-- The connection is not one of the port to the address. -/
def Apart (key : Nat) (address : SocketAddress) (c : Connection) : Prop :=
  c.port.key = key → ¬ c.remote_candidate.address.Equal address

theorem Apart.receivedPing {key : Nat} {address : SocketAddress} {c : Connection} (h : Apart key address c) (now : UInt32)
    (q : Queue) : Apart key address (c.ReceivedPing now q).1 := by
  have hevolves := Connection.evolving_ReceivedPing now c q
  unfold Apart
  rwa [hevolves.port, hevolves.remote_candidate]

def Alive (ch : P2PTransportChannel) (key : Nat) : Prop := ∃ p ∈ ch.allocated, p.key = key

theorem Alive.createConnection {key : Nat} (h : ch.Alive key) (port : Nat) (remote : Candidate) (origin_port : Option Nat)
    (readable : Bool) : (ch.CreateConnection port remote origin_port readable).2.Alive key := by
  unfold P2PTransportChannel.CreateConnection PortCreateConnection
  split
  · exact h
  rename_i p _
  split
  · split
    · exact h
    · dsimp only
      split <;> exact h
  split
  · exact h
  by_cases hprotocol : remote.protocol ≠ cstr "udp"
  · rw [if_pos hprotocol]
    exact h
  · rw [if_neg hprotocol]
    obtain ⟨x, hx, rfl⟩ := h
    have hlinked : ∀ f : Port → Port, (if x.key = p.key then f x else x) ∈ (ch.modifyPort p.key f).allocated := fun f =>
      Books.mem_modifyPort.mpr ⟨x, hx, rfl⟩
    have hbase : ∀ p : Port, ({ p with connections := p.connections ++ [(remote.address, ch.constructed.length)] } :
        Port).toPortBase = p.toPortBase := fun _ => rfl
    dsimp only
    split <;> exact ⟨_, hlinked _, congrArg PortBase.key (Books.modified_base hbase x)⟩

/-- Where the port has no connection to the address, one is created if the protocol is that of the port. -/
theorem createConnection_fst (hbooks : ch.Books) {key : Nat} (halive : ch.Alive key) {remote : Candidate}
    (hapart : ch.Held (Apart key remote.address)) (origin : Nat) (readable : Bool) :
    (ch.CreateConnection key remote (some origin) readable).1 = true ↔ remote.protocol = cstr "udp" := by
  obtain ⟨p, hp, rfl⟩ := halive
  have hnone : p.GetConnection remote.address = none := by
    rcases hget : p.GetConnection remote.address with _ | k
    · rfl
    · obtain ⟨c, hc, -, hbase, hequal⟩ := (hbooks.getConnection_eq_some hp remote.address k).mp hget
      exact absurd hequal (hapart c hc (by rw [hbase]))
  unfold P2PTransportChannel.CreateConnection PortCreateConnection
  rw [hbooks.port_of_mem hp]
  dsimp only
  rw [hnone, Option.bind_none]
  dsimp only
  rw [if_neg (by exact fun hand => Option.some_ne_none _ hand.1)]
  by_cases hprotocol : remote.protocol ≠ cstr "udp"
  · rw [if_pos hprotocol]
    exact ⟨nofun, fun hudp => absurd hudp hprotocol⟩
  · rw [if_neg hprotocol]
    exact ⟨fun _ => not_not.mp hprotocol, fun _ => rfl⟩

theorem createOn_fst (remote : Candidate) (origin : Nat) (readable : Bool) (s : Bool × P2PTransportChannel) (key : Nat) :
    (createOn remote (some origin) readable s key).1 =
      (s.1 || (s.2.CreateConnection key remote (some origin) readable).1 && decide (origin = key)) := by
  unfold createOn
  simp

theorem createLoop_of_true (remote : Candidate) (origin_port : Option Nat) (readable : Bool) (keys : List Nat)
    {s : Bool × P2PTransportChannel} (h : s.1 = true) : (keys.foldl (createOn remote origin_port readable) s).1 = true := by
  induction keys generalizing s with
  | nil => exact h
  | cons key keys ih =>
    refine ih ?_
    unfold createOn
    dsimp only
    rw [h, Bool.true_or]

/-- The loop over the ports comes upon the origin port if it is there, and creates a connection if it can. -/
theorem createLoop_fst {remote : Candidate} (readable : Bool) {key : Nat} (keys : List Nat) {s : Bool × P2PTransportChannel}
    (hbooks : s.2.Books) (halive : s.2.Alive key) (hapart : s.2.Held (Apart key remote.address)) (hs : s.1 = false) :
    ((keys.foldl (createOn remote (some key) readable) s).1 = true ↔ key ∈ keys ∧ remote.protocol = cstr "udp") ∧
      (key ∉ keys → (keys.foldl (createOn remote (some key) readable) s).2.Alive key ∧
        (keys.foldl (createOn remote (some key) readable) s).2.Held (Apart key remote.address)) := by
  induction keys generalizing s with
  | nil => exact ⟨by simp [hs], fun _ => ⟨halive, hapart⟩⟩
  | cons first keys ih =>
    have hacts : Acts .inside s.2 (createOn remote (some key) readable s first).2 :=
      Acts.createOn remote (some key) readable (fun _ => rfl) s first
    have hbooks' := hacts.keeps (fun _ _ hi hact => hi.act hact) hbooks
    have halive' : (createOn remote (some key) readable s first).2.Alive key :=
      halive.createConnection first remote (some key) readable
    have hfst : (createOn remote (some key) readable s first).1 =
        ((s.2.CreateConnection first remote (some key) readable).1 && decide (key = first)) := by
      rw [createOn_fst, hs, Bool.false_or]
    have hrest := @ih (createOn remote (some key) readable s first) hbooks' halive'
    by_cases hfirst : key = first
    · subst hfirst
      have hcreated := createConnection_fst hbooks halive hapart key readable
      refine ⟨?_, fun hnot => absurd List.mem_cons_self hnot⟩
      by_cases hudp : remote.protocol = cstr "udp"
      · refine ⟨fun _ => ⟨List.mem_cons_self, hudp⟩, fun _ => createLoop_of_true remote (some key) readable keys ?_⟩
        rw [hfst, hcreated.mpr hudp]
        simp
      · have hstill : (createOn remote (some key) readable s key).2.Held (Apart key remote.address) :=
          hapart.createConnection hbooks (fun hprotocol => absurd hprotocol hudp)
            (fun _ _ now q hQ _ => hQ.receivedPing now q) (some key)
        have hfalse : (createOn remote (some key) readable s key).1 = false := by
          rw [hfst, Bool.eq_false_iff.mpr fun htrue => hudp (hcreated.mp htrue), Bool.false_and]
        refine (hrest hstill hfalse).1.trans ?_
        exact ⟨fun hand => absurd hand.2 hudp, fun hand => absurd hand.2 hudp⟩
    · have hstill : (createOn remote (some key) readable s first).2.Held (Apart key remote.address) :=
        hapart.createConnection hbooks (fun _ _ base hbase hkey => absurd (hkey.symm.trans hbase) hfirst)
          (fun _ _ now q hQ _ => hQ.receivedPing now q) (some key)
      have hfalse : (createOn remote (some key) readable s first).1 = false := by
        rw [hfst, decide_eq_false hfirst, Bool.and_false]
      obtain ⟨hiff, hkeeps⟩ := hrest hstill hfalse
      refine ⟨hiff.trans (and_congr_left fun _ => ?_), fun hnot => hkeeps fun hmem => hnot (List.mem_cons_of_mem _ hmem)⟩
      rw [List.mem_cons]
      exact ⟨Or.inr, fun hmem => hmem.resolve_left hfirst⟩

theorem createConnections_fst (hbooks : ch.Books) {p : Port} (hp : p ∈ ch.allocated) (remote : Candidate)
    (hnone : (p.GetConnection remote.address).bind ch.connection = none) (readable : Bool) :
    (ch.CreateConnections remote (some p.key) readable).1 = true ↔ remote.protocol = cstr "udp" := by
  have hapart : ch.Held (Apart p.key remote.address) := by
    intro c hc hkey hequal
    obtain ⟨p', hp', hbase, hentry⟩ := hbooks.known c hc
    obtain rfl : p' = p := hbooks.port_eq hp' hp (by rw [hbase, hkey])
    exact hbooks.not_equal_of_none hp hnone _ hentry hequal
  obtain ⟨hiff, hkeeps⟩ := createLoop_fst readable ch.ports.reverse (s := (false, ch)) hbooks
    ⟨p, hp, rfl⟩ hapart rfl
  rw [List.mem_reverse] at hiff hkeeps
  unfold P2PTransportChannel.CreateConnections
  dsimp only
  split
  · rename_i hmem
    exact hiff.trans (and_iff_right hmem)
  · rename_i hnot
    obtain ⟨halive, hstill⟩ := hkeeps hnot
    have hloop : Acts .inside ch (ch.ports.reverse.foldl (createOn remote (some p.key) readable) (false, ch)).2 :=
      Acts.foldl (Acts.createOn remote (some p.key) readable fun _ => rfl) ch.ports.reverse (false, ch)
    have hbooks' := hloop.keeps (fun _ _ hi hact => hi.act hact) hbooks
    have hfalse : (ch.ports.reverse.foldl (createOn remote (some p.key) readable) (false, ch)).1 = false :=
      Bool.eq_false_iff.mpr fun htrue => hnot (hiff.mp htrue).1
    rw [← createConnection_fst hbooks' halive hstill p.key readable, createOn_fst, hfalse, Bool.false_or, decide_eq_true rfl,
      Bool.and_true]

/-! ### Answers to strangers -/

theorem sent_sortConnections (ch : P2PTransportChannel) : ch.SortConnections.sent = ch.sent := (books_settle _).sent

theorem sent_createConnection (ch : P2PTransportChannel) (port : Nat) (remote : Candidate) (origin_port : Option Nat)
    (readable : Bool) : (ch.CreateConnection port remote origin_port readable).2.sent = ch.sent := by
  unfold P2PTransportChannel.CreateConnection PortCreateConnection
  split
  · rfl
  split
  · split
    · rfl
    · dsimp only
      split <;> rfl
  split
  · rfl
  by_cases hprotocol : remote.protocol ≠ cstr "udp"
  · rw [if_pos hprotocol]
  · rw [if_neg hprotocol]
    dsimp only
    split <;> rfl

/-- Connections are created in silence. -/
theorem sent_createConnections (ch : P2PTransportChannel) (remote : Candidate) (origin_port : Option Nat) (readable : Bool) :
    (ch.CreateConnections remote origin_port readable).2.sent = ch.sent := by
  have hloop : ∀ (keys : List Nat) (s : Bool × P2PTransportChannel),
      (keys.foldl (createOn remote origin_port readable) s).2.sent = s.2.sent := by
    intro keys
    induction keys with
    | nil => exact fun s => rfl
    | cons key keys ih => exact fun s => (ih _).trans (sent_createConnection s.2 key remote origin_port readable)
  have hremember : ∀ ch : P2PTransportChannel, (ch.RememberRemoteCandidate remote origin_port).sent = ch.sent := by
    intro ch
    unfold RememberRemoteCandidate
    dsimp only
    split_ifs <;> rfl
  unfold P2PTransportChannel.CreateConnections
  dsimp only
  rw [hremember]
  rcases origin_port with _ | port
  · exact hloop _ _
  · dsimp only
    split
    · exact hloop _ _
    · exact (sent_createConnection _ port remote (some port) readable).trans (hloop _ _)

theorem sent_sendBindingResponse {request response : StunMessage} {addr : SocketAddress}
    (h : bindingResponse request addr = some response) (ch : P2PTransportChannel) (port : Nat) :
    (ch.SendBindingResponse port request addr).sent = ch.sent ++ [(port, addr, response.Write)] := by
  unfold SendBindingResponse
  rw [h]
  dsimp only
  split <;> rfl

end

section
attribute [local instance] Arithmetic.plain

/-- When a ping comes to a port from an address that the port has no connection to, and its username is that of a candidate
    that the channel remembers, then `OnUnknownAddress` comes to its `ASSERT(false)` if and only if the candidate is not
    one for UDP; and if it is one, the ping is answered. -/
theorem stranger_of_run [Arithmetic] {ch : P2PTransportChannel} {times : Nat → UInt32} {es : List Event}
    (h : (new times).run es = some ch) {p : Port} (hp : p ∈ ch.allocated) {address : SocketAddress} (hnone : (p.GetConnection address).bind ch.connection = none)
    {username : CString} {rc : RemoteCandidate} (hfind : ch.remote_candidates.find? (·.candidate.username = username) = some rc)
    {msg response : StunMessage} (hresponse : bindingResponse msg address = some response) :
    ((ch.CreateConnections { rc.candidate with address } (some p.key) true).1 = true ↔ rc.candidate.protocol = cstr "udp") ∧
      (rc.candidate.protocol = cstr "udp" →
        (ch.OnUnknownAddress p.key address msg username).sent = ch.sent ++ [(p.key, address, response.Write)]) := by
  have hiff := createConnections_fst (Books.of_run h) hp { rc.candidate with address } hnone true
  refine ⟨hiff, fun hudp => ?_⟩
  have hcreated := hiff.mpr hudp
  have hsent := sent_createConnections ch { rc.candidate with address } (some p.key) true
  unfold OnUnknownAddress
  rw [hfind]
  dsimp only
  split
  · rename_i heq
    rw [heq] at hsent
    rw [sent_sortConnections, sent_sendBindingResponse hresponse, hsent]
  · rename_i heq
    rw [heq] at hcreated
    cases hcreated

/-- A ping from the other side. -/
def stranger : StunMessage :=
  (StunMessage.new STUN_BINDING_REQUEST (cstr "abcdefghijkl")).AddAttribute (.ofBytes STUN_ATTR_USERNAME (left ++ right))

theorem stranger_of_run_leftOpened :
    (leftOpened.OnUnknownAddress leftOpened.allocated[0].key (addressOf 9) stranger right).sent =
      leftOpened.sent ++ [(leftOpened.allocated[0].key, addressOf 9, ((bindingResponse stranger (addressOf 9)).get rfl).Write)] := by
  have hnone : (leftOpened.allocated[0].GetConnection (addressOf 9)).bind leftOpened.connection = none := rfl
  have hfind : leftOpened.remote_candidates.find? (·.candidate.username = right) = some leftOpened.remote_candidates[0] := rfl
  have hresponse := (Option.some_get (x := bindingResponse stranger (addressOf 9)) rfl).symm
  exact (stranger_of_run run_leftOpening (List.getElem_mem _) hnone hfind hresponse).2 rfl

end

end ProbICE.Ice.P2PTransportChannel
