import ProbICE.Theorems.IceBooks

/-! # Every port meets every candidate

Ports and candidates come in any order, and again and again. Whatever the order is, each port of the newest session has
been paired with each candidate that the channel remembers. -/

namespace ProbICE.Ice.P2PTransportChannel
open Stun

variable [Arithmetic] {ch ch' : P2PTransportChannel} {scope : Scope}

/-- The channel has constructed a connection from the port to the address. -/
def Covered (ch : P2PTransportChannel) (key : Nat) (address : SocketAddress) : Prop :=
  ∃ entry ∈ ch.constructed, entry.1 = key ∧ entry.2.Equal address

/-- Each connection was constructed where the log says. -/
def Logged (ch : P2PTransportChannel) : Prop :=
  ∀ c ∈ ch.connections, (c.port.key, c.remote_candidate.address) ∈ ch.constructed

/-- The ports and the candidates that have been brought together. -/
def Paired (ch : P2PTransportChannel) : Prop :=
  ∀ key ∈ ch.ports, ∀ rc ∈ ch.remote_candidates, rc.candidate.protocol = cstr "udp" → ch.Covered key rc.candidate.address

/-! ### What an act keeps -/

theorem Act.constructed {ch ch' : P2PTransportChannel} (h : Act scope ch ch') : ch.constructed ⊆ ch'.constructed := by
  cases h with
  | idle hidle =>
    rw [hidle]
    exact List.Subset.refl _
  | work => exact List.Subset.refl _
  | settle =>
    rw [(books_settle ch).constructed]
    exact List.Subset.refl _
  | sort =>
    rw [sortConnections_eq, (books_settle _).constructed]
    exact List.Subset.refl _
  | create =>
    unfold PortCreateConnection
    split
    · exact List.Subset.refl _
    · exact List.subset_append_left _ _
  | remember =>
    unfold RememberRemoteCandidate
    dsimp only
    split_ifs <;> exact List.Subset.refl _
  | addPort => exact List.Subset.refl _
  | startPort => exact List.Subset.refl _
  | portTimeout =>
    unfold OnPortTimeout CheckPortTimeout
    split <;> exact List.Subset.refl _
  | @delete _ c =>
    unfold OnDelete clearDeletes OnConnectionDestroyed OnPortConnectionDestroyed CheckPortTimeout
    dsimp only
    split_ifs <;> exact List.Subset.refl _
  | signalingReady =>
    unfold OnSignalingReady
    split <;> exact List.Subset.refl _
  | allocate => exact List.Subset.refl _
  | poll => exact List.Subset.refl _

/-- There are two ways to have more ports or candidates. -/
theorem Act.more {ch ch' : P2PTransportChannel} (h : Act scope ch ch') :
    (ch'.ports ⊆ ch.ports ∧ ch'.remote_candidates = ch.remote_candidates) ∨
      (scope.opens = true ∧ ((∃ port, ch' = ch.addPort port) ∨
        ∃ remote_candidate origin_port, ch' = ch.RememberRemoteCandidate remote_candidate origin_port)) := by
  cases h with
  | idle hidle =>
    rw [hidle]
    exact Or.inl ⟨List.Subset.refl _, rfl⟩
  | work => exact Or.inl ⟨List.Subset.refl _, rfl⟩
  | settle =>
    have hbooks := books_settle ch
    rw [hbooks.ports]
    exact Or.inl ⟨List.Subset.refl _, hbooks.remote_candidates⟩
  | sort =>
    have hbooks := books_settle { ch with queue := { ch.queue with sorts := ch.queue.sorts - 1 } }.UpdateConnectionStates
    rw [sortConnections_eq, hbooks.ports]
    exact Or.inl ⟨List.Subset.refl _, hbooks.remote_candidates⟩
  | create =>
    unfold PortCreateConnection
    split <;> exact Or.inl ⟨List.Subset.refl _, rfl⟩
  | remember hopens _ remote_candidate origin_port => exact Or.inr ⟨hopens, Or.inr ⟨remote_candidate, origin_port, rfl⟩⟩
  | @addPort hopens _ port => exact Or.inr ⟨hopens, Or.inl ⟨port, rfl⟩⟩
  | startPort => exact Or.inl ⟨List.Subset.refl _, rfl⟩
  | portTimeout =>
    unfold OnPortTimeout CheckPortTimeout
    split
    · exact Or.inl ⟨List.filter_sublist.subset, rfl⟩
    · exact Or.inl ⟨List.Subset.refl _, rfl⟩
  | @delete _ c =>
    obtain ⟨-, hports, -, hcandidates, -⟩ := Books.unlink_same ch c
    rw [Books.onDelete_eq]
    unfold CheckPortTimeout
    split
    · exact Or.inl ⟨hports ▸ List.filter_sublist.subset, hcandidates⟩
    · exact Or.inl ⟨hports ▸ List.Subset.refl _, hcandidates⟩
  | signalingReady =>
    unfold OnSignalingReady
    split
    · exact Or.inl ⟨List.nil_subset _, rfl⟩
    · exact Or.inl ⟨List.Subset.refl _, rfl⟩
  | allocate => exact Or.inl ⟨List.Subset.refl _, rfl⟩
  | poll => exact Or.inl ⟨List.Subset.refl _, rfl⟩

theorem Logged.evolved (h : ch.Logged) {q : Queue} (hconstructed : ch'.constructed = ch.constructed)
    (hevolved : Evolved ch.connections q ch'.connections ch'.queue) : ch'.Logged := by
  intro c' hc'
  obtain ⟨c, hc, hbecame⟩ := hevolved.back c' hc'
  rw [hbecame.port, hbecame.remote_candidate, hconstructed]
  exact h c hc

theorem Logged.subset (h : ch.Logged) (hconnections : ch'.connections ⊆ ch.connections)
    (hconstructed : ch'.constructed = ch.constructed) : ch'.Logged := by
  intro c hc
  rw [hconstructed]
  exact h c (hconnections hc)

theorem Logged.act (h : ch.Logged) (hact : Act scope ch ch') : ch'.Logged := by
  cases hact with
  | idle hidle =>
    rw [hidle]
    exact h
  | work _ hf => exact h.evolved rfl (worked_forConnections ch hf).evolved
  | settle => exact h.evolved (books_settle ch).constructed (evolved_settle ch)
  | sort =>
    have hupdate : { ch with queue := { ch.queue with sorts := ch.queue.sorts - 1 } }.UpdateConnectionStates.Logged := by
      have hpopped : { ch with queue := { ch.queue with sorts := ch.queue.sorts - 1 } }.tick.Logged := h
      exact hpopped.evolved rfl (worked_forConnections _ (Connection.evolving_UpdateState _)).evolved
    rw [sortConnections_eq]
    exact hupdate.evolved (books_settle _).constructed (evolved_settle _)
  | create =>
    unfold PortCreateConnection
    split
    · exact h
    · intro c hc
      rcases List.mem_append.mp hc with hc | hc
      · exact List.mem_append_left _ (h c hc)
      · rw [List.mem_singleton.mp hc]
        exact List.mem_append_right _ (List.mem_singleton.mpr rfl)
  | remember =>
    unfold RememberRemoteCandidate
    dsimp only
    split_ifs <;> exact h
  | addPort => exact h
  | startPort => exact h
  | portTimeout =>
    unfold OnPortTimeout CheckPortTimeout
    split <;> exact h
  | @delete _ c =>
    obtain ⟨-, -, hconstructed, -, -⟩ := Books.unlink_same ch c
    have hunlink : (Books.unlink ch c).Logged :=
      h.subset (fun x hx => (Books.mem_unlink_connections.mp hx).1) hconstructed
    rw [Books.onDelete_eq]
    unfold CheckPortTimeout
    split <;> exact hunlink
  | signalingReady =>
    unfold OnSignalingReady
    split <;> exact h
  | allocate => exact h
  | poll =>
    intro c' hc'
    obtain ⟨c, hc, rfl⟩ := Books.mem_pollSocket.mp hc'
    exact h c hc

theorem Covered.acts {key : Nat} {address : SocketAddress} (h : ch.Covered key address) (hacts : Acts scope ch ch') :
    ch'.Covered key address := by
  have hsub : ch.constructed ⊆ ch'.constructed :=
    hacts.keeps (fun _ _ hi hact => List.Subset.trans hi hact.constructed) (List.Subset.refl _)
  obtain ⟨entry, hentry, hfits⟩ := h
  exact ⟨entry, hsub hentry, hfits⟩

/-- Without new ports and candidates, there is nothing to bring together. -/
theorem Acts.fewer (h : Acts scope ch ch') (hopens : scope.opens = false) :
    ch'.ports ⊆ ch.ports ∧ ch'.remote_candidates = ch.remote_candidates := by
  induction h with
  | refl => exact ⟨List.Subset.refl _, rfl⟩
  | tail _ hact ih =>
    rcases hact.more with ⟨hports, hcandidates⟩ | ⟨hopen, -⟩
    · exact ⟨List.Subset.trans hports ih.1, hcandidates.trans ih.2⟩
    · exact absurd (hopen.symm.trans hopens) Bool.noConfusion

theorem Paired.acts (h : ch.Paired) (hacts : Acts scope ch ch') (hopens : scope.opens = false) : ch'.Paired := by
  obtain ⟨hports, hcandidates⟩ := Acts.fewer hacts hopens
  intro key hkey rc hrc hprotocol
  rw [hcandidates] at hrc
  exact (h key (hports hkey) rc hrc hprotocol).acts hacts

/-! ### Pairing -/

/-- What the loops over ports and candidates rely on. -/
structure Sound (ch : P2PTransportChannel) : Prop where
  books : ch.Books
  logged : ch.Logged
  incoming_only : ch.incoming_only = false

theorem Sound.acts (h : ch.Sound) (hacts : Acts scope ch ch') : ch'.Sound :=
  hacts.keeps (fun _ _ hi hact => ⟨hi.books.act hact, hi.logged.act hact, hact.unplanned.incoming_only.trans hi.incoming_only⟩) h

/-- There is a connection from the port to the candidate now, or there has been one. -/
theorem covered_CreateConnection (h : ch.Sound) {key : Nat} (hkey : ∃ p ∈ ch.allocated, p.key = key)
    {remote_candidate : Candidate} (hprotocol : remote_candidate.protocol = cstr "udp") (origin_port : Option Nat)
    (readable : Bool) :
    (ch.CreateConnection key remote_candidate origin_port readable).2.Covered key remote_candidate.address := by
  obtain ⟨p, hp, rfl⟩ := hkey
  unfold P2PTransportChannel.CreateConnection
  rw [h.books.port_of_mem hp]
  dsimp only
  rcases hfound : (p.GetConnection remote_candidate.address).bind ch.connection with _ | connection
  · dsimp only
    rw [if_neg (by rw [h.incoming_only]; exact fun hand => Bool.false_ne_true hand.2)]
    have hcovered : (ch.PortCreateConnection p remote_candidate).2.Covered p.key remote_candidate.address := by
      unfold PortCreateConnection
      rw [if_neg (not_not_intro hprotocol)]
      exact ⟨_, List.mem_append_right _ (List.mem_singleton.mpr rfl), rfl, SocketAddress.Equal.refl _⟩
    split
    · rename_i ch' heq
      rwa [heq] at hcovered
    · rename_i ch' heq
      rw [heq] at hcovered
      dsimp only
      have hping : ∀ ch₁ key, Acts .inside ch₁ (ch₁.ReceivedPing key) := Acts.ReceivedPing rfl
      split
      · exact hcovered.acts (hping _ _)
      · exact hcovered
  · dsimp only
    have hcovered : ch.Covered p.key remote_candidate.address := by
      obtain ⟨k, hget, hconnection⟩ := Option.bind_eq_some_iff.mp hfound
      obtain ⟨entry, hfind, rfl⟩ := Option.map_eq_some_iff.mp hget
      obtain ⟨c, hc, -, haddress, hbase⟩ := h.books.entries p hp entry (List.mem_of_find?_eq_some hfind)
      have hequal := List.find?_some hfind
      exact ⟨_, h.logged c hc, by rw [hbase], by rwa [haddress]⟩
    split
    · exact hcovered
    · dsimp only
      have hping : ∀ ch₁ key, Acts .inside ch₁ (ch₁.ReceivedPing key) := Acts.ReceivedPing rfl
      split
      · exact hcovered.acts (hping _ _)
      · exact hcovered

/-- The loops leave the ports and the candidates as they are. -/
theorem createConnection_same (ch : P2PTransportChannel) (key : Nat) (remote_candidate : Candidate) (origin_port : Option Nat)
    (readable : Bool) :
    (ch.CreateConnection key remote_candidate origin_port readable).2.ports = ch.ports ∧
      (ch.CreateConnection key remote_candidate origin_port readable).2.remote_candidates = ch.remote_candidates := by
  unfold P2PTransportChannel.CreateConnection PortCreateConnection
  split
  · exact ⟨rfl, rfl⟩
  split
  · split
    · exact ⟨rfl, rfl⟩
    · dsimp only
      split <;> exact ⟨rfl, rfl⟩
  split
  · exact ⟨rfl, rfl⟩
  · by_cases hprotocol : remote_candidate.protocol ≠ cstr "udp"
    · rw [if_pos hprotocol]
      exact ⟨rfl, rfl⟩
    · rw [if_neg hprotocol]
      dsimp only
      split <;> exact ⟨rfl, rfl⟩

theorem createOn_ports (remote_candidate : Candidate) (origin_port : Option Nat) (readable : Bool)
    (s : Bool × P2PTransportChannel) (key : Nat) :
    (createOn remote_candidate origin_port readable s key).2.ports = s.2.ports :=
  (createConnection_same s.2 key remote_candidate origin_port readable).1

theorem createLoop_ports (remote_candidate : Candidate) (origin_port : Option Nat) (readable : Bool) (keys : List Nat)
    (s : Bool × P2PTransportChannel) : (keys.foldl (createOn remote_candidate origin_port readable) s).2.ports = s.2.ports := by
  induction keys generalizing s with
  | nil => rfl
  | cons key keys ih => exact (ih _).trans (createOn_ports remote_candidate origin_port readable s key)

/-- After the loop over the ports, each of them has been paired with the candidate. -/
theorem covered_createLoop {remote_candidate : Candidate} (hprotocol : remote_candidate.protocol = cstr "udp")
    (origin_port : Option Nat) (readable : Bool) {keys : List Nat} {s : Bool × P2PTransportChannel} (h : s.2.Sound)
    (hkeys : ∀ key ∈ keys, key ∈ s.2.ports) :
    ∀ key ∈ keys, (keys.foldl (createOn remote_candidate origin_port readable) s).2.Covered key remote_candidate.address := by
  induction keys generalizing s with
  | nil => exact fun key hkey => absurd hkey List.not_mem_nil
  | cons first keys ih =>
    have hfirst : Acts .inside s.2 (createOn remote_candidate origin_port readable s first).2 :=
      Acts.createOn remote_candidate origin_port readable (fun _ => rfl) s first
    have hrest : Acts .inside (createOn remote_candidate origin_port readable s first).2
        (keys.foldl (createOn remote_candidate origin_port readable) (createOn remote_candidate origin_port readable s first)).2 :=
      Acts.foldl (Acts.createOn remote_candidate origin_port readable fun _ => rfl) keys _
    have hports := createOn_ports remote_candidate origin_port readable s first
    intro key hkey
    rcases List.mem_cons.mp hkey with rfl | hkey
    · have halive := h.books.ports_alive key (hkeys key List.mem_cons_self)
      exact (covered_CreateConnection h halive hprotocol origin_port readable).acts hrest
    · exact ih (h.acts hfirst) (fun key' hkey' => hports ▸ hkeys key' (List.mem_cons_of_mem _ hkey')) key hkey

theorem mem_remember {remote_candidate : Candidate} {origin_port : Option Nat} {rc : RemoteCandidate}
    (h : rc ∈ (ch.RememberRemoteCandidate remote_candidate origin_port).remote_candidates) :
    rc ∈ ch.remote_candidates ∨ rc = { candidate := remote_candidate, origin_port } := by
  unfold RememberRemoteCandidate at h
  dsimp only at h
  split_ifs at h
  · exact Or.inl (List.mem_filter.mp h).1
  · rcases List.mem_append.mp h with h | h
    · exact Or.inl (List.mem_filter.mp h).1
    · exact Or.inr (List.mem_singleton.mp h)
  · rcases List.mem_append.mp h with h | h
    · exact Or.inl (List.mem_filter.mp h).1
    · exact Or.inr (List.mem_singleton.mp h)

theorem remember_same (ch : P2PTransportChannel) (remote_candidate : Candidate) (origin_port : Option Nat) :
    (ch.RememberRemoteCandidate remote_candidate origin_port).ports = ch.ports ∧
      (ch.RememberRemoteCandidate remote_candidate origin_port).constructed = ch.constructed := by
  unfold RememberRemoteCandidate
  dsimp only
  split_ifs <;> exact ⟨rfl, rfl⟩

/-- A candidate is remembered when all ports have been paired with it. -/
theorem Paired.remember (h : ch.Paired) {remote_candidate : Candidate} (origin_port : Option Nat)
    (hcovered : remote_candidate.protocol = cstr "udp" → ∀ key ∈ ch.ports, ch.Covered key remote_candidate.address) :
    (ch.RememberRemoteCandidate remote_candidate origin_port).Paired := by
  obtain ⟨hports, hconstructed⟩ := remember_same ch remote_candidate origin_port
  intro key hkey rc hrc hprotocol
  rw [hports] at hkey
  have hold : ch.Covered key rc.candidate.address := by
    rcases mem_remember hrc with hrc | rfl
    · exact h key hkey rc hrc hprotocol
    · exact hcovered hprotocol key hkey
  unfold Covered
  rwa [hconstructed]

theorem Paired.createConnections (h : ch.Paired) (hsound : ch.Sound) (remote_candidate : Candidate)
    (origin_port : Option Nat) (readable : Bool) :
    (ch.CreateConnections remote_candidate origin_port readable).2.Paired := by
  have hloop : Acts .inside ch (ch.ports.reverse.foldl (createOn remote_candidate origin_port readable) (false, ch)).2 :=
    Acts.foldl (Acts.createOn remote_candidate origin_port readable fun _ => rfl) ch.ports.reverse (false, ch)
  have hcovered : remote_candidate.protocol = cstr "udp" → ∀ key ∈ ch.ports,
      (ch.ports.reverse.foldl (createOn remote_candidate origin_port readable) (false, ch)).2.Covered key
        remote_candidate.address := fun hprotocol key hkey =>
    covered_createLoop hprotocol origin_port readable hsound (fun _ hmem => List.mem_reverse.mp hmem) key
      (List.mem_reverse.mpr hkey)
  have hports := createLoop_ports remote_candidate origin_port readable ch.ports.reverse (false, ch)
  have hplain := (h.acts hloop rfl).remember origin_port fun hprotocol key hkey => hcovered hprotocol key (hports ▸ hkey)
  unfold P2PTransportChannel.CreateConnections
  rcases origin_port with _ | port
  · exact hplain
  · dsimp only
    split
    · exact hplain
    · have hlast : Acts .inside _ _ := Acts.createOn remote_candidate (some port) readable (fun _ => rfl)
        (ch.ports.reverse.foldl (createOn remote_candidate (some port) readable) (false, ch)) port
      refine (h.acts (hloop.trans hlast) rfl).remember (some port) fun hprotocol key hkey => ?_
      rw [createOn_ports, hports] at hkey
      exact (hcovered hprotocol key hkey).acts hlast

/-! ### Whatever the order -/

/-- After the loop of `OnPortReady`, the port has been paired with each of the candidates. -/
theorem covered_tryCandidates {key : Nat} {rcs : List RemoteCandidate} (h : ch.Sound) (hkey : key ∈ ch.ports) :
    ∀ rc ∈ rcs, rc.candidate.protocol = cstr "udp" → (rcs.foldl (tryCandidate key) ch).Covered key rc.candidate.address := by
  induction rcs generalizing ch with
  | nil => exact fun rc hrc => absurd hrc List.not_mem_nil
  | cons first rcs ih =>
    have hfirst : Acts .inside ch (tryCandidate key ch first) :=
      Acts.CreateConnection ch key first.candidate first.origin_port false nofun
    have hrest : Acts .inside (tryCandidate key ch first) (rcs.foldl (tryCandidate key) (tryCandidate key ch first)) :=
      Acts.tryCandidates key rcs _
    have hports : (tryCandidate key ch first).ports = ch.ports :=
      (createConnection_same ch key first.candidate first.origin_port false).1
    intro rc hrc hprotocol
    rcases List.mem_cons.mp hrc with rfl | hrc
    · exact (covered_CreateConnection h (h.books.ports_alive key hkey) hprotocol rc.origin_port false).acts hrest
    · exact ih (h.acts hfirst) (hports ▸ hkey) rc hrc hprotocol

theorem Paired.onPortReady (h : ch.Paired) (hsound : ch.Sound) {port : Port} (hkey : port.key = ch.ports_constructed)
    (hconnections : port.connections = []) (hlifetime : port.lifetime ≠ .postTimeout) : (ch.OnPortReady port).Paired := by
  have hadd : Acts (Event.portReady port).toScope ch (ch.addPort port) :=
    .single (.addPort rfl rfl hkey hconnections hlifetime)
  have hloop : Acts .inside (ch.addPort port) ((ch.addPort port).remote_candidates.foldl (tryCandidate port.key) (ch.addPort port)) :=
    Acts.tryCandidates port.key _ _
  have hsort : ∀ ch₁ : P2PTransportChannel, Acts .inside ch₁ ch₁.SortConnections := Acts.SortConnections
  have hlooped : ((ch.addPort port).remote_candidates.foldl (tryCandidate port.key) (ch.addPort port)).Paired := by
    obtain ⟨hports, hcandidates⟩ := hloop.fewer rfl
    intro key hmem rc hrc hprotocol
    rw [hcandidates] at hrc
    rcases List.mem_append.mp (hports hmem) with hold | hnew
    · exact ((h key hold rc hrc hprotocol).acts hadd).acts hloop
    · rw [List.mem_singleton.mp hnew]
      exact covered_tryCandidates (hsound.acts hadd) (List.mem_append_right _ (List.mem_singleton.mpr rfl)) rc hrc hprotocol
  exact hlooped.acts (hsort _) rfl

theorem Paired.onUnknownAddress (h : ch.Paired) (hsound : ch.Sound) (port : Nat) (address : SocketAddress)
    (stun_msg : StunMessage) (remote_username : CString) :
    (ch.OnUnknownAddress port address stun_msg remote_username).Paired := by
  have hsend : ∀ (ch₁ : P2PTransportChannel) msg, Acts .inside ch₁ (ch₁.SendMessage port address msg) := fun ch₁ msg =>
    Acts.SendMessage ch₁ port address msg
  unfold OnUnknownAddress
  split
  · exact h.acts (hsend _ _) rfl
  · rename_i candidate _
    have hcreate := h.createConnections hsound { candidate.candidate with address } (some port) true
    split
    · rename_i ch₁ heq
      rw [heq] at hcreate
      have hrespond : Acts .inside ch₁ (ch₁.SendBindingResponse port stun_msg address).SortConnections :=
        (Acts.SendBindingResponse rfl ch₁ port stun_msg address).trans (Acts.SortConnections _)
      exact hcreate.acts hrespond rfl
    · rename_i ch₁ heq
      rw [heq] at hcreate
      exact hcreate.acts (hsend _ _) rfl

theorem Paired.onReadPacket (h : ch.Paired) (hsound : ch.Sound) (port : Port) (remote_addr : SocketAddress)
    (data : List UInt8) : (ch.OnReadPacket port remote_addr data).Paired := by
  unfold OnReadPacket
  split
  · exact h
  split
  · rename_i c _
    have hread : Acts .inside ch (ch.OnConnectionReadPacket c data) := Acts.OnConnectionReadPacket rfl rfl ch c data
    exact h.acts hread rfl
  · unfold OnPortReadPacket
    split
    · exact h
    · rename_i reply _
      have hsend : Acts .inside ch (ch.SendMessage port.key remote_addr reply) := Acts.SendMessage ch port.key remote_addr reply
      exact h.acts hsend rfl
    · split
      · exact h.onUnknownAddress hsound port.key remote_addr _ _
      · exact h

theorem Paired.step {e : Event} (h : ch.Paired) (hsound : ch.Sound) (hstep : ch.step e = some ch') : ch'.Paired := by
  cases e with
  | portReady port =>
    obtain ⟨⟨hkey, hconnections, hlifetime⟩, heq⟩ := Option.ite_none_right_eq_some.mp hstep
    obtain rfl := Option.some.inj heq
    exact h.onPortReady hsound hkey hconnections hlifetime
  | candidate candidate =>
    obtain rfl := Option.some.inj hstep
    have hsort : ∀ ch₁ : P2PTransportChannel, Acts .inside ch₁ ch₁.SortConnections := Acts.SortConnections
    exact (h.createConnections hsound candidate none false).acts (hsort _) rfl
  | packet key remote_addr data =>
    obtain ⟨port, -, rfl⟩ := Option.map_eq_some_iff.mp hstep
    exact h.onReadPacket hsound port remote_addr data
  | connect | signalingReady | startPort | sendPacket | sort | ping | allocate | stunSend | delete | portTimeout =>
    rcases acts_of_step hstep with hacts | ⟨-, rfl⟩
    · exact h.acts hacts rfl
    · exact h
  | poll =>
    obtain rfl := Option.some.inj hstep
    exact h

theorem Sound.step {e : Event} (h : ch.Sound) (hstep : ch.step e = some ch') : ch'.Sound := by
  rcases acts_of_step hstep with hacts | ⟨-, rfl⟩
  · exact h.acts hacts
  · have hallocate : Acts .inside ch ch.Allocate := .single (.allocate ch)
    obtain ⟨hbooks, hlogged, hincoming⟩ := h.acts hallocate
    exact ⟨hbooks.congr rfl rfl (List.Subset.refl _) rfl rfl rfl rfl, hlogged, hincoming⟩

theorem sound_new (times : Nat → UInt32) : (new times).Sound :=
  ⟨books_new times, fun _ hc => absurd hc List.not_mem_nil, rfl⟩

/-- After a run, each port of the newest session has been paired with each remote candidate that the channel knows: a
    connection from the port to the address has been constructed. -/
theorem paired_of_run {times : Nat → UInt32} {es : List Event} (h : (new times).run es = some ch) {key : Nat}
    (hkey : key ∈ ch.ports) {rc : RemoteCandidate} (hrc : rc ∈ ch.remote_candidates)
    (hprotocol : rc.candidate.protocol = cstr "udp") :
    ∃ entry ∈ ch.constructed, entry.1 = key ∧ entry.2.Equal rc.candidate.address := by
  have hnew : (new times).Sound ∧ (new times).Paired := ⟨sound_new times, fun _ hport => absurd hport List.not_mem_nil⟩
  have hstep : ∀ (s t : P2PTransportChannel) (e : Event), e ∈ es → s.Sound ∧ s.Paired → s.step e = some t → t.Sound ∧ t.Paired :=
    fun _ _ _ _ hi hstep => ⟨hi.1.step hstep, hi.2.step hi.1 hstep⟩
  have hpaired : ch.Sound ∧ ch.Paired := Machine.run_keeps hstep hnew h
  exact hpaired.2 key hkey rc hrc hprotocol

end ProbICE.Ice.P2PTransportChannel

namespace ProbICE.Ice.P2PTransportChannel

attribute [local instance] Arithmetic.plain

theorem paired_of_run_leftOpened :
    ∃ entry ∈ leftOpened.constructed, entry.1 = 0 ∧ entry.2.Equal leftOpened.remote_candidates[0].candidate.address := by
  have hport : 0 ∈ leftOpened.ports := by decide
  have hprotocol : leftOpened.remote_candidates[0].candidate.protocol = cstr "udp" := rfl
  exact paired_of_run run_leftOpening hport (List.getElem_mem _) hprotocol

end ProbICE.Ice.P2PTransportChannel
