import ProbICE.Theorems.IceFlags

/-! # Where the states of a connection come from

A connection becomes readable when somebody asks who knows both username fragments, and it becomes writable when a ping
of its own is answered. What comes before that is not passed on, and what comes from elsewhere changes nothing. -/

namespace ProbICE.Ice.P2PTransportChannel
open Stun

section
variable [Arithmetic] {ch ch' : P2PTransportChannel} {scope : Scope} {times : Nat → UInt32} {past : List Event}

/-! ### What has come in -/

/-- A ping with this id has been made for a connection from the port to the candidate. -/
def Pinged (times : Nat → UInt32) (past : List Event) (port : PortBase) (remote : Candidate) (id_ : CString) : Prop :=
  ∃ past₁ past₂ ch ch' c, past = past₁ ++ .ping id_ :: past₂ ∧ (new times).run past₁ = some ch ∧
    ch.step (.ping id_) = some ch' ∧ c ∈ ch'.connections ∧ c.port = port ∧ c.remote_candidate = remote ∧
      ∃ request ∈ c.requests, request.id = id_

/-- An answer to a ping of a connection between the two has come to the port from the candidate. -/
def Answered (times : Nat → UInt32) (past : List Event) (port : PortBase) (remote : Candidate) : Prop :=
  ∃ past₁ addr data past₂ msg, past = past₁ ++ .packet port.key addr data :: past₂ ∧ remote.address.Equal addr ∧
    GetStunMessage port.username_fragment data = .message msg remote.username ∧ msg.type = STUN_BINDING_RESPONSE ∧
      Pinged times past₁ port remote msg.transaction_id

/-- A request with both username fragments has come to one of the ports from the candidate. -/
def Asked (past : List Event) (remote : Candidate) : Prop :=
  ∃ past₁ port addr data past₂ msg, past = past₁ ++ .packet port.key addr data :: past₂ ∧ Event.portReady port ∈ past₁ ∧
    remote.address.Equal addr ∧ GetStunMessage port.username_fragment data = .message msg remote.username ∧
      msg.type = STUN_BINDING_REQUEST

theorem Pinged.event {port : PortBase} {remote : Candidate} {id_ : CString} (h : Pinged times past port remote id_) :
    Event.ping id_ ∈ past := by
  obtain ⟨past₁, past₂, -, -, -, rfl, -⟩ := h
  exact List.mem_append_right _ List.mem_cons_self

theorem Pinged.later {port : PortBase} {remote : Candidate} {id_ : CString} (h : Pinged times past port remote id_) (e : Event) :
    Pinged times (past ++ [e]) port remote id_ := by
  obtain ⟨past₁, past₂, ch, ch', c, rfl, hrequest⟩ := h
  exact ⟨past₁, past₂ ++ [e], ch, ch', c, List.append_assoc _ _ _, hrequest⟩

theorem Answered.later {port : PortBase} {remote : Candidate} (h : Answered times past port remote) (e : Event) :
    Answered times (past ++ [e]) port remote := by
  obtain ⟨past₁, addr, data, past₂, msg, rfl, hanswer⟩ := h
  exact ⟨past₁, addr, data, past₂ ++ [e], msg, List.append_assoc _ _ _, hanswer⟩

theorem Asked.later {remote : Candidate} (h : Asked past remote) (e : Event) : Asked (past ++ [e]) remote := by
  obtain ⟨past₁, port, addr, data, past₂, msg, rfl, hrequest⟩ := h
  exact ⟨past₁, port, addr, data, past₂ ++ [e], msg, List.append_assoc _ _ _, hrequest⟩

theorem Asked.equivalent {remote remote' : Candidate} (h : Asked past remote) (hequivalent : remote.IsEquivalent remote') :
    Asked past remote' := by
  obtain ⟨-, -, haddress, husername, -⟩ := of_decide_eq_true hequivalent
  obtain ⟨past₁, port, addr, data, past₂, msg, hpast, hport, hequal, hmsg, htype⟩ := h
  refine ⟨past₁, port, addr, data, past₂, msg, hpast, hport, ?_, husername ▸ hmsg, htype⟩
  exact SocketAddress.Equal.trans (SocketAddress.Equal.symm haddress) hequal

/-- The states of a connection have their reasons. -/
structure Traced (times : Nat → UInt32) (past : List Event) (c : Connection) : Prop where
  pinged : ∀ request ∈ c.requests, Pinged times past c.port c.remote_candidate request.id
  answered : c.write_state = .writable → Answered times past c.port c.remote_candidate
  asked : c.read_state = .readable → Asked past c.remote_candidate

namespace Traced

variable {c c' : Connection}

theorem fresh (times : Nat → UInt32) (past : List Event) (key : Nat) (port : PortBase) (remote : Candidate) :
    Traced times past (.new key port remote) :=
  ⟨nofun, nofun, nofun⟩

theorem later (h : Traced times past c) (e : Event) : Traced times (past ++ [e]) c :=
  ⟨fun request hrequest => (h.pinged request hrequest).later e, fun hwritable => (h.answered hwritable).later e,
    fun hreadable => (h.asked hreadable).later e⟩

theorem tame (h : Traced times past c) (hport : c'.port = c.port) (hremote : c'.remote_candidate = c.remote_candidate)
    (htame : Tame c c') : Traced times past c' where
  pinged request' hrequest' := by
    obtain ⟨request, hrequest, hid⟩ := htame.requests request' hrequest'
    rw [hport, hremote, ← hid]
    exact h.pinged request hrequest
  answered hwritable := by
    rw [hport, hremote]
    exact h.answered (htame.writable hwritable)
  asked hreadable := by
    rw [hremote]
    exact h.asked (htame.readable hreadable)

theorem receivedPing (h : Traced times past c) (hasked : Asked past c.remote_candidate) (now : UInt32) (q : Queue) :
    Traced times past (c.ReceivedPing now q).1 := by
  unfold Connection.ReceivedPing
  rw [Connection.set_read_state_eq]
  exact ⟨h.pinged, h.answered, fun _ => hasked⟩

theorem ping (h : Traced times past c) {id_ : CString} (hping : Pinged times past c.port c.remote_candidate id_)
    (now : UInt32) (q : Queue) :
    Traced times past (c.Ping id_ now q).1 := by
  refine ⟨fun request hrequest => ?_, h.answered, h.asked⟩
  rcases List.mem_append.mp hrequest with hold | hnew
  · exact h.pinged request hold
  · rw [List.mem_singleton.mp hnew]
    exact hping

theorem checkResponse (h : Traced times past c) {msg : StunMessage}
    (hanswered : msg.type = STUN_BINDING_RESPONSE → (∃ request ∈ c.requests, request.id = msg.transaction_id) →
      Answered times past c.port c.remote_candidate) (now : UInt32) (q : Queue) : Traced times past (c.CheckResponse msg now q).1 := by
  unfold Connection.CheckResponse
  split
  · exact h
  rename_i request hfind
  have hid := List.find?_some hfind
  split_ifs with htype
  · have hanswer := hanswered htype ⟨request, List.mem_of_find?_eq_some hfind, of_decide_eq_true hid⟩
    have hwritable : Traced times past (c.OnConnectionRequestResponse request now q).1 := by
      unfold Connection.OnConnectionRequestResponse
      dsimp only
      rw [Connection.set_write_state_eq]
      exact ⟨h.pinged, fun _ => hanswer, h.asked⟩
    exact hwritable.tame rfl rfl (Connection.tame_Remove _ _)
  · have hevolves := Connection.evolving_OnConnectionRequestErrorResponse msg c q
    have herror := h.tame hevolves.port hevolves.remote_candidate (Connection.taming_OnConnectionRequestErrorResponse msg c q)
    exact herror.tame rfl rfl (Connection.tame_Remove _ _)
  · exact h

end Traced

/-! ### What the connections of a channel have in common -/

def Held (Q : Connection → Prop) (ch : P2PTransportChannel) : Prop := ∀ c ∈ ch.connections, Q c

/-- What a connection keeps unless something comes for it. -/
def Steady (Q : Connection → Prop) : Prop :=
  ∀ c c', Q c → c'.port = c.port → c'.remote_candidate = c.remote_candidate → Tame c c' → Q c'

section
variable {Q : Connection → Prop}

theorem Held.forConnections {f : Connection → Queue → Connection × Queue} (h : ch.Held Q)
    (hf : ∀ c ∈ ch.connections, ∀ q, Q c → Q (f c q).1) : (ch.forConnections f).Held Q := by
  intro c' hc'
  obtain ⟨c, hc, q, rfl⟩ := exists_visiting hc'
  exact hf c hc q (h c hc)

theorem Held.forConnection {key : Nat} {f : Connection → Queue → Connection × Queue} (h : ch.Held Q)
    (hf : ∀ c ∈ ch.connections, c.key = key → ∀ q, Q c → Q (f c q).1) : (ch.forConnection key f).Held Q := by
  refine h.forConnections fun c hc q hQ => ?_
  split
  · rename_i hkey
    exact hf c hc hkey q hQ
  · exact hQ

theorem Held.work (hsteady : Steady Q) {f : Connection → Queue → Connection × Queue} (hf : Evolving f) (htame : Taming f)
    (h : ch.Held Q) : (ch.forConnections f).Held Q :=
  h.forConnections fun c _ q hQ => hsteady c _ hQ (hf c q).port (hf c q).remote_candidate (htame c q)

theorem Held.settle (hsteady : Steady Q) (h : ch.Held Q) : ch.settle.Held Q := by
  have hchosen : ∀ ch : P2PTransportChannel, ch.Held Q → ch.chooseBest.Held Q := by
    intro ch h c hc
    rw [chooseBest_connections] at hc
    exact h c ((sorted_perm _).mem_iff.mp hc)
  have hprune : ∀ (networks : List Nat) (ch : P2PTransportChannel), ch.Held Q → (networks.foldl pruneNetwork ch).Held Q := by
    intro networks
    induction networks with
    | nil => exact fun ch h => h
    | cons network networks ih =>
      intro ch h
      refine ih _ ?_
      unfold pruneNetwork
      split
      · exact h
      split
      · exact h
      · exact h.work hsteady Connection.evolving_Prune.ite Connection.taming_Prune.ite
  intro c hc
  rw [settle_connections] at hc
  have hclean : { ch with queue := { ch.queue with sort_dirty := false } }.Held Q := h
  exact hprune _ _ (hchosen _ hclean) c hc

theorem Held.act (hsteady : Steady Q) (hfresh : ∀ key port remote, Q (.new key port remote)) (h : ch.Held Q)
    (hact : Act scope ch ch') (htouches : scope.touches = false) : ch'.Held Q := by
  cases hact with
  | idle hidle =>
    rw [hidle]
    exact h
  | work _ hf htame => exact h.work hsteady hf (htame htouches)
  | settle => exact h.settle hsteady
  | sort =>
    have hpopped : { ch with queue := { ch.queue with sorts := ch.queue.sorts - 1 } }.tick.Held Q := h
    exact (hpopped.work hsteady (Connection.evolving_UpdateState _) (Connection.taming_UpdateState _)).settle hsteady
  | create =>
    unfold PortCreateConnection
    split
    · exact h
    · intro c hc
      rcases List.mem_append.mp hc with hc | hc
      · exact h c hc
      · rw [List.mem_singleton.mp hc]
        exact hfresh _ _ _
  | remember =>
    unfold RememberRemoteCandidate
    dsimp only
    split_ifs <;> exact h
  | addPort => exact h
  | startPort => exact h
  | portTimeout =>
    unfold OnPortTimeout CheckPortTimeout
    split <;> exact h
  | @delete _ c =>
    have hunlink : (Books.unlink ch c).Held Q := fun x hx => h x (Books.mem_unlink_connections.mp hx).1
    rw [Books.onDelete_eq]
    unfold CheckPortTimeout
    split <;> exact hunlink
  | signalingReady =>
    unfold OnSignalingReady
    split <;> exact h
  | allocate => exact h
  | poll =>
    intro c' hc'
    obtain ⟨c, hc, rfl⟩ := Books.mem_pollSocket.mp hc'
    exact hsteady c _ (h c hc) rfl rfl ⟨id, id, (Tame.refl c).requests⟩

theorem Held.acts (hsteady : Steady Q) (hfresh : ∀ key port remote, Q (.new key port remote)) (h : ch.Held Q)
    (hacts : Acts scope ch ch') (htouches : scope.touches = false) : ch'.Held Q :=
  hacts.keeps (fun _ _ hi hact => hi.act hsteady hfresh hact htouches) h

/-- The candidate has a connection at the port in the end, which may be found to be readable. -/
theorem Held.createConnection {remote : Candidate} {readable : Bool} (hbooks : ch.Books) (h : ch.Held Q) {port : Nat}
    (hfresh : remote.protocol = cstr "udp" → ∀ key (base : PortBase), base.key = port → Q (.new key base remote))
    (hping : readable → ∀ c now q, Q c → remote.IsEquivalent c.remote_candidate → Q (c.ReceivedPing now q).1)
    (origin_port : Option Nat) : (ch.CreateConnection port remote origin_port readable).2.Held Q := by
  unfold P2PTransportChannel.CreateConnection
  rcases hport : ch.port port with _ | p
  · exact h
  dsimp only
  rcases hfound : (p.GetConnection remote.address).bind ch.connection with _ | connection
  · dsimp only
    split
    · exact h
    by_cases hprotocol : remote.protocol ≠ cstr "udp"
    · unfold PortCreateConnection
      rw [if_pos hprotocol]
      exact h
    · unfold PortCreateConnection
      rw [if_neg hprotocol]
      dsimp only
      have hnew : ∀ c ∈ ch.connections ++ [.new ch.constructed.length p.toPortBase remote], Q c := by
        intro c hc
        rcases List.mem_append.mp hc with hc | hc
        · exact h c hc
        · rw [List.mem_singleton.mp hc]
          exact hfresh (not_not.mp hprotocol) _ _ (port_key hport)
      split
      · rename_i hreadable
        unfold ReceivedPing
        refine Held.forConnection hnew fun c hc hkey q hQ => hping hreadable c _ q hQ ?_
        rcases List.mem_append.mp hc with hc | hc
        · exact absurd hkey (Nat.ne_of_lt (hbooks.keys_lt c hc))
        · rw [List.mem_singleton.mp hc]
          exact decide_eq_true ⟨rfl, rfl, SocketAddress.Equal.refl _, rfl, rfl, rfl, rfl⟩
      · exact hnew
  · dsimp only
    split
    · exact h
    rename_i hequivalent
    dsimp only
    split
    · rename_i hreadable
      unfold ReceivedPing
      have hticked : ch.tick.Held Q := h
      refine hticked.forConnection fun c hc hkey q hQ => hping hreadable c _ q hQ ?_
      obtain ⟨key, -, hconnection⟩ := Option.bind_eq_some_iff.mp hfound
      rw [hbooks.connection_eq hc (connection_mem hconnection) hkey]
      exact not_not.mp hequivalent
    · exact h

theorem Held.createLoop {remote : Candidate} {readable : Bool} (origin_port : Option Nat)
    (hfresh : ∀ key port, Q (.new key port remote))
    (hping : readable → ∀ c now q, Q c → remote.IsEquivalent c.remote_candidate → Q (c.ReceivedPing now q).1)
    (keys : List Nat) {s : Bool × P2PTransportChannel} (hbooks : s.2.Books) (h : s.2.Held Q) :
    (keys.foldl (createOn remote origin_port readable) s).2.Books ∧
      (keys.foldl (createOn remote origin_port readable) s).2.Held Q := by
  induction keys generalizing s with
  | nil => exact ⟨hbooks, h⟩
  | cons key keys ih =>
    have hacts : Acts .inside s.2 (createOn remote origin_port readable s key).2 :=
      Acts.createOn remote origin_port readable (fun _ => rfl) s key
    exact ih (hacts.keeps (fun _ _ hi hact => hi.act hact) hbooks) (h.createConnection hbooks (fun _ key base _ => hfresh key base) hping origin_port)

theorem Held.createConnections (hbooks : ch.Books) (h : ch.Held Q) (remote : Candidate) (readable : Bool)
    (hfresh : ∀ key port, Q (.new key port remote))
    (hping : readable → ∀ c now q, Q c → remote.IsEquivalent c.remote_candidate → Q (c.ReceivedPing now q).1)
    (origin_port : Option Nat) : (ch.CreateConnections remote origin_port readable).2.Held Q := by
  obtain ⟨hlooped, hheld⟩ := Held.createLoop origin_port hfresh hping ch.ports.reverse (s := (false, ch)) hbooks h
  have hremember : ∀ ch : P2PTransportChannel, ch.Held Q → (ch.RememberRemoteCandidate remote origin_port).Held Q := by
    intro ch h
    unfold RememberRemoteCandidate
    dsimp only
    split_ifs <;> exact h
  unfold P2PTransportChannel.CreateConnections
  rcases origin_port with _ | port
  · exact hremember _ hheld
  · dsimp only
    split
    · exact hremember _ hheld
    · exact hremember _ (hheld.createConnection hlooped (fun _ key base _ => hfresh key base) hping (some port))

end

/-! ### Packets and pings -/

/-- Each of the ports has been made ready. -/
def Ready (past : List Event) (ch : P2PTransportChannel) : Prop :=
  ∀ p ∈ ch.allocated, ∃ port, Event.portReady port ∈ past ∧ port.toPortBase = p.toPortBase

theorem steady_traced (times : Nat → UInt32) (past : List Event) : Steady (Traced times past) := fun _ _ h => h.tame

theorem held_sendBindingResponse (hbooks : ch.Books) (h : ch.Held (Traced times past)) {port : Nat} {addr : SocketAddress}
    (hasked : ∀ c ∈ ch.connections, c.port.key = port → c.remote_candidate.address.Equal addr → Asked past c.remote_candidate)
    (request : StunMessage) : (ch.SendBindingResponse port request addr).Held (Traced times past) := by
  unfold SendBindingResponse
  split
  · exact h
  rename_i response _
  dsimp only
  split
  · exact h
  · rename_i key hkey
    obtain ⟨p, hp, hget⟩ := Option.bind_eq_some_iff.mp hkey
    have hsent : (ch.SendTo port addr response.Write).tick.Held (Traced times past) := h
    unfold ReceivedPing
    refine hsent.forConnection fun c hc hckey q htraced => htraced.receivedPing ?_ _ q
    obtain ⟨x, hx, hxkey, hbase, hequal⟩ := (hbooks.getConnection_eq_some (port_mem hp) addr key).mp hget
    obtain rfl := hbooks.connection_eq hc hx (hckey.trans hxkey.symm)
    refine hasked c hc ?_ hequal
    rw [hbase]
    exact port_key hp

theorem held_onUnknownAddress (hbooks : ch.Books) (h : ch.Held (Traced times past)) {p : Port} (hp : p ∈ ch.allocated)
    {address : SocketAddress} (hnone : (p.GetConnection address).bind ch.connection = none) {stun_msg : StunMessage}
    {remote_username : CString}
    (hasked : ∀ remote : Candidate, remote.address = address → remote.username = remote_username → Asked past remote) :
    (ch.OnUnknownAddress p.key address stun_msg remote_username).Held (Traced times past) := by
  have hsend : ∀ (ch : P2PTransportChannel) port addr msg, ch.Held (Traced times past) → (ch.SendMessage port addr msg).Held (Traced times past) := by
    intro ch port addr msg h
    unfold SendMessage
    split <;> exact h
  unfold OnUnknownAddress
  split
  · exact hsend _ _ _ _ h
  rename_i candidate hfind
  have husername := List.find?_some hfind
  have hremote : Asked past { candidate.candidate with address } := hasked _ rfl (of_decide_eq_true husername)
  -- the port has no other connection that the address fits
  have hother : ch.Held fun c => Traced times past c ∧
      (c.port.key = p.key → c.remote_candidate.address.Equal address → Asked past c.remote_candidate) := by
    refine fun c hc => ⟨h c hc, fun hkey hequal => ?_⟩
    obtain ⟨p', hp', hbase, hentry⟩ := hbooks.known c hc
    obtain rfl : p' = p := hbooks.port_eq hp' hp (by rw [hbase, hkey])
    exact absurd hequal (hbooks.not_equal_of_none hp hnone _ hentry)
  have hcreated := hother.createConnections hbooks { candidate.candidate with address } true
    (fun key port => ⟨.fresh times past key port _, fun _ _ => hremote⟩)
    (fun _ c now q hQ hequivalent => ?_) (some p.key)
  swap
  · have hbecame := Connection.evolving_ReceivedPing now c q
    refine ⟨hQ.1.receivedPing (hremote.equivalent hequivalent) now q, ?_⟩
    rw [hbecame.port, hbecame.remote_candidate]
    exact hQ.2
  have hacts : Acts { Scope.none with opens := true, touches := true } ch _ :=
    Acts.CreateConnections rfl ch { candidate.candidate with address } (some p.key) true fun _ => rfl
  have hbooks' := hacts.keeps (fun _ _ hi hact => hi.act hact) hbooks
  split
  · rename_i ch₁ heq
    rw [heq] at hcreated hbooks'
    have hresponded := held_sendBindingResponse hbooks' (fun c hc => (hcreated c hc).1) (fun c hc => (hcreated c hc).2) stun_msg
    have hsort : ∀ ch : P2PTransportChannel, Acts Scope.none ch ch.SortConnections := Acts.SortConnections
    exact hresponded.acts (steady_traced times past) (.fresh times past) (hsort _) rfl
  · rename_i ch₁ heq
    rw [heq] at hcreated
    exact hsend _ _ _ _ fun c hc => (hcreated c hc).1

theorem held_onConnectionReadPacket (hbooks : ch.Books) (h : ch.Held (Traced times past)) {c : Connection} (hc : c ∈ ch.connections)
    {data : List UInt8}
    (hasked : ∀ msg, GetStunMessage c.port.username_fragment data = .message msg c.remote_candidate.username →
      msg.type = STUN_BINDING_REQUEST → Asked past c.remote_candidate)
    (hanswered : ∀ msg, GetStunMessage c.port.username_fragment data = .message msg c.remote_candidate.username →
      msg.type = STUN_BINDING_RESPONSE → (∃ request ∈ c.requests, request.id = msg.transaction_id) →
        Answered times past c.port c.remote_candidate) :
    (ch.OnConnectionReadPacket c data).Held (Traced times past) := by
  have hsend : ∀ port addr msg, (ch.SendMessage port addr msg).Held (Traced times past) := by
    intro port addr msg
    unfold SendMessage
    split <;> exact h
  have hagain : ∀ ch : P2PTransportChannel, ch.Held (Traced times past) → (ch.forConnection c.key Connection.startAgain).Held (Traced times past) :=
    fun ch h => h.work (steady_traced times past) Connection.evolving_startAgain.ite Connection.taming_startAgain.ite
  unfold OnConnectionReadPacket
  dsimp only
  split
  · split
    · refine hagain _ ?_
      have hreceived : (ch.tick.forConnection c.key fun c q => ({ c with last_data_received := ch.Time }, q)).Held (Traced times past) := by
        have hticked : ch.tick.Held (Traced times past) := h
        exact hticked.forConnection fun x _ _ _ htraced => htraced.tame rfl rfl ⟨id, id, (Tame.refl x).requests⟩
      exact hreceived
    · exact h
  · exact hsend _ _ _
  rename_i msg remote_username hmsg
  split_ifs with hother hrequest hrequest
  · exact hsend _ _ _
  · exact h
  · rw [not_not.mp hother] at hmsg
    refine hagain _ (held_sendBindingResponse hbooks h (fun x hx hkey hequal => ?_) msg)
    -- the response goes to the connection that the request has come to
    obtain ⟨p, hp, hbase, -⟩ := hbooks.known c hc
    obtain ⟨p', hp', hbase', -⟩ := hbooks.known x hx
    obtain rfl : p' = p := hbooks.port_eq hp' hp (by rw [hbase', hbase, hkey])
    have hget := (hbooks.getConnection_eq_some hp c.remote_candidate.address c.key).mpr
      ⟨c, hc, rfl, hbase.symm, SocketAddress.Equal.refl _⟩
    have hgetx := (hbooks.getConnection_eq_some hp c.remote_candidate.address x.key).mpr ⟨x, hx, rfl, hbase'.symm, hequal⟩
    obtain rfl := hbooks.connection_eq hx hc (Option.some.inj (hgetx.symm.trans hget))
    exact hasked msg hmsg hrequest
  · rw [not_not.mp hother] at hmsg
    have hticked : ch.tick.Held (Traced times past) := h
    refine hticked.forConnection fun x hx hkey q htraced => htraced.checkResponse (fun htype hid => ?_) _ q
    obtain rfl := hbooks.connection_eq hx hc hkey
    exact hanswered msg hmsg htype hid

theorem held_onReadPacket (hbooks : ch.Books) (hready : ch.Ready past) (h : ch.Held (Traced times past)) {port : Port}
    (hport : port ∈ ch.allocated) (remote_addr : SocketAddress) (data : List UInt8) :
    (ch.OnReadPacket port remote_addr data).Held (Traced times (past ++ [.packet port.key remote_addr data])) := by
  have hlater : ch.Held (Traced times (past ++ [.packet port.key remote_addr data])) := fun c hc => (h c hc).later _
  -- what the packet says has now come in
  have hasked : ∀ (remote : Candidate) msg, remote.address.Equal remote_addr →
      GetStunMessage port.username_fragment data = .message msg remote.username → msg.type = STUN_BINDING_REQUEST →
        Asked (past ++ [.packet port.key remote_addr data]) remote := by
    intro remote msg hequal hmsg htype
    obtain ⟨ready, hmem, hbase⟩ := hready port hport
    rw [← hbase] at hmsg ⊢
    exact ⟨past, ready, remote_addr, data, [], msg, rfl, hmem, hequal, hmsg, htype⟩
  unfold OnReadPacket
  split
  · exact hlater
  split
  · rename_i c hfound
    obtain ⟨key, hget, hconnection⟩ := Option.bind_eq_some_iff.mp hfound
    have hc := connection_mem hconnection
    obtain ⟨x, hx, hxkey, hbase, hequal⟩ := (hbooks.getConnection_eq_some hport remote_addr key).mp hget
    obtain rfl := hbooks.connection_eq hx hc (hxkey.trans (connection_key hconnection).symm)
    refine held_onConnectionReadPacket hbooks hlater hc (fun msg hmsg htype => ?_) fun msg hmsg htype hid => ?_
    · rw [hbase] at hmsg
      exact hasked _ msg hequal hmsg htype
    · obtain ⟨request, hrequest, hid⟩ := hid
      have hping := (h x hx).pinged request hrequest
      rw [hid, hbase] at hping
      rw [hbase] at hmsg ⊢
      exact ⟨past, remote_addr, data, [], msg, rfl, hequal, hmsg, htype, hping⟩
  · rename_i hnone
    unfold OnPortReadPacket
    split
    · exact hlater
    · unfold SendMessage
      split <;> exact hlater
    · rename_i msg remote_username hmsg
      split
      · rename_i hrequest
        refine held_onUnknownAddress hbooks hlater hport hnone fun remote haddress husername => ?_
        refine hasked remote msg ?_ (husername ▸ hmsg) hrequest
        rw [haddress]
        exact SocketAddress.Equal.refl _
      · exact hlater

theorem held_onPing {id_ : CString} (hrun : (new times).run past = some ch) (h : ch.Held (Traced times past))
    (hstep : ch.step (.ping id_) = some ch') : ch'.Held (Traced times (past ++ [.ping id_])) := by
  have hlater : ch.Held (Traced times (past ++ [.ping id_])) := fun c hc => (h c hc).later _
  have hupdate : Acts Scope.none ch ch.UpdateConnectionStates := Acts.UpdateConnectionStates ch
  have hupdated := hlater.acts (steady_traced times _) (.fresh times _) hupdate rfl
  intro c' hc'
  have heq := hstep
  obtain ⟨-, heq⟩ := Option.ite_none_right_eq_some.mp heq
  have hconnections : c' ∈ (ch.OnPing id_).connections := by
    rw [← Option.some.inj heq] at hc'
    exact hc'
  unfold OnPing at hconnections
  dsimp only at hconnections
  split at hconnections
  · exact hupdated c' hconnections
  · rename_i conn _
    obtain ⟨c, hc, q, rfl⟩ := exists_visiting hconnections
    by_cases hkey : c.key = conn.key
    · -- the connection that the ping is made for
      rw [if_pos hkey] at hc' ⊢
      have hmade : Pinged times (past ++ [.ping id_]) c.port c.remote_candidate id_ :=
        ⟨past, [], ch, ch', _, rfl, hrun, hstep, hc', rfl, rfl, _, List.mem_append_right _ List.mem_cons_self, rfl⟩
      exact (hupdated c hc).ping hmade _ q
    · rw [if_neg hkey]
      exact hupdated c hc

theorem traced_step {e : Event} (hrun : (new times).run past = some ch) (hbooks : ch.Books) (hready : ch.Ready past) (h : ch.Held (Traced times past))
    (hstep : ch.step e = some ch') : ch'.Held (Traced times (past ++ [e])) := by
  have hlater : ch.Held (Traced times (past ++ [e])) := fun c hc => (h c hc).later e
  cases e with
  | packet key remote_addr data =>
    obtain ⟨port, hport, rfl⟩ := Option.map_eq_some_iff.mp hstep
    obtain rfl := port_key hport
    exact held_onReadPacket hbooks hready h (port_mem hport) remote_addr data
  | ping id_ => exact held_onPing hrun h hstep
  | connect | signalingReady | portReady | startPort | candidate | sendPacket | sort | allocate | stunSend | delete |
      portTimeout | poll =>
    rcases acts_of_step hstep with hacts | ⟨-, rfl⟩
    · exact hlater.acts (steady_traced times _) (.fresh times _) hacts rfl
    · exact hlater

/-! ### Runs -/

theorem Ready.act (h : ch.Ready past) (hact : Act scope ch ch')
    (hready : ∀ port, scope.ready = some port → Event.portReady port ∈ past) : ch'.Ready past := by
  have hmodify : ∀ (ch : P2PTransportChannel) key (f : Port → Port), ch.Ready past → (∀ p, (f p).toPortBase = p.toPortBase) →
      (ch.modifyPort key f).Ready past := by
    intro ch key f h hf p' hp'
    obtain ⟨p, hp, rfl⟩ := Books.mem_modifyPort.mp hp'
    rw [Books.modified_base hf]
    exact h p hp
  have hcheck : ∀ (ch : P2PTransportChannel) key, ch.Ready past → (ch.CheckPortTimeout key).Ready past := by
    intro ch key h
    unfold CheckPortTimeout
    split
    · exact fun p hp => h p (List.mem_filter.mp hp).1
    · exact h
  have hsame : ∀ ch₁ ch₂ : P2PTransportChannel, ch₁.Ready past → SameBooks ch₁ ch₂ → ch₂.Ready past := by
    intro ch₁ ch₂ h hbooks
    unfold Ready
    rw [hbooks.allocated]
    exact h
  cases hact with
  | idle hidle =>
    rw [hidle]
    exact h
  | work => exact h
  | settle => exact hsame _ _ h (books_settle ch)
  | sort =>
    have hupdated : { ch with queue := { ch.queue with sorts := ch.queue.sorts - 1 } }.UpdateConnectionStates.Ready past := h
    rw [sortConnections_eq]
    exact hsame _ _ hupdated (books_settle _)
  | @create _ port remote_candidate =>
    unfold PortCreateConnection
    split
    · exact h
    · have hlinked := hmodify ch port.key
        (fun p => { p with connections := p.connections ++ [(remote_candidate.address, ch.constructed.length)] }) h fun _ => rfl
      exact hlinked
  | remember =>
    unfold RememberRemoteCandidate
    dsimp only
    split_ifs <;> exact h
  | addPort _ hnew =>
    intro p hp
    rcases List.mem_append.mp hp with hp | hp
    · exact h p hp
    · exact ⟨_, hready _ hnew, by rw [List.mem_singleton.mp hp]⟩
  | startPort _ key =>
    refine hmodify ch key _ h fun p => ?_
    split <;> rfl
  | portTimeout _ key => exact hcheck _ key (hmodify ch key _ h fun _ => rfl)
  | @delete _ c =>
    rw [Books.onDelete_eq]
    refine hcheck _ _ ?_
    unfold Ready
    rw [Books.unlink_allocated]
    exact hmodify ch c.port.key _ h fun _ => rfl
  | signalingReady =>
    unfold OnSignalingReady
    split <;> exact h
  | allocate => exact h
  | poll => exact h

theorem ready_step {e : Event} (h : ch.Ready past) (hstep : ch.step e = some ch') : ch'.Ready (past ++ [e]) := by
  have hlater : ch.Ready (past ++ [e]) := by
    intro p hp
    obtain ⟨port, hport, hbase⟩ := h p hp
    exact ⟨port, List.mem_append_left _ hport, hbase⟩
  rcases acts_of_step hstep with hacts | ⟨-, rfl⟩
  · refine hacts.keeps (fun _ _ hi hact => hi.act hact fun port hready => ?_) hlater
    refine List.mem_append_right _ (List.mem_singleton.mpr ?_)
    cases e <;> first | exact congrArg Event.portReady (Option.some.inj hready).symm | cases hready
  · exact hlater

/-- The packet has come to the port of a connection from its remote candidate, which had asked before. -/
def Delivered (times : Nat → UInt32) (past : List Event) (data : List UInt8) : Prop :=
  ∃ past₁ key addr past₂ ch c, past = past₁ ++ .packet key addr data :: past₂ ∧ (new times).run past₁ = some ch ∧
    c ∈ ch.connections ∧ c.port.key = key ∧ c.remote_candidate.address.Equal addr ∧ c.read_state = .readable ∧
      Asked past₁ c.remote_candidate

theorem received_onReadPacket (hbooks : ch.Books) (h : ch.Held (Traced times past)) {port : Port} (hport : port ∈ ch.allocated)
    (remote_addr : SocketAddress) (data : List UInt8) :
    (ch.OnReadPacket port remote_addr data).received = ch.received ∨
      ((ch.OnReadPacket port remote_addr data).received = ch.received ++ [data] ∧
        ∃ c ∈ ch.connections, c.port.key = port.key ∧ c.remote_candidate.address.Equal remote_addr ∧
          c.read_state = .readable ∧ Asked past c.remote_candidate) := by
  have hsend : ∀ (ch : P2PTransportChannel) port addr msg, (ch.SendMessage port addr msg).received = ch.received := by
    intro ch port addr msg
    unfold SendMessage
    split <;> rfl
  unfold OnReadPacket
  split
  · exact Or.inl rfl
  split
  · rename_i c hfound
    obtain ⟨key, hget, hconnection⟩ := Option.bind_eq_some_iff.mp hfound
    obtain ⟨x, hx, hxkey, hbase, hequal⟩ := (hbooks.getConnection_eq_some hport remote_addr key).mp hget
    obtain rfl := hbooks.connection_eq hx (connection_mem hconnection) (hxkey.trans (connection_key hconnection).symm)
    unfold OnConnectionReadPacket
    dsimp only
    split
    · split
      · rename_i hreadable
        exact Or.inr ⟨rfl, x, hx, congrArg PortBase.key hbase, hequal, hreadable, (h x hx).asked hreadable⟩
      · exact Or.inl rfl
    · exact Or.inl (hsend _ _ _ _)
    · split_ifs
      · exact Or.inl (hsend _ _ _ _)
      · exact Or.inl rfl
      · have hresponse : ∀ msg, Acts { Scope.none with touches := true } ch
            (ch.SendBindingResponse x.port.key msg x.remote_candidate.address) := fun msg =>
          Acts.SendBindingResponse rfl ch x.port.key msg x.remote_candidate.address
        exact Or.inl ((hresponse _).unplanned.received rfl)
      · exact Or.inl rfl
  · unfold OnPortReadPacket
    split
    · exact Or.inl rfl
    · exact Or.inl (hsend _ _ _ _)
    · split
      · have hunknown : ∀ msg username, Acts { Scope.none with opens := true, touches := true } ch
            (ch.OnUnknownAddress port.key remote_addr msg username) := fun msg username =>
          Acts.OnUnknownAddress rfl rfl ch port.key remote_addr msg username
        exact Or.inl ((hunknown _ _).unplanned.received rfl)
      · exact Or.inl rfl

theorem delivered_step {e : Event} (hrun : (new times).run past = some ch) (hbooks : ch.Books)
    (htraced : ch.Held (Traced times past)) (h : ∀ data ∈ ch.received, Delivered times past data)
    (hstep : ch.step e = some ch') : ∀ data ∈ ch'.received, Delivered times (past ++ [e]) data := by
  have hlater : ∀ data ∈ ch.received, Delivered times (past ++ [e]) data := by
    intro data hdata
    obtain ⟨past₁, key, addr, past₂, ch₁, c, rfl, hconnection⟩ := h data hdata
    exact ⟨past₁, key, addr, past₂ ++ [e], ch₁, c, List.append_assoc _ _ _, hconnection⟩
  cases e with
  | packet key remote_addr data =>
    obtain ⟨port, hport, rfl⟩ := Option.map_eq_some_iff.mp hstep
    obtain rfl := port_key hport
    rcases received_onReadPacket hbooks htraced (port_mem hport) remote_addr data with hsame | ⟨hnew, c, hc, hconnection⟩
    · rwa [hsame]
    · rw [hnew]
      intro data' hdata'
      rcases List.mem_append.mp hdata' with hold | hlast
      · exact hlater data' hold
      · rw [List.mem_singleton.mp hlast]
        exact ⟨past, port.key, remote_addr, [], ch, c, rfl, hrun, hc, hconnection⟩
  | connect | signalingReady | portReady | startPort | candidate | sendPacket | sort | ping | allocate | stunSend | delete |
      portTimeout | poll =>
    rcases acts_of_step hstep with hacts | ⟨-, rfl⟩
    · rwa [hacts.unplanned.received rfl]
    · exact hlater

/-- All of it, along a run. -/
structure Authentic (times : Nat → UInt32) (past : List Event) (ch : P2PTransportChannel) : Prop where
  run : (new times).run past = some ch
  books : ch.Books
  ready : ch.Ready past
  traced : ch.Held (Traced times past)
  delivered : ∀ data ∈ ch.received, Delivered times past data

theorem authentic_of_run {es : List Event} (h : (new times).run es = some ch) : Authentic times es ch := by
  have hstep : ∀ (past : List Event) (s t : P2PTransportChannel) (e : Event), e ∈ es → Authentic times past s →
      s.step e = some t → Authentic times (past ++ [e]) t := by
    intro past s t e _ hi hstep
    have hrun : (new times).run (past ++ [e]) = some t := by
      refine (Machine.run_append _ past [e]).trans ?_
      have hpast : Machine.run step (new times) past = some s := hi.run
      rw [hpast]
      exact Machine.run_cons_eq_some.mpr ⟨t, hstep, rfl⟩
    have hacts : t.Books := by
      rcases acts_of_step hstep with hacts | ⟨-, rfl⟩
      · exact hacts.keeps (fun _ _ hi hact => hi.act hact) hi.books
      · exact hi.books.congr rfl rfl (List.Subset.refl _) rfl rfl rfl rfl
    exact ⟨hrun, hacts, ready_step hi.ready hstep, traced_step hi.run hi.books hi.ready hi.traced hstep,
      delivered_step hi.run hi.books hi.traced hi.delivered hstep⟩
  have hnew : Authentic times [] (new times) :=
    ⟨rfl, books_new times, fun _ hp => absurd hp List.not_mem_nil, fun _ hc => absurd hc List.not_mem_nil,
      fun _ hdata => absurd hdata List.not_mem_nil⟩
  exact Machine.run_keeps_past hstep [] hnew h

end

/-! ### What comes before a state -/

section
attribute [local instance] Arithmetic.plain

/-- A connection that is writable after a run has been answered: the candidate knows the id that the channel has made up
    for a ping of a connection between the two, and the username fragments of both sides. -/
theorem answered_of_run [Arithmetic] {ch : P2PTransportChannel} {times : Nat → UInt32} {es : List Event}
    (h : (new times).run es = some ch) {c : Connection} (hc : c ∈ ch.connections) (hwritable : c.write_state = .writable) :
    Answered times es c.port c.remote_candidate :=
  ((authentic_of_run h).traced c hc).answered hwritable

theorem answered_of_run_leftTalked :
    leftTalked.connections[0].write_state = .writable ∧
      Answered (fun _ => 0) leftTalking leftTalked.connections[0].port leftTalked.connections[0].remote_candidate := by
  have hwritable : leftTalked.connections[0].write_state = .writable := by decide
  exact ⟨hwritable, answered_of_run run_leftTalking (List.getElem_mem _) hwritable⟩

/-- A connection that is readable after a run has been asked, though perhaps at another port. -/
theorem asked_of_run [Arithmetic] {ch : P2PTransportChannel} {times : Nat → UInt32} {es : List Event}
    (h : (new times).run es = some ch) {c : Connection} (hc : c ∈ ch.connections) (hreadable : c.read_state = .readable) :
    Asked es c.remote_candidate :=
  ((authentic_of_run h).traced c hc).asked hreadable

theorem asked_of_run_leftTalked :
    leftTalked.connections[0].read_state = .readable ∧ Asked leftTalking leftTalked.connections[0].remote_candidate := by
  have hreadable : leftTalked.connections[0].read_state = .readable := by decide
  exact ⟨hreadable, asked_of_run run_leftTalking (List.getElem_mem _) hreadable⟩

/-- Nothing is passed on that has not come over a connection whose remote candidate had sent a request with both username
    fragments before. -/
theorem delivered_of_run [Arithmetic] {ch : P2PTransportChannel} {times : Nat → UInt32} {es : List Event}
    (h : (new times).run es = some ch) {data : List UInt8} (hdata : data ∈ ch.received) : Delivered times es data :=
  (authentic_of_run h).delivered data hdata

theorem delivered_of_run_leftTalked : [0x55] ∈ leftTalked.received ∧ Delivered (fun _ => 0) leftTalking [0x55] := by
  have hreceived : [0x55] ∈ leftTalked.received := by decide
  exact ⟨hreceived, delivered_of_run run_leftTalking hreceived⟩

/-- After a run, data is sent nowhere but to a candidate that has answered a ping, from the port that it has answered. -/
theorem sendPacket_of_run [Arithmetic] {ch : P2PTransportChannel} {times : Nat → UInt32} {es : List Event}
    (h : (new times).run es = some ch) (data : List UInt8) :
    ch.SendPacket data = ch ∨
      ∃ c ∈ ch.connections, ch.best_connection = some c.key ∧ Answered times es c.port c.remote_candidate ∧
        ch.SendPacket data = ch.SendTo c.port.key c.remote_candidate.address data := by
  unfold SendPacket
  rcases hbest : ch.best with _ | c
  · exact Or.inl rfl
  dsimp only
  split
  · exact Or.inl rfl
  · rename_i hwritable
    obtain ⟨hc, hkey⟩ := best_key hbest
    exact Or.inr ⟨c, hc, hkey, ((authentic_of_run h).traced c hc).answered (not_not.mp hwritable), rfl⟩

theorem sendPacket_of_run_leftTalked :
    ∃ c ∈ leftTalked.connections, leftTalked.best_connection = some c.key ∧
      Answered (fun _ => 0) leftTalking c.port c.remote_candidate ∧
        leftTalked.SendPacket [0xAA] = leftTalked.SendTo c.port.key c.remote_candidate.address [0xAA] := by
  refine (sendPacket_of_run run_leftTalking [0xAA]).resolve_left fun hsame => ?_
  have hlength := congrArg (fun ch : P2PTransportChannel => ch.sent.length) hsame
  exact absurd hlength (by decide)

end

end ProbICE.Ice.P2PTransportChannel
