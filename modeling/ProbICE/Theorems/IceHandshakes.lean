import ProbICE.Theorems.IceStrangers
import ProbICE.Theorems.StunMessages

/-! # A ping and its answer

What one side writes is what the other side reads: the ping of a connection makes the connection at the other end
readable, and the answer that comes back makes the first one writable. -/

namespace ProbICE.Ice
open Stun

/-! ### Attributes and messages -/

theorem fits_ofBytes {transaction_id : CString} {bytes : List UInt8} (h : bytes.length < 2 ^ 16) :
    (StunAttribute.ofBytes STUN_ATTR_USERNAME bytes).Fits transaction_id := by
  have hlength : (UInt16.ofNat bytes.length).toNat = bytes.length := UInt16.toNat_ofNat_of_lt h
  refine ⟨rfl, ?_⟩
  change (UInt16.ofNat bytes.length).toNat = (bytes.take (UInt16.ofNat bytes.length).toNat).length
  rw [hlength, List.take_length]

theorem fits_ofAddress {transaction_id : CString} {ip : IPAddress} (h : ip ≠ .unspec) (port : UInt16) :
    (StunAttribute.ofAddress STUN_ATTR_MAPPED_ADDRESS ip port).Fits transaction_id := by
  refine ⟨?_, rfl⟩
  cases ip with
  | unspec => exact absurd rfl h
  | v4 => rfl
  | v6 => rfl

/-- A message with a username. -/
def named (type : UInt16) (id_ : CString) (username : List UInt8) : StunMessage :=
  (StunMessage.new type id_).AddAttribute (.ofBytes STUN_ATTR_USERNAME username)

theorem username_named (type : UInt16) (id_ : CString) {username : List UInt8} (h : username.length < 2 ^ 16) :
    (named type id_ username).GetUsername = some username := by
  have hlength : (UInt16.ofNat username.length).toNat = username.length := UInt16.toNat_ofNat_of_lt h
  change some (username.take (UInt16.ofNat username.length).toNat) = some username
  rw [hlength, List.take_length]

theorem length_named (type : UInt16) (id_ : CString) {username : List UInt8} (h : username.length = 32) :
    (named type id_ username).length = 36 := by
  change (0 : UInt16) + UInt16.ofNat (StunMessage.attributeSize (UInt16.ofNat username.length)) = 36
  rw [h]
  rfl

theorem wellFormed_named {type : UInt16} (htype : type &&& 0x8000 = 0) {id_ : CString}
    (hid : id_.length = kStunTransactionIdLength) {username : List UInt8} (h : username.length = 32) :
    (named type id_ username).WellFormed := by
  refine (StunMessage.wellFormed_new htype (Or.inl hid)).AddAttribute (fits_ofBytes (by rw [h]; norm_num)) ?_
  change 0 + StunMessage.attributeSize (UInt16.ofNat username.length) < 2 ^ 16
  rw [h]
  decide

/-- The answer to a request that has a username. -/
def answer (id_ : CString) (username : List UInt8) (addr : SocketAddress) : StunMessage :=
  (named STUN_BINDING_RESPONSE id_ username).AddAttribute (.ofAddress STUN_ATTR_MAPPED_ADDRESS addr.ip addr.port)

theorem bindingResponse_named (type : UInt16) (id_ : CString) {username : List UInt8} (h : username.length < 2 ^ 16)
    (addr : SocketAddress) : bindingResponse (named type id_ username) addr = some (answer id_ username addr) := by
  unfold bindingResponse
  rw [username_named type id_ h]
  rfl

theorem wellFormed_answer {id_ : CString} (hid : id_.length = kStunTransactionIdLength) {username : List UInt8}
    (h : username.length = 32) {addr : SocketAddress} (hip : addr.ip ≠ .unspec) : (answer id_ username addr).WellFormed := by
  refine (wellFormed_named rfl hid h).AddAttribute (fits_ofAddress hip addr.port) ?_
  rw [length_named _ _ h]
  have haddress : StunMessage.attributeSize (addressLength addr.ip) ≤ 24 := by
    cases addr.ip <;> simp [StunMessage.attributeSize, addressLength]
  change (36 : UInt16).toNat + StunMessage.attributeSize (addressLength addr.ip) < 2 ^ 16
  have hthirtysix : (36 : UInt16).toNat = 36 := rfl
  omega

/-- The addressee of a ping knows it by its own fragment, and learns that of the sender. -/
theorem getStunMessage_ping {id_ : CString} (hid : id_.length = kStunTransactionIdLength) {own other : CString}
    (hown : own.length = 16) (hother : other.length = 16) :
    GetStunMessage own (named STUN_BINDING_REQUEST id_ (own ++ other)).Write =
      .message (named STUN_BINDING_REQUEST id_ (own ++ other)) other := by
  have hlength : (own ++ other).length = 32 := by rw [List.length_append, hown, hother]
  have hleft : ¬ ([] : List UInt8).length > 0 := Nat.lt_irrefl 0
  have hrequest : (named STUN_BINDING_REQUEST id_ (own ++ other)).type = STUN_BINDING_REQUEST := rfl
  unfold GetStunMessage
  rw [StunMessage.Read_Write (wellFormed_named rfl hid hlength)]
  dsimp only
  rw [username_named _ _ (by rw [hlength]; norm_num), Option.getD_some, if_neg hleft, if_pos hrequest,
    if_neg (by rw [hlength, hown]; norm_num), List.take_left, if_neg (not_not_intro rfl), List.drop_left]

/-- The sender of a ping knows the answer by its own fragment, which comes last. -/
theorem getStunMessage_answer {id_ : CString} (hid : id_.length = kStunTransactionIdLength) {own other : CString}
    (hown : own.length = 16) (hother : other.length = 16) {addr : SocketAddress} (hip : addr.ip ≠ .unspec) :
    GetStunMessage own (answer id_ (other ++ own) addr).Write = .message (answer id_ (other ++ own) addr) other := by
  have hlength : (other ++ own).length = 32 := by rw [List.length_append, hown, hother]
  have husername : (answer id_ (other ++ own) addr).GetUsername = some (other ++ own) :=
    username_named STUN_BINDING_RESPONSE id_ (by rw [hlength]; norm_num)
  have hrest : (other ++ own).length - own.length = other.length := by rw [hlength, hown, hother]
  have hrequest : ¬ (answer id_ (other ++ own) addr).type = STUN_BINDING_REQUEST := nofun
  have herror : ¬ ((answer id_ (other ++ own) addr).type = STUN_BINDING_ERROR_RESPONSE ∧
      (answer id_ (other ++ own) addr).GetErrorCode = none) := nofun
  have hresponse : (answer id_ (other ++ own) addr).type = STUN_BINDING_RESPONSE := rfl
  have hleft : ¬ ([] : List UInt8).length > 0 := Nat.lt_irrefl 0
  unfold GetStunMessage
  rw [StunMessage.Read_Write (wellFormed_answer hid hlength hip)]
  dsimp only
  rw [husername, Option.getD_some, if_neg hleft, if_neg hrequest, if_pos (Or.inl hresponse),
    if_neg (by rw [hlength, hown]; norm_num), hrest, List.drop_left, if_neg (not_not_intro rfl), if_neg herror, List.take_left]

/-! ### The two sides -/

variable [Arithmetic]

theorem Connection.pingMessage_eq (c : Connection) (id_ : CString) :
    c.pingMessage id_ = named STUN_BINDING_REQUEST id_ (c.remote_candidate.username ++ c.port.username_fragment) := rfl

theorem Connection.startAgain_read_state (c : Connection) (q : Queue) : (c.startAgain q).1.read_state = c.read_state := by
  unfold startAgain
  split
  · rw [set_write_state_eq]
  · rfl

theorem Connection.CheckResponse_writable {c : Connection} {msg : StunMessage} (htype : msg.type = STUN_BINDING_RESPONSE)
    (hid : ∃ request ∈ c.requests, request.id = msg.transaction_id) (now : UInt32) (q : Queue) :
    (c.CheckResponse msg now q).1.write_state = .writable := by
  obtain ⟨request, hrequest, hid⟩ := hid
  unfold CheckResponse
  split
  · rename_i hnone
    exact absurd (decide_eq_true hid) (List.find?_eq_none.mp hnone request hrequest)
  · rw [if_pos htype]
    unfold OnConnectionRequestResponse
    dsimp only
    rw [set_write_state_eq]
    rfl

namespace P2PTransportChannel

variable {ch : P2PTransportChannel}

/-- The connection that a packet from an address goes to. -/
theorem onReadPacket_of_connection (hbooks : ch.Books) {p : Port} (hp : p ∈ ch.allocated) {c : Connection}
    (hc : c ∈ ch.connections) (hport : c.port = p.toPortBase) {addr : SocketAddress}
    (haddr : c.remote_candidate.address.Equal addr) (hserver : p.servers.any addr.Equal = false) (data : List UInt8) :
    ch.OnReadPacket p addr data = ch.OnConnectionReadPacket c data := by
  have hget := (hbooks.getConnection_eq_some hp addr c.key).mpr ⟨c, hc, rfl, hport, haddr⟩
  unfold OnReadPacket
  rw [hserver, if_neg Bool.false_ne_true, hget, Option.bind_some, hbooks.connection_of_mem hc]

/-- What is done to the connection of a key is done to it. -/
theorem exists_forConnection (ch : P2PTransportChannel) {c : Connection} (hc : c ∈ ch.connections) (f : Connection → Queue → Connection × Queue) :
    ∃ q, (f c q).1 ∈ (ch.forConnection c.key f).connections := by
  obtain ⟨q, hq⟩ := exists_visited (f := fun x q => if x.key = c.key then f x q else (x, q)) (q := ch.queue) hc
  rw [if_pos rfl] at hq
  exact ⟨q, hq⟩

/-- A ping that comes to its connection is answered, and makes the connection readable. -/
theorem ping_received (hbooks : ch.Books) {d : Connection} (hd : d ∈ ch.connections)
    {id_ : CString} (hid : id_.length = kStunTransactionIdLength) (husername : d.remote_candidate.username.length = 16) :
    let data := (named STUN_BINDING_REQUEST id_ (d.port.username_fragment ++ d.remote_candidate.username)).Write
    (ch.OnConnectionReadPacket d data).sent = ch.sent ++ [(d.port.key, d.remote_candidate.address,
      (answer id_ (d.port.username_fragment ++ d.remote_candidate.username) d.remote_candidate.address).Write)] ∧
    ∃ d' ∈ (ch.OnConnectionReadPacket d data).connections, d'.key = d.key ∧ d'.read_state = .readable := by
  obtain ⟨p, hp, hbase, -⟩ := hbooks.known d hd
  have hlength : (d.port.username_fragment ++ d.remote_candidate.username).length < 2 ^ 16 := by
    rw [List.length_append, d.port.fragment, husername]
    norm_num
  have hrequest : (named STUN_BINDING_REQUEST id_ (d.port.username_fragment ++ d.remote_candidate.username)).type =
      STUN_BINDING_REQUEST := rfl
  have hresponse := bindingResponse_named STUN_BINDING_REQUEST id_ hlength d.remote_candidate.address
  have hget := (hbooks.getConnection_eq_some hp d.remote_candidate.address d.key).mpr
    ⟨d, hd, rfl, hbase.symm, SocketAddress.Equal.refl _⟩
  have hport : ch.port d.port.key = some p := by
    rw [← hbase]
    exact hbooks.port_of_mem hp
  intro data
  have hread : ch.OnConnectionReadPacket d data =
      (ch.SendBindingResponse d.port.key (named STUN_BINDING_REQUEST id_ (d.port.username_fragment ++ d.remote_candidate.username))
        d.remote_candidate.address).forConnection d.key Connection.startAgain := by
    unfold OnConnectionReadPacket
    rw [getStunMessage_ping hid d.port.fragment husername]
    dsimp only
    rw [if_neg (not_not_intro rfl), if_pos hrequest]
  rw [hread]
  refine ⟨?_, ?_⟩
  · exact sent_sendBindingResponse hresponse ch d.port.key
  · unfold SendBindingResponse
    rw [hresponse]
    dsimp only
    have hfound : ((ch.SendTo d.port.key d.remote_candidate.address
        (answer id_ (d.port.username_fragment ++ d.remote_candidate.username) d.remote_candidate.address).Write).port
          d.port.key).bind (·.GetConnection d.remote_candidate.address) = some d.key := by
      change (ch.port d.port.key).bind (·.GetConnection d.remote_candidate.address) = some d.key
      rw [hport]
      exact hget
    rw [hfound]
    obtain ⟨q, hpinged⟩ := exists_forConnection ch.tick hd (Connection.ReceivedPing ch.Time)
    have hkey := (Connection.evolving_ReceivedPing ch.Time d q).key
    obtain ⟨q', hagain⟩ := exists_forConnection (ch.ReceivedPing d.key) hpinged Connection.startAgain
    rw [hkey] at hagain
    refine ⟨_, hagain, ((Connection.evolving_startAgain _ q').key).trans hkey, ?_⟩
    rw [Connection.startAgain_read_state, Connection.ReceivedPing, Connection.set_read_state_eq]

/-- The answer to a ping of a connection makes the connection writable. -/
theorem answer_received {c : Connection} (hc : c ∈ ch.connections) {request : ConnectionRequest}
    (hrequest : request ∈ c.requests) (hid : request.id.length = kStunTransactionIdLength)
    (husername : c.remote_candidate.username.length = 16) {addr : SocketAddress} (hip : addr.ip ≠ .unspec) :
    ∃ c' ∈ (ch.OnConnectionReadPacket c
        (answer request.id (c.remote_candidate.username ++ c.port.username_fragment) addr).Write).connections,
      c'.key = c.key ∧ c'.write_state = .writable := by
  have hnotrequest : ¬ (answer request.id (c.remote_candidate.username ++ c.port.username_fragment) addr).type =
      STUN_BINDING_REQUEST := nofun
  unfold OnConnectionReadPacket
  rw [getStunMessage_answer hid c.port.fragment husername hip]
  dsimp only
  rw [if_neg (not_not_intro rfl), if_neg hnotrequest]
  obtain ⟨q, hchecked⟩ := exists_forConnection ch.tick hc (Connection.CheckResponse
    (answer request.id (c.remote_candidate.username ++ c.port.username_fragment) addr) ch.Time)
  exact ⟨_, hchecked, (Connection.evolving_CheckResponse _ _ c q).key, Connection.CheckResponse_writable rfl
    ⟨request, hrequest, rfl⟩ _ _⟩

theorem length_of_ping {es : List Event} {s t : P2PTransportChannel} (h : s.run es = some t) {id_ : CString}
    (hping : Event.ping id_ ∈ es) : id_.length = kStunTransactionIdLength := by
  induction es generalizing s with
  | nil => exact absurd hping List.not_mem_nil
  | cons e es ih =>
    obtain ⟨u, hstep, hrun⟩ := Machine.run_cons_eq_some.mp h
    rcases List.mem_cons.mp hping with rfl | hping
    · obtain ⟨⟨-, hlength, -⟩, -⟩ := Option.ite_none_right_eq_some.mp hstep
      exact hlength
    · exact ih hrun hping

/-- A connection `c` of one side and a connection `d` of the other that have each other's usernames, and a ping of `c` that
    is not answered yet. When the ping comes to the port of `d` from the address that `d` is for, then it is answered,
    and `d` is readable. And when that answer comes to the port of `c` from the address that `c` is for, then `c` is
    writable. -/
theorem handshake_of_runs {timesA timesB : Nat → UInt32} {esA esB : List Event} {a b : P2PTransportChannel}
    (ha : (new timesA).run esA = some a) (hb : (new timesB).run esB = some b) {c d : Connection} (hc : c ∈ a.connections)
    (hd : d ∈ b.connections) (hcd : c.remote_candidate.username = d.port.username_fragment)
    (hdc : d.remote_candidate.username = c.port.username_fragment) {request : ConnectionRequest}
    (hrequest : request ∈ c.requests) {addrA addrB : SocketAddress} (haddrA : d.remote_candidate.address.Equal addrA)
    (haddrB : c.remote_candidate.address.Equal addrB) (hserversA : c.port.servers.any addrB.Equal = false)
    (hserversB : d.port.servers.any addrA.Equal = false) (hip : addrA.ip ≠ .unspec) :
    ∃ a' b' response,
      b.step (.packet d.port.key addrA (c.pingMessage request.id).Write) = some b' ∧
      b'.sent = b.sent ++ [(d.port.key, d.remote_candidate.address, response)] ∧
      (∃ d' ∈ b'.connections, d'.key = d.key ∧ d'.read_state = .readable) ∧
      a.step (.packet c.port.key addrB response) = some a' ∧
      ∃ c' ∈ a'.connections, c'.key = c.key ∧ c'.write_state = .writable := by
  have hbooksA := Books.of_run ha
  have hbooksB := Books.of_run hb
  have hid := length_of_ping ha (((authentic_of_run ha).traced c hc).pinged request hrequest).event
  obtain ⟨p, hp, hbaseA, -⟩ := hbooksA.known c hc
  obtain ⟨q, hq, hbaseB, -⟩ := hbooksB.known d hd
  have hportA : a.port c.port.key = some p := by
    rw [← hbaseA]
    exact hbooksA.port_of_mem hp
  have hportB : b.port d.port.key = some q := by
    rw [← hbaseB]
    exact hbooksB.port_of_mem hq
  have hreadB : ∀ data, b.step (.packet d.port.key addrA data) = some (b.OnConnectionReadPacket d data) := by
    intro data
    unfold step
    dsimp only
    rw [hportB, Option.map_some, onReadPacket_of_connection hbooksB hq hd hbaseB.symm haddrA (hbaseB ▸ hserversB)]
  have hreadA : ∀ data, a.step (.packet c.port.key addrB data) = some (a.OnConnectionReadPacket c data) := by
    intro data
    unfold step
    dsimp only
    rw [hportA, Option.map_some, onReadPacket_of_connection hbooksA hp hc hbaseA.symm haddrB (hbaseA ▸ hserversA)]
  have husernameA : c.remote_candidate.username.length = 16 := by
    rw [hcd]
    exact d.port.fragment
  have husernameB : d.remote_candidate.username.length = 16 := by
    rw [hdc]
    exact c.port.fragment
  obtain ⟨hsent, hreadable⟩ := ping_received hbooksB hd hid husernameB
  have hipB : d.remote_candidate.address.ip ≠ .unspec := by
    rw [(SocketAddress.equal_iff.mp haddrA).1]
    exact hip
  have hanswer := answer_received hc hrequest hid husernameA hipB
  rw [← hcd, hdc] at hsent
  rw [← hcd, hdc] at hreadable
  rw [Connection.pingMessage_eq]
  exact ⟨_, _, _, hreadB _, hsent, hreadable, hreadA _, hanswer⟩

end P2PTransportChannel

end ProbICE.Ice

namespace ProbICE.Ice.P2PTransportChannel

attribute [local instance] Arithmetic.plain

def rightPort : Port :=
  { key := 0, network := 0, generation := 0, username_fragment := right, local_candidate := candidateOf right 2, servers := [],
    fragment := rfl, connections := [], lifetime := .preStart }

/-- The right side has a port and knows a candidate of the left side. -/
def rightOpening : List Event := [.connect, .signalingReady, .portReady rightPort, .candidate (candidateOf left 1)]

def rightOpened : P2PTransportChannel := ((new fun _ => 0).run rightOpening).get (by decide)

def leftPinging : P2PTransportChannel := ((new fun _ => 0).run (leftOpening ++ [.ping pingId])).get (by decide)

theorem handshake_of_runs_opened :
    ∃ a b response,
      rightOpened.step (.packet 0 (addressOf 1) (leftPinging.connections[0].pingMessage pingId).Write) = some b ∧
      b.sent = rightOpened.sent ++ [(0, addressOf 1, response)] ∧ leftPinging.step (.packet 0 (addressOf 2) response) = some a ∧
      ∃ c ∈ a.connections, c.key = 0 ∧ c.write_state = .writable := by
  have hleft : (new fun _ => 0).run (leftOpening ++ [.ping pingId]) = some leftPinging := (Option.some_get _).symm
  have hright : (new fun _ => 0).run rightOpening = some rightOpened := (Option.some_get _).symm
  have hrequest : { id := pingId, timeout := false, tstamp := 0 } ∈ leftPinging.connections[0].requests := by decide
  have hc : leftPinging.connections[0] ∈ leftPinging.connections := List.getElem_mem _
  have hd : rightOpened.connections[0] ∈ rightOpened.connections := List.getElem_mem _
  have hip : (addressOf 1).ip ≠ .unspec := nofun
  obtain ⟨a, b, response, hstep, hsent, -, hstep', hwritable⟩ :=
    handshake_of_runs hleft hright hc hd rfl rfl hrequest (SocketAddress.Equal.refl (addressOf 1))
      (SocketAddress.Equal.refl (addressOf 2)) rfl rfl hip
  exact ⟨a, b, response, hstep, hsent, hstep', hwritable⟩

end ProbICE.Ice.P2PTransportChannel
