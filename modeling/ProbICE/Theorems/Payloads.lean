import ProbICE.Console
import ProbICE.ReceivePath
import ProbICE.Theorems.Snapshots

/-! # The payload of a packet

Nobody between the socket and the prober looks at the length of a packet, and the array of the prober has 128 bytes for
the packet and the NUL behind it. -/

namespace ProbICE

section
variable [Host]

theorem P2PTransportChannel.FindConnection_of_mem {channel : P2PTransportChannel} {connection : Connection}
    (h : connection ∈ channel.connections) : channel.FindConnection connection = true :=
  List.any_eq_true.mpr ⟨connection, h, decide_eq_true rfl⟩

/-- The channel passes on what its connection passes on, which is every packet but those for the connection itself. -/
theorem OnReadPacket_eq_some {channel : P2PTransportChannel} {connection : Connection} {data : List UInt8}
    (hmem : connection ∈ channel.connections) (hread : connection.read_state = .readable) (hstun : GetStunMessage data = false) :
    (connection.OnReadPacket data).bind (channel.OnReadPacket connection) = some data := by
  have hfind := P2PTransportChannel.FindConnection_of_mem hmem
  have hconnection : connection.OnReadPacket data = some data := by simp [Connection.OnReadPacket, hstun, hread]
  rw [hconnection, Option.bind_some, P2PTransportChannel.OnReadPacket, if_neg (not_not.mpr hfind)]

end

namespace IceProber

/-- A packet that leaves room for the NUL is printed up to its first NUL, and any other is copied over the end of the
    array. -/
theorem onChannelReadPacket_eq (temp : Vector UInt8 128) (data : List UInt8) :
    onChannelReadPacket temp data = if data.length < 128 then .ok (ProbICE.onChannelReadPacket data) else .error 128 := by
  split
  · rename_i h
    have hfits : 0 + data.length ≤ 128 := by omega
    obtain ⟨copied, hcopied, hlist⟩ := LocalArray.memcpy_of_le (a := temp) hfits
    have hwritten : LocalArray.write copied data.length 0 = .ok (copied.set data.length 0) := LocalArray.write_of_lt h 0
    have hbytes : (copied.set data.length 0).toList = data ++ 0 :: copied.toList.drop (data.length + 1) := by
      rw [LocalArray.toList_set, hlist]
      simp
    have htext : LocalArray.text 0 (copied.set data.length 0) = .ok (data.takeWhile (· ≠ 0)) :=
      LocalArray.text_of_toList hbytes
    simp only [onChannelReadPacket, hcopied, hwritten, htext, bind, Except.bind, pure, Except.pure,
      ProbICE.onChannelReadPacket]
  · rename_i h
    rcases Nat.lt_or_ge 128 data.length with hlarge | hsmall
    · rw [onChannelReadPacket, LocalArray.memcpy_of_lt (Nat.zero_le _) (by omega)]
      rfl
    · have hlength : data.length = 128 := by omega
      have hfits : 0 + data.length ≤ 128 := by omega
      obtain ⟨copied, hcopied, -⟩ := LocalArray.memcpy_of_le (a := temp) hfits
      have hwritten : LocalArray.write copied data.length 0 = .error 128 := by
        rw [hlength]
        exact LocalArray.write_of_le (Nat.le_refl _) 0
      simp only [onChannelReadPacket, hcopied, hwritten, bind, Except.bind]

/-- The buffer of the socket takes every datagram as a whole that the array has room for, and many others. -/
theorem OnReadEvent_of_le {datagram : List UInt8} (h : datagram.length ≤ AsyncUDPSocket.BUF_SIZE) :
    AsyncUDPSocket.OnReadEvent datagram = datagram := List.take_of_length_le h

theorem length_OnReadEvent_lt {datagram : List UInt8} :
    (AsyncUDPSocket.OnReadEvent datagram).length < 128 ↔ datagram.length < 128 := by
  rw [AsyncUDPSocket.OnReadEvent, AsyncUDPSocket.BUF_SIZE, List.length_take]
  omega

section
variable [Host]

theorem receive_eq (temp : Vector UInt8 128) {channel : P2PTransportChannel} {connection : Connection}
    (hmem : connection ∈ channel.connections) (hread : connection.read_state = .readable) {datagram : List UInt8}
    (hstun : GetStunMessage (AsyncUDPSocket.OnReadEvent datagram) = false) :
    receive temp channel connection datagram =
      some (onChannelReadPacket temp (AsyncUDPSocket.OnReadEvent datagram)) := by
  rw [receive, OnReadPacket_eq_some hmem hread hstun, Option.map_some]

/-- A payload is printed up to its first NUL without an access outside of the array if and only if it has at most 127
    bytes. -/
theorem payload_shown_iff (temp : Vector UInt8 128) {channel : P2PTransportChannel} {connection : Connection}
    (hmem : connection ∈ channel.connections) (hread : connection.read_state = .readable) {datagram : List UInt8}
    (hstun : GetStunMessage (AsyncUDPSocket.OnReadEvent datagram) = false) :
    receive temp channel connection datagram = some (.ok (cstr "Get packet:" ++ datagram.takeWhile (· ≠ 0))) ↔
      datagram.length < 128 := by
  rw [receive_eq temp hmem hread hstun, Option.some_inj, onChannelReadPacket_eq]
  constructor
  · intro h
    by_contra hlong
    rw [if_neg (mt length_OnReadEvent_lt.mp hlong)] at h
    cases h
  · intro h
    have hfits : datagram.length ≤ AsyncUDPSocket.BUF_SIZE := by
      unfold AsyncUDPSocket.BUF_SIZE
      omega
    rw [OnReadEvent_of_le hfits, if_pos h]
    rfl

end

/-! ### Two datagrams on one connection -/

section
attribute [local instance] Host.plain

/-- A connection of the host to itself. -/
def loopback : Connection where
  key := 0
  read_state := .readable
  write_state := .writable
  reported := true
  pruned := false
  rtt := 3000
  sent_total_bytes := 0
  sent_bytes_second := 0
  recv_total_bytes := 0
  recv_bytes_second := 0
  last_ping_sent := 0
  last_ping_received := 0
  local_candidate := SocketMonitor.hostCandidate
  remote_candidate := SocketMonitor.hostCandidate

/-- A channel with one connection, which is the best one. -/
def loopbackChannel : P2PTransportChannel where
  connections := [loopback]
  best_connection := some 0
  constructed := 1
  distinct := by simp
  known := by simp [loopback]

theorem payload_shown_four :
    receive (Vector.replicate 128 0) loopbackChannel loopback (cstr "ABCD") =
      some (.ok (cstr "Get packet:" ++ (cstr "ABCD").takeWhile (· ≠ 0))) :=
  (payload_shown_iff (Vector.replicate 128 0) (by simp [loopbackChannel]) rfl (by decide)).mpr (by decide)

/-- The NUL behind 128 letters is written behind the array. -/
theorem payload_overflows :
    GetStunMessage (AsyncUDPSocket.OnReadEvent (List.replicate 128 0x41)) = false ∧
      receive (Vector.replicate 128 0) loopbackChannel loopback (List.replicate 128 0x41) = some (.error 128) := by
  have hstun : GetStunMessage (AsyncUDPSocket.OnReadEvent (List.replicate 128 0x41)) = false := by
    rw [OnReadEvent_of_le (by rw [List.length_replicate]; decide)]
    decide +kernel
  refine ⟨hstun, ?_⟩
  rw [receive_eq _ (by simp [loopbackChannel]) rfl hstun, onChannelReadPacket_eq]
  exact congrArg some (if_neg (by simp [length_OnReadEvent_lt]))

end

end IceProber

end ProbICE
