import ProbICE.Lib.Decimal
import ProbICE.Text

/-! # IP addresses and socket addresses

An address keeps the text it was made from, next to the number that the text stands for. The numbers of
IPv4 are read and printed here; what the program gets from its host and from its C++ library (IPv6 texts,
`float` texts, its own name and addresses) is collected in `Host`. -/

namespace ProbICE

inductive IPAddress where
  | unspec
  /-- An `AF_INET` address in host order. -/
  | v4 (ip : UInt32)
  /-- An `AF_INET6` address; its first byte is the highest. -/
  | v6 (ip : BitVec 128)
deriving DecidableEq

/-- The host and the C++ library that a program runs on. -/
class Host where
  /-- `float`. -/
  Float : Type
  /-- `ost << x`. -/
  showFloat : Float → CString
  /-- `ist >> x`, for an `x` that is 0 before. -/
  readFloat : CString → Float
  /-- `inet_pton(AF_INET6, ...)`. -/
  inet_pton6 : CString → Option (BitVec 128)
  /-- `inet_ntop(AF_INET6, ...)`. -/
  inet_ntop6 : BitVec 128 → CString
  /-- `GetHostname()`. -/
  hostname : CString
  /-- `GetLocalIPs()`. -/
  localIPs : List IPAddress

/-- A host without IPv6, on which only whole numbers are used as `float`. -/
@[reducible] def Host.plain : Host where
  Float := Nat
  showFloat := Decimal.print
  readFloat w := Decimal.value (Decimal.scan w).2
  inet_pton6 _ := none
  inet_ntop6 _ := []
  hostname := cstr "host"
  localIPs := [.v4 0x7F000001]

/-- `'.'`. -/
def dot : UInt8 := 0x2E

/-- `w.c_str()`, as a C function reads it. -/
def c_str (w : CString) : CString := w.takeWhile (· ≠ 0)

/-! ### IPv4 texts -/

/-- One of the four numbers of an IPv4 text. -/
def octet (w : CString) : Option Nat :=
  let n := Decimal.value w
  if Decimal.print n = w ∧ n ≤ 255 then some n else none

/-- `inet_pton(AF_INET, ...)`: four numbers without leading zeros. -/
def inet_pton4 (w : CString) : Option UInt32 :=
  match w.splitOn dot with
  | [a, b, c, d] => do
    let a ← octet a
    let b ← octet b
    let c ← octet c
    let d ← octet d
    some (UInt32.ofNat (((a * 256 + b) * 256 + c) * 256 + d))
  | _ => none

/-- `inet_ntop(AF_INET, ...)`. -/
def inet_ntop4 (ip : UInt32) : CString :=
  [dot].intercalate [Decimal.print (ip.toNat / 2 ^ 24), Decimal.print (ip.toNat / 2 ^ 16 % 256),
    Decimal.print (ip.toNat / 2 ^ 8 % 256), Decimal.print (ip.toNat % 256)]

theorem octet_print {n : Nat} (h : n ≤ 255) : octet (Decimal.print n) = some n := by
  simp [octet, Decimal.value_print, h]

theorem dot_not_mem_print (n : Nat) : dot ∉ Decimal.print n := fun h => by
  have := Decimal.isDigit_of_mem_print h
  revert this
  decide

/-- A printed address is read back. -/
theorem inet_pton4_inet_ntop4 (ip : UInt32) : inet_pton4 (inet_ntop4 ip) = some ip := by
  have hip := ip.toNat_lt
  have hsplit : (inet_ntop4 ip).splitOn dot = [Decimal.print (ip.toNat / 2 ^ 24),
      Decimal.print (ip.toNat / 2 ^ 16 % 256), Decimal.print (ip.toNat / 2 ^ 8 % 256),
      Decimal.print (ip.toNat % 256)] := by
    refine List.splitOn_intercalate dot ?_ (by simp)
    simp only [List.mem_cons, List.not_mem_nil, or_false]
    rintro w (rfl | rfl | rfl | rfl) <;> exact dot_not_mem_print _
  have hsum : ((ip.toNat / 2 ^ 24 * 256 + ip.toNat / 2 ^ 16 % 256) * 256 + ip.toNat / 2 ^ 8 % 256) * 256 +
      ip.toNat % 256 = ip.toNat := by omega
  rw [inet_pton4, hsplit]
  simp only [octet_print (show ip.toNat / 2 ^ 24 ≤ 255 by omega), octet_print (show ip.toNat / 2 ^ 16 % 256 ≤ 255 by omega),
    octet_print (show ip.toNat / 2 ^ 8 % 256 ≤ 255 by omega), octet_print (show ip.toNat % 256 ≤ 255 by omega)]
  simp only [Option.bind_eq_bind, Option.bind_some, hsum]
  exact congrArg some UInt32.ofNat_toNat

/-- A printed address is made of digits and dots. -/
theorem mem_inet_ntop4 {ip : UInt32} {b : UInt8} (h : b ∈ inet_ntop4 ip) : Decimal.isDigit b ∨ b = dot := by
  have hcases : ∀ ws : List CString, (∀ w ∈ ws, ∀ x ∈ w, Decimal.isDigit x) → ∀ x ∈ [dot].intercalate ws,
      Decimal.isDigit x ∨ x = dot := by
    intro ws
    induction ws with
    | nil => simp
    | cons w ws ih =>
      intro hws x hx
      cases ws with
      | nil => exact .inl (hws w List.mem_cons_self x (by simpa using hx))
      | cons v vs =>
        rw [List.intercalate_cons_cons, List.mem_append, List.mem_append, List.mem_singleton] at hx
        rcases hx with (hx | hx) | hx
        · exact .inl (hws w List.mem_cons_self x hx)
        · exact .inr hx
        · exact ih (fun u hu => hws u (List.mem_cons_of_mem _ hu)) x hx
  refine hcases _ ?_ b h
  simp only [List.mem_cons, List.not_mem_nil, or_false]
  rintro w (rfl | rfl | rfl | rfl) x hx <;> exact Decimal.isDigit_of_mem_print hx

section Host
variable [Host]

namespace IPAddress

def ToString : IPAddress → CString
  | unspec => []
  | v4 ip => inet_ntop4 ip
  | v6 ip => Host.inet_ntop6 ip

/-- `IPAddress(INADDR_ANY)`. -/
def any : IPAddress := v4 0

end IPAddress

/-- `IPFromString`: what it returns and the address it sets. -/
def IPFromString (str : CString) : Bool × IPAddress :=
  match inet_pton4 (c_str str) with
  | some ip => (true, .v4 ip)
  | none =>
    match Host.inet_pton6 (c_str str) with
    | some ip => (true, .v6 ip)
    | none => (false, .unspec)

def IPIsAny : IPAddress → Bool
  | .v4 ip => ip = 0
  | .v6 ip => ip = 0
  | .unspec => false

def IPIsLoopback : IPAddress → Bool
  | .v4 ip => ip = 0x7F000001
  | .v6 ip => ip = 1
  | .unspec => false

def IsPrivateV4 (ip : UInt32) : Bool :=
  ip >>> 24 == 127 || ip >>> 24 == 10 || ip >>> 20 == ((172 : UInt32) <<< 4 ||| 1) ||
    ip >>> 16 == ((192 : UInt32) <<< 8 ||| 168) || ip >>> 16 == ((169 : UInt32) <<< 8 ||| 254)

def IPIsPrivate : IPAddress → Bool
  | .v4 ip => IsPrivateV4 ip
  | .v6 ip => ip >>> 112 == 0xFE80 || IPIsLoopback (.v6 ip)
  | .unspec => false

structure SocketAddress where
  hostname : CString
  ip : IPAddress
  port : UInt16
  /-- `hostname` holds a literal IP text. -/
  literal : Bool
deriving DecidableEq

/-- `tolower` in the C locale. -/
def tolower (b : UInt8) : UInt8 := if 0x41 ≤ b ∧ b ≤ 0x5A then b + 0x20 else b

/-- `0 == stricmp(v, w)`. -/
def stricmpEqual (v w : CString) : Bool := (c_str v).map tolower = (c_str w).map tolower

namespace SocketAddress

/-- The condition that `SetPort` asserts. -/
def portFits (port : Int) : Bool := 0 ≤ port ∧ port < 65536

/-- `SocketAddress(hostname, port)`: `SetIP` and `SetPort`, which keeps the low 16 bits. -/
def ofHostname (hostname : CString) (port : Int) : SocketAddress :=
  let (literal, ip) := IPFromString hostname
  { hostname, literal, ip := if literal then ip else .any, port := UInt16.ofInt port }

/-- `SocketAddress(ip, port)`. -/
def ofIP (ip : IPAddress) (port : UInt16) : SocketAddress := { hostname := [], ip, port, literal := false }

def IPAsString (a : SocketAddress) : CString :=
  if ¬ a.literal ∧ a.hostname ≠ [] then a.hostname
  else
    match a.ip with
    | .v6 ip => [0x5B] ++ IPAddress.ToString (.v6 ip) ++ [0x5D]
    | ip => ip.ToString

def PortAsString (a : SocketAddress) : CString := Decimal.print a.port.toNat

def IsAny (a : SocketAddress) : Bool := IPIsAny a.ip

def IsLoopbackIP (a : SocketAddress) : Bool :=
  IPIsLoopback a.ip || (IPIsAny a.ip && c_str a.hostname == cstr "localhost")

def IsLocalIP (a : SocketAddress) : Bool :=
  a.IsLoopbackIP ||
    if IPIsAny a.ip then a.hostname ≠ [] && stricmpEqual a.hostname Host.hostname else Host.localIPs.contains a.ip

def IsPrivateIP (a : SocketAddress) : Bool := IPIsPrivate a.ip

end SocketAddress

end Host

end ProbICE
