import ProbICE.Lib.BigEndian
import ProbICE.Lib.Reader
import ProbICE.SocketAddress
import ProbICE.Stun

/-! # STUN messages with what they hold

The messages that a port writes and reads, with their attributes. A `ByteBuffer` that is written is the list of the bytes
that are written to it, and one that is read is the list of the bytes that are left in it.

Every attribute belongs to the message that it was added to or read with, so the transaction id that a
`StunXorAddressAttribute` needs is that of the message. -/

namespace ProbICE

namespace ByteBuffer

def ReadUInt32 (buf : List UInt8) : Option (UInt32 × List UInt8) :=
  (ReadBytes buf 4).map fun r => (UInt32.ofNat (BigEndian.read r.1), r.2)

def WriteUInt8 (val : UInt8) : List UInt8 := [val]

def WriteUInt16 (val : UInt16) : List UInt8 := BigEndian.write 2 val.toNat

def WriteUInt32 (val : UInt32) : List UInt8 := BigEndian.write 4 val.toNat

end ByteBuffer

namespace Stun
open ByteBuffer

/-! ### Constants -/

abbrev STUN_BINDING_REQUEST : UInt16 := 0x0001
abbrev STUN_BINDING_RESPONSE : UInt16 := 0x0101
abbrev STUN_BINDING_ERROR_RESPONSE : UInt16 := 0x0111

abbrev STUN_ATTR_MAPPED_ADDRESS : UInt16 := 0x0001
abbrev STUN_ATTR_USERNAME : UInt16 := 0x0006
abbrev STUN_ATTR_ERROR_CODE : UInt16 := 0x0009
abbrev STUN_ATTR_XOR_MAPPED_ADDRESS : UInt16 := 0x0020

def STUN_ERROR_BAD_REQUEST : UInt32 := 400
def STUN_ERROR_UNAUTHORIZED : UInt32 := 401
def STUN_ERROR_UNKNOWN_ATTRIBUTE : UInt32 := 420
def STUN_ERROR_STALE_CREDENTIALS : UInt32 := 430
def STUN_ERROR_SERVER_ERROR : UInt32 := 500
def STUN_ERROR_GLOBAL_FAILURE : UInt32 := 600

def STUN_ERROR_REASON_BAD_REQUEST : CString := cstr "BAD REQUEST"
def STUN_ERROR_REASON_STALE_CREDENTIALS : CString := cstr "STALE CREDENTIALS"
def STUN_ERROR_REASON_SERVER_ERROR : CString := cstr "SERVER ERROR"

def kStunTransactionIdLength : Nat := 12
def kStunLegacyTransactionIdLength : Nat := 16
def kStunMagicCookie : UInt32 := 0x2112A442

/-! ### Attributes -/

/-- What an attribute holds, by its class. -/
inductive StunValue where
  | address (ipaddr : IPAddress) (port : UInt16)
  | uint32 (bits : UInt32)
  | byteString (bytes : List UInt8)
  | errorCode (error_class number : UInt8) (reason : CString)
  | uint16List (attr_types : List UInt16)
  | xorAddress (ipaddr : IPAddress) (port : UInt16)
deriving DecidableEq

structure StunAttribute where
  type : UInt16
  length : UInt16
  value : StunValue
deriving DecidableEq

/-- The class of a value. -/
def StunValue.kind : StunValue → ProbICE.StunAttribute
  | address _ _ => .address
  | uint32 _ => .uint32
  | byteString _ => .byteString
  | errorCode _ _ _ => .errorCode
  | uint16List _ => .uint16List
  | xorAddress _ _ => .xorAddress

/-- `family()`. -/
def family : IPAddress → UInt8
  | .v4 _ => 1
  | .v6 _ => 2
  | .unspec => 0

/-- The length that `EnsureAddressLength` sets. -/
def addressLength : IPAddress → UInt16
  | .v4 _ => 8
  | .v6 _ => 20
  | .unspec => 0

/-- The bytes of an address in network order. -/
def ipBytes : IPAddress → List UInt8
  | .v4 ip => WriteUInt32 ip
  | .v6 ip => BigEndian.write 16 ip.toNat
  | .unspec => []

/-- The magic cookie and a transaction id, as they meet an IPv6 address. -/
def xorMask (transaction_id : CString) : BitVec 128 :=
  BitVec.ofNat 128 (BigEndian.read (WriteUInt32 kStunMagicCookie ++ transaction_id))

/-- `GetXoredIP`. -/
def GetXoredIP (transaction_id : CString) : IPAddress → IPAddress
  | .v4 ip => .v4 (ip ^^^ kStunMagicCookie)
  | .v6 ip => if transaction_id.length = 12 then .v6 (ip ^^^ xorMask transaction_id) else .unspec
  | .unspec => .unspec

/-- `port() ^ (kStunMagicCookie >> 16)`. -/
def xoredPort (port : UInt16) : UInt16 := port ^^^ 0x2112

/-- The bytes of `WritePadding`. -/
def WritePadding (length : UInt16) : List UInt8 :=
  let remainder := length.toNat % 4
  if remainder > 0 then List.replicate (4 - remainder) 0 else []

namespace StunAttribute

/-- `StunAddressAttribute::Read`. -/
def ReadAddress (length : UInt16) (buf : List UInt8) : Option ((IPAddress × UInt16) × List UInt8) := do
  let (_, buf) ← ReadUInt8 buf
  let (stun_family, buf) ← ReadUInt8 buf
  let (port, buf) ← ReadUInt16 buf
  if stun_family = 1 then
    if length ≠ 8 then none
    else (ReadBytes buf 4).map fun r => ((.v4 (UInt32.ofNat (BigEndian.read r.1)), port), r.2)
  else if stun_family = 2 then
    if length ≠ 20 then none
    else (ReadBytes buf 16).map fun r => ((.v6 (BitVec.ofNat 128 (BigEndian.read r.1)), port), r.2)
  else none

/-- `SetErrorCode` and `SetReason`, which leaves the length as it is. -/
def errorValue (code : UInt32) (reason : CString) : StunValue :=
  .errorCode ((code >>> 8) &&& 0x7).toUInt8 (code &&& 0xff).toUInt8 reason

/-- `error_code()`. -/
def error_code (error_class number : UInt8) : UInt32 := (error_class.toUInt32 <<< 8) ||| number.toUInt32

/-- `Create` has chosen the class `kind`, and `Read` follows. -/
def Read (transaction_id : CString) (type length : UInt16) (kind : ProbICE.StunAttribute) (buf : List UInt8) :
    Option (StunAttribute × List UInt8) :=
  match kind with
  | .address =>
    (ReadAddress length buf).map fun r =>
      ({ type, length := addressLength r.1.1, value := .address r.1.1 r.1.2 }, r.2)
  | .xorAddress =>
    (ReadAddress length buf).map fun r =>
      let ip := GetXoredIP transaction_id r.1.1
      ({ type, length := addressLength ip, value := .xorAddress ip (xoredPort r.1.2) }, r.2)
  | .uint32 => (ReadUInt32 buf).map fun r => ({ type, length, value := .uint32 r.1 }, r.2)
  | .byteString =>
    (ReadBytes buf length.toNat).map fun r =>
      ({ type, length, value := .byteString r.1 }, ProbICE.StunAttribute.ConsumePadding length r.2)
  | .errorCode => do
    let (val, buf) ← ReadUInt32 buf
    let (reason, buf) ← ReadBytes buf (length.toNat - 4)
    some ({ type, length, value := errorValue val reason }, ProbICE.StunAttribute.ConsumePadding length buf)
  | .uint16List =>
    (Reader.times ReadUInt16 (length.toNat / 2) buf).map fun r =>
      ({ type, length, value := .uint16List r.1 }, ProbICE.StunAttribute.ConsumePadding length r.2)

/-- `Write`: the body of an attribute. -/
def Write (transaction_id : CString) (attr : StunAttribute) : List UInt8 :=
  match attr.value with
  | .address ipaddr port =>
    if family ipaddr = 0 then []
    else WriteUInt8 0 ++ (WriteUInt8 (family ipaddr) ++ (WriteUInt16 port ++ ipBytes ipaddr))
  | .xorAddress ipaddr port =>
    if family ipaddr = 0 then []
    else WriteUInt8 0 ++ (WriteUInt8 (family ipaddr) ++
      (WriteUInt16 (xoredPort port) ++ ipBytes (GetXoredIP transaction_id ipaddr)))
  | .uint32 bits => WriteUInt32 bits
  | .byteString bytes => bytes ++ WritePadding attr.length
  | .errorCode error_class number reason => WriteUInt32 (error_code error_class number) ++ (reason ++ WritePadding attr.length)
  | .uint16List attr_types => attr_types.flatMap WriteUInt16 ++ WritePadding attr.length

/-- `CreateByteString` and `CopyBytes`, whose length is cut down to 16 bits. -/
def ofBytes (type : UInt16) (bytes : List UInt8) : StunAttribute :=
  { type, length := UInt16.ofNat bytes.length, value := .byteString (bytes.take (UInt16.ofNat bytes.length).toNat) }

/-- `CreateAddress` for a mapped address, with `SetPort` and `SetIP`. -/
def ofAddress (type : UInt16) (ipaddr : IPAddress) (port : UInt16) : StunAttribute :=
  { type, length := addressLength ipaddr, value := .address ipaddr port }

/-- `CreateErrorCode` with `SetErrorCode` and `SetReason`. -/
def ofErrorCode (code : UInt32) (reason : CString) : StunAttribute :=
  { type := STUN_ATTR_ERROR_CODE, length := 4 + UInt16.ofNat reason.length, value := errorValue code reason }

end StunAttribute

/-! ### Messages -/

structure StunMessage where
  type : UInt16
  length : UInt16
  transaction_id : CString
  attrs : List StunAttribute
deriving DecidableEq

namespace StunMessage

/-- The constructor, `SetType` and `SetTransactionID`. -/
def new (type : UInt16) (transaction_id : CString) : StunMessage := { type, length := 0, transaction_id, attrs := [] }

def IsLegacy (msg : StunMessage) : Bool := msg.transaction_id.length = kStunLegacyTransactionIdLength

/-- What an attribute of a length takes in a message, with its type, its length and its padding. -/
def attributeSize (attr_length : UInt16) : Nat :=
  attr_length.toNat + (if attr_length.toNat % 4 ≠ 0 then 4 - attr_length.toNat % 4 else 0) + 4

def AddAttribute (msg : StunMessage) (attr : StunAttribute) : StunMessage :=
  { msg with attrs := msg.attrs ++ [attr], length := msg.length + UInt16.ofNat (attributeSize attr.length) }

/-- `GetAttribute`: the first one of a type. -/
def GetAttribute (msg : StunMessage) (type : UInt16) : Option StunAttribute := msg.attrs.find? fun attr => attr.type = type

/-- `GetByteString(STUN_ATTR_USERNAME)`. -/
def GetUsername (msg : StunMessage) : Option (List UInt8) :=
  match msg.GetAttribute STUN_ATTR_USERNAME with
  | some { value := .byteString bytes, .. } => some bytes
  | _ => none

/-- `GetErrorCode()->error_code()`. -/
def GetErrorCode (msg : StunMessage) : Option UInt32 :=
  match msg.GetAttribute STUN_ATTR_ERROR_CODE with
  | some { value := .errorCode error_class number _, .. } => some (StunAttribute.error_code error_class number)
  | _ => none

/-- A turn of the loop over the attributes. There is no attribute where an unknown one is skipped. -/
def ReadAttribute (transaction_id : CString) (buf : List UInt8) : Option (Option StunAttribute × List UInt8) := do
  let (attr_type, buf) ← ReadUInt16 buf
  let (attr_length, buf) ← ReadUInt16 buf
  match ProbICE.StunAttribute.Create attr_type attr_length with
  | none =>
    (Consume buf (if attr_length % 4 ≠ 0 then attr_length + (4 - attr_length % 4) else attr_length).toNat).map (none, ·)
  | some kind => (StunAttribute.Read transaction_id attr_type attr_length kind buf).map fun r => (some r.1, r.2)

/-- The transaction id: a message without the magic cookie has it in front of its id. -/
def transactionId (magic_cookie transaction_id : CString) : CString :=
  if BigEndian.read magic_cookie ≠ kStunMagicCookie.toNat then magic_cookie ++ transaction_id else transaction_id

def Read (buf : List UInt8) : Option (StunMessage × List UInt8) := do
  let (type, buf) ← ReadUInt16 buf
  if type &&& 0x8000 ≠ 0 then none
  else
    let (length, buf) ← ReadUInt16 buf
    let (magic_cookie, buf) ← ReadBytes buf 4
    let (id_, buf) ← ReadBytes buf 12
    if length.toNat ≠ buf.length then none
    else
      let transaction_id := transactionId magic_cookie id_
      (Reader.many (ReadAttribute transaction_id) buf.length buf).map fun attrs =>
        ({ type, length, transaction_id, attrs := attrs.filterMap id }, [])

/-- The type, the length and the body of an attribute. -/
def WriteAttribute (transaction_id : CString) (attr : StunAttribute) : List UInt8 :=
  WriteUInt16 attr.type ++ (WriteUInt16 attr.length ++ attr.Write transaction_id)

def Write (msg : StunMessage) : List UInt8 :=
  WriteUInt16 msg.type ++ (WriteUInt16 msg.length ++ ((if msg.IsLegacy then [] else WriteUInt32 kStunMagicCookie) ++
    (msg.transaction_id ++ msg.attrs.flatMap (WriteAttribute msg.transaction_id))))

end StunMessage

end Stun

end ProbICE
