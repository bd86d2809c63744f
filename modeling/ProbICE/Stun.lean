import Mathlib.Data.List.TakeWhile
import Mathlib.Tactic.Common

/-! # STUN messages

A connection asks of each packet whether it is a STUN message, and only a packet that is none is passed on. Here is the
part of the parser that answers: it reads the packet from a `ByteBuffer`, which is the list of the bytes that are left in
it. What the parser keeps of the values that it reads plays no part in the answer. -/

namespace ProbICE

namespace ByteBuffer

/-- `ReadBytes` and `ReadString`: what is read, and what is left. -/
def ReadBytes (buf : List UInt8) (len : Nat) : Option (List UInt8 × List UInt8) :=
  if len > buf.length then none else some (buf.take len, buf.drop len)

def ReadUInt8 : List UInt8 → Option (UInt8 × List UInt8)
  | a :: buf => some (a, buf)
  | _ => none

/-- Numbers are in network order. -/
def ReadUInt16 : List UInt8 → Option (UInt16 × List UInt8)
  | a :: b :: buf => some (UInt16.ofNat (a.toNat * 256 + b.toNat), buf)
  | _ => none

def Consume (buf : List UInt8) (size : Nat) : Option (List UInt8) :=
  if size > buf.length then none else some (buf.drop size)

end ByteBuffer

open ByteBuffer

/-- The classes that `StunAttribute::Create` chooses from. -/
inductive StunAttribute where
  | address
  | uint32
  | byteString
  | errorCode
  | uint16List
  | xorAddress
deriving DecidableEq

namespace StunAttribute

/-- `Create`: no class for an unknown type, nor for a length that its type does not have. -/
def Create (type length : UInt16) : Option StunAttribute :=
  if type = 0x0001 ∨ type = 0x0011 ∨ type = 0x0012 then if length ≠ 8 ∧ length ≠ 20 then none else some address
  else if type = 0x000d ∨ type = 0x0010 ∨ type = 0x8001 then if length ≠ 4 then none else some uint32
  else if type = 0x0006 ∨ type = 0x000f ∨ type = 0x0013 then some byteString
  else if type = 0x0008 then if length = 20 then some byteString else none
  else if type = 0x0009 then if length < 4 then none else some errorCode
  else if type = 0x000a then if length % 2 = 0 then some uint16List else none
  else if type = 0x0020 then if length ≠ 8 ∧ length ≠ 20 then none else some xorAddress
  else none

/-- `ConsumePadding`, which goes on when there is no padding. -/
def ConsumePadding (length : UInt16) (buf : List UInt8) : List UInt8 :=
  let remainder := length.toNat % 4
  if remainder > 0 then (Consume buf (4 - remainder)).getD buf else buf

/-- `StunAddressAttribute::Read`. The exclusive or of a `StunXorAddressAttribute` comes behind it. -/
def ReadAddress (length : UInt16) (buf : List UInt8) : Option (List UInt8) := do
  let (_, buf) ← ReadUInt8 buf
  let (stun_family, buf) ← ReadUInt8 buf
  let (_, buf) ← ReadUInt16 buf
  if stun_family = 1 then
    if length ≠ 8 then none else (ReadBytes buf 4).map Prod.snd
  else if stun_family = 2 then
    if length ≠ 20 then none else (ReadBytes buf 16).map Prod.snd
  else none

/-- The loop of `StunUInt16ListAttribute::Read`. -/
def ReadUInt16List : Nat → List UInt8 → Option (List UInt8)
  | 0, buf => some buf
  | i + 1, buf => do
    let (_, buf) ← ReadUInt16 buf
    ReadUInt16List i buf

/-- What `Read` leaves of the buffer. -/
def Read (length : UInt16) (buf : List UInt8) : StunAttribute → Option (List UInt8)
  | address | xorAddress => ReadAddress length buf
  | uint32 => (ReadBytes buf 4).map Prod.snd
  | byteString => (ReadBytes buf length.toNat).map fun (_, buf) => ConsumePadding length buf
  | errorCode => do
    let (_, buf) ← ReadBytes buf 4
    let (_, buf) ← ReadBytes buf (length.toNat - 4)
    some (ConsumePadding length buf)
  | uint16List => (ReadUInt16List (length.toNat / 2) buf).map (ConsumePadding length)

end StunAttribute

namespace StunMessage

/-- A turn of the loop over the attributes. An unknown attribute is skipped, and its length is rounded up in 16 bits. -/
def ReadAttribute (buf : List UInt8) : Option (List UInt8) := do
  let (attr_type, buf) ← ReadUInt16 buf
  let (attr_length, buf) ← ReadUInt16 buf
  match StunAttribute.Create attr_type attr_length with
  | none => Consume buf (if attr_length % 4 ≠ 0 then attr_length + (4 - attr_length % 4) else attr_length).toNat
  | some attr => attr.Read attr_length buf

end StunMessage

/-! ### A turn of the loop makes the buffer shorter -/

theorem ByteBuffer.length_ReadBytes {buf rest bs : List UInt8} {len : Nat} (h : ReadBytes buf len = some (bs, rest)) :
    rest.length ≤ buf.length := by
  obtain ⟨-, heq⟩ := Option.ite_none_left_eq_some.mp h
  obtain ⟨-, rfl⟩ := Prod.mk.inj (Option.some.inj heq)
  simp

theorem ByteBuffer.length_ReadUInt8 {buf rest : List UInt8} {x : UInt8} (h : ReadUInt8 buf = some (x, rest)) :
    rest.length < buf.length := by
  rcases buf with _ | ⟨a, buf⟩
  · cases h
  · obtain ⟨-, rfl⟩ := Prod.mk.inj (Option.some.inj h)
    simp

theorem ByteBuffer.length_ReadUInt16 {buf rest : List UInt8} {x : UInt16} (h : ReadUInt16 buf = some (x, rest)) :
    rest.length < buf.length := by
  rcases buf with _ | ⟨a, _ | ⟨b, buf⟩⟩
  · cases h
  · cases h
  · obtain ⟨-, rfl⟩ := Prod.mk.inj (Option.some.inj h)
    rw [List.length_cons, List.length_cons]
    omega

theorem ByteBuffer.length_Consume {buf rest : List UInt8} {size : Nat} (h : Consume buf size = some rest) :
    rest.length ≤ buf.length := by
  obtain ⟨-, heq⟩ := Option.ite_none_left_eq_some.mp h
  obtain rfl := Option.some.inj heq
  simp

namespace StunAttribute

theorem length_ConsumePadding (length : UInt16) (buf : List UInt8) : (ConsumePadding length buf).length ≤ buf.length := by
  unfold ConsumePadding
  simp only
  split
  · rcases hconsume : Consume buf (4 - length.toNat % 4) with _ | rest
    · exact Nat.le_refl _
    · exact length_Consume hconsume
  · exact Nat.le_refl _

theorem length_ReadAddress {length : UInt16} {buf rest : List UInt8} (h : ReadAddress length buf = some rest) :
    rest.length ≤ buf.length := by
  obtain ⟨⟨_, buf₁⟩, h₁, h⟩ := Option.bind_eq_some_iff.mp h
  obtain ⟨⟨family, buf₂⟩, h₂, h⟩ := Option.bind_eq_some_iff.mp h
  obtain ⟨⟨_, buf₃⟩, h₃, h⟩ := Option.bind_eq_some_iff.mp h
  have hread : ∃ n, (ReadBytes buf₃ n).map Prod.snd = some rest := by
    dsimp only at h
    split at h
    · exact ⟨4, (Option.ite_none_left_eq_some.mp h).2⟩
    · obtain ⟨-, h⟩ := Option.ite_none_right_eq_some.mp h
      exact ⟨16, (Option.ite_none_left_eq_some.mp h).2⟩
  obtain ⟨n, hread⟩ := hread
  obtain ⟨⟨bs, rest'⟩, hbytes, rfl⟩ := Option.map_eq_some_iff.mp hread
  have hlength := length_ReadBytes hbytes
  have hlength₁ := length_ReadUInt8 h₁
  have hlength₂ := length_ReadUInt8 h₂
  have hlength₃ := length_ReadUInt16 h₃
  dsimp only
  omega

theorem length_ReadUInt16List {i : Nat} {buf rest : List UInt8} (h : ReadUInt16List i buf = some rest) :
    rest.length ≤ buf.length := by
  induction i generalizing buf with
  | zero =>
    obtain rfl := Option.some.inj h
    exact Nat.le_refl _
  | succ i ih =>
    obtain ⟨⟨_, buf'⟩, hread, h⟩ := Option.bind_eq_some_iff.mp h
    exact (ih h).trans (Nat.le_of_lt (length_ReadUInt16 hread))

theorem length_Read {length : UInt16} {buf rest : List UInt8} {attr : StunAttribute} (h : attr.Read length buf = some rest) :
    rest.length ≤ buf.length := by
  cases attr with
  | address => exact length_ReadAddress h
  | xorAddress => exact length_ReadAddress h
  | uint32 =>
    obtain ⟨⟨bs, rest'⟩, hbytes, rfl⟩ := Option.map_eq_some_iff.mp h
    exact length_ReadBytes hbytes
  | byteString =>
    obtain ⟨⟨bs, rest'⟩, hbytes, rfl⟩ := Option.map_eq_some_iff.mp h
    exact (length_ConsumePadding length rest').trans (length_ReadBytes hbytes)
  | errorCode =>
    obtain ⟨⟨_, buf₁⟩, h₁, h⟩ := Option.bind_eq_some_iff.mp h
    obtain ⟨⟨_, buf₂⟩, h₂, h⟩ := Option.bind_eq_some_iff.mp h
    obtain rfl := Option.some.inj h
    exact ((length_ConsumePadding length buf₂).trans (length_ReadBytes h₂)).trans (length_ReadBytes h₁)
  | uint16List =>
    obtain ⟨rest', hread, rfl⟩ := Option.map_eq_some_iff.mp h
    exact (length_ConsumePadding length rest').trans (length_ReadUInt16List hread)

end StunAttribute

namespace StunMessage

theorem length_ReadAttribute {buf rest : List UInt8} (h : ReadAttribute buf = some rest) : rest.length < buf.length := by
  obtain ⟨⟨attr_type, buf₁⟩, h₁, h⟩ := Option.bind_eq_some_iff.mp h
  obtain ⟨⟨attr_length, buf₂⟩, h₂, h⟩ := Option.bind_eq_some_iff.mp h
  have hrest : rest.length ≤ buf₂.length := by
    dsimp only at h
    split at h
    · exact length_Consume h
    · exact StunAttribute.length_Read h
  exact (hrest.trans_lt (length_ReadUInt16 h₂)).trans (length_ReadUInt16 h₁)

/-- The loop over the attributes. -/
def ReadAttributes (buf : List UInt8) : Option (List UInt8) :=
  if buf = [] then some []
  else
    match _h : ReadAttribute buf with
    | none => none
    | some rest => ReadAttributes rest
termination_by buf.length
decreasing_by exact length_ReadAttribute _h

/-- `Read`: what it leaves of the buffer, or `none` where it returns false. -/
def Read (buf : List UInt8) : Option (List UInt8) := do
  let (type, buf) ← ReadUInt16 buf
  if type &&& 0x8000 ≠ 0 then none
  else
    let (length, buf) ← ReadUInt16 buf
    let (_, buf) ← ReadBytes buf 4
    let (_, buf) ← ReadBytes buf 12
    if length.toNat ≠ buf.length then none else ReadAttributes buf

end StunMessage

/-- `Port::GetStunMessage`: whether the packet is a complete and correct STUN message. -/
def GetStunMessage (data : List UInt8) : Bool :=
  match StunMessage.Read data with
  | none => false
  | some buf => buf.length = 0

end ProbICE
