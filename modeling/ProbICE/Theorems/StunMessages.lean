import Mathlib.Tactic.IntervalCases
import ProbICE.StunMessage

/-! # What is written is read back

A STUN message that a port puts together is read as it was written, whatever its attributes are. -/

namespace ProbICE.Stun
open ByteBuffer Reader

/-! ### Buffers -/

theorem ReadBytes_append {bs : List UInt8} {len : Nat} (h : bs.length = len) (rest : List UInt8) :
    ReadBytes (bs ++ rest) len = some (bs, rest) := by
  subst h
  have hfits : ¬ bs.length > (bs ++ rest).length := by simp
  rw [ReadBytes, if_neg hfits, List.take_left, List.drop_left]

theorem reads_ReadBytes {bs : List UInt8} {len : Nat} (h : bs.length = len) : Reads (ReadBytes · len) bs bs :=
  ReadBytes_append h

theorem length_WriteUInt32 (val : UInt32) : (WriteUInt32 val).length = 4 := BigEndian.length_write 4 _

theorem reads_ReadUInt8 (val : UInt8) : Reads ReadUInt8 (WriteUInt8 val) val := fun _ => rfl

theorem reads_ReadUInt16 (val : UInt16) : Reads ReadUInt16 (WriteUInt16 val) val := by
  intro rest
  have hval := val.toNat_lt
  have hhigh : (UInt8.ofNat (val.toNat / 256)).toNat = val.toNat / 256 := by
    rw [UInt8.toNat_ofNat']
    omega
  have hlow : (UInt8.ofNat val.toNat).toNat = val.toNat % 256 := UInt8.toNat_ofNat'
  have hsum : val.toNat / 256 * 256 + val.toNat % 256 = val.toNat := by omega
  have hwritten : WriteUInt16 val ++ rest = UInt8.ofNat (val.toNat / 256) :: UInt8.ofNat val.toNat :: rest := rfl
  rw [hwritten, ReadUInt16, hhigh, hlow, hsum, UInt16.ofNat_toNat]

theorem reads_ReadUInt32 (val : UInt32) : Reads ReadUInt32 (WriteUInt32 val) val := by
  have hval : BigEndian.read (WriteUInt32 val) = val.toNat := BigEndian.read_write_of_lt val.toNat_lt
  intro rest
  rw [ReadUInt32, ReadBytes_append (length_WriteUInt32 val), Option.map_some, hval, UInt32.ofNat_toNat]

/-- What pads an attribute is skipped. -/
theorem ConsumePadding_WritePadding (length : UInt16) (rest : List UInt8) :
    ProbICE.StunAttribute.ConsumePadding length (WritePadding length ++ rest) = rest := by
  unfold ProbICE.StunAttribute.ConsumePadding WritePadding
  dsimp only
  split
  · have hfits : ¬ 4 - length.toNat % 4 > (List.replicate (4 - length.toNat % 4) (0 : UInt8) ++ rest).length := by simp
    rw [Consume, if_neg hfits, Option.getD_some, List.drop_append_of_le_length (by simp), List.drop_of_length_le (by simp),
      List.nil_append]
  · rfl

theorem length_WritePadding (length : UInt16) :
    (WritePadding length).length = if length.toNat % 4 ≠ 0 then 4 - length.toNat % 4 else 0 := by
  unfold WritePadding
  dsimp only
  split
  · rename_i h
    rw [if_pos (Nat.ne_of_gt h), List.length_replicate]
  · rename_i h
    rw [if_neg (by simpa using h), List.length_nil]

/-! ### Addresses -/

theorem GetXoredIP_GetXoredIP {transaction_id : CString} {ipaddr : IPAddress}
    (h : ∀ ip, ipaddr = .v6 ip → transaction_id.length = 12) :
    GetXoredIP transaction_id (GetXoredIP transaction_id ipaddr) = ipaddr := by
  cases ipaddr with
  | unspec => rfl
  | v4 ip =>
    rw [GetXoredIP, GetXoredIP, UInt32.xor_assoc, UInt32.xor_self, UInt32.xor_zero]
  | v6 ip =>
    have hid := h ip rfl
    rw [GetXoredIP, if_pos hid, GetXoredIP, if_pos hid, BitVec.xor_assoc, BitVec.xor_self, BitVec.xor_zero]

theorem GetXoredIP_ne_unspec {transaction_id : CString} {ipaddr : IPAddress}
    (h : ∀ ip, ipaddr = .v6 ip → transaction_id.length = 12) (hne : ipaddr ≠ .unspec) :
    GetXoredIP transaction_id ipaddr ≠ .unspec := by
  intro hxored
  rw [← GetXoredIP_GetXoredIP h, hxored] at hne
  exact hne rfl

theorem family_GetXoredIP {transaction_id : CString} {ipaddr : IPAddress}
    (h : ∀ ip, ipaddr = .v6 ip → transaction_id.length = 12) : family (GetXoredIP transaction_id ipaddr) = family ipaddr := by
  cases ipaddr with
  | v6 ip =>
    rw [GetXoredIP, if_pos (h ip rfl)]
    rfl
  | _ => rfl

theorem addressLength_GetXoredIP {transaction_id : CString} {ipaddr : IPAddress}
    (h : ∀ ip, ipaddr = .v6 ip → transaction_id.length = 12) :
    addressLength (GetXoredIP transaction_id ipaddr) = addressLength ipaddr := by
  cases ipaddr with
  | v6 ip =>
    rw [GetXoredIP, if_pos (h ip rfl)]
    rfl
  | _ => rfl

theorem xoredPort_xoredPort (port : UInt16) : xoredPort (xoredPort port) = port := by
  rw [xoredPort, xoredPort, UInt16.xor_assoc, UInt16.xor_self, UInt16.xor_zero]

/-- An address with its family and its port is read back. -/
theorem reads_ReadAddress {ipaddr : IPAddress} (h : ipaddr ≠ .unspec) (port : UInt16) :
    Reads (StunAttribute.ReadAddress (addressLength ipaddr))
      (WriteUInt8 0 ++ (WriteUInt8 (family ipaddr) ++ (WriteUInt16 port ++ ipBytes ipaddr))) (ipaddr, port) := by
  unfold StunAttribute.ReadAddress
  refine (reads_ReadUInt8 0).bind ((reads_ReadUInt8 _).bind ((reads_ReadUInt16 port).bind ?_))
  cases ipaddr with
  | unspec => exact absurd rfl h
  | v4 ip =>
    have hread : UInt32.ofNat (BigEndian.read (WriteUInt32 ip)) = ip := by
      rw [WriteUInt32, BigEndian.read_write_of_lt ip.toNat_lt, UInt32.ofNat_toNat]
    intro rest
    simp only [family, addressLength, if_true, ne_eq, not_true_eq_false, if_false]
    rw [ipBytes, ReadBytes_append (length_WriteUInt32 ip), Option.map_some, hread]
  | v6 ip =>
    have hread : BitVec.ofNat 128 (BigEndian.read (BigEndian.write 16 ip.toNat)) = ip := by
      rw [BigEndian.read_write_of_lt ip.isLt, BitVec.ofNat_toNat, BitVec.setWidth_eq]
    intro rest
    have hfamily : ¬ (2 : UInt8) = 1 := by decide
    simp only [family, addressLength, hfamily, if_true, ne_eq, not_true_eq_false, if_false]
    rw [ipBytes, ReadBytes_append (BigEndian.length_write 16 _), Option.map_some, hread]

/-! ### Attributes -/

theorem toNat_error_code (error_class number : UInt8) :
    (StunAttribute.error_code error_class number).toNat = 2 ^ 8 * error_class.toNat + number.toNat := by
  have hclass := error_class.toNat_lt
  have hnumber := number.toNat_lt
  have hshift : (error_class.toUInt32 <<< 8).toNat = 2 ^ 8 * error_class.toNat := by
    rw [UInt32.toNat_shiftLeft]
    simp [Nat.shiftLeft_eq]
    omega
  rw [StunAttribute.error_code, UInt32.toNat_or, hshift, UInt8.toNat_toUInt32, Nat.two_pow_add_eq_or_of_lt hnumber]

/-- The class and the number of an error are those that its code holds. -/
theorem errorValue_error_code {error_class : UInt8} (h : error_class < 8) (number : UInt8) (reason : CString) :
    StunAttribute.errorValue (StunAttribute.error_code error_class number) reason = .errorCode error_class number reason := by
  have hcode := toNat_error_code error_class number
  have hbound : error_class.toNat < 8 := UInt8.lt_iff_toNat_lt.mp h
  have hnumber := number.toNat_lt
  have hclass : ((StunAttribute.error_code error_class number >>> 8) &&& 0x7).toUInt8 = error_class := by
    have hmask : UInt32.toNat 0x7 = 2 ^ 3 - 1 := rfl
    rw [← UInt8.toNat_inj, UInt32.toNat_toUInt8, UInt32.toNat_and, UInt32.toNat_shiftRight, hcode, hmask,
      Nat.and_two_pow_sub_one_eq_mod, Nat.shiftRight_eq_div_pow]
    simp
    omega
  have hlow : (StunAttribute.error_code error_class number &&& 0xff).toUInt8 = number := by
    have hmask : UInt32.toNat 0xff = 2 ^ 8 - 1 := rfl
    rw [← UInt8.toNat_inj, UInt32.toNat_toUInt8, UInt32.toNat_and, hcode, hmask, Nat.and_two_pow_sub_one_eq_mod]
    omega
  rw [StunAttribute.errorValue, hclass, hlow]

theorem error_class_lt (code : UInt32) : ((code >>> 8) &&& 0x7).toUInt8 < 8 := by
  have hle : ((code >>> 8) &&& 0x7).toNat ≤ UInt32.toNat 0x7 := by
    rw [UInt32.toNat_and]
    exact Nat.and_le_right
  have hseven : UInt32.toNat 0x7 = 7 := rfl
  have height : UInt8.toNat 8 = 8 := rfl
  rw [UInt8.lt_iff_toNat_lt, UInt32.toNat_toUInt8, height]
  omega

/-- The lengths that `Create` takes for a class. -/
def MayHave (kind : ProbICE.StunAttribute) (length : UInt16) : Prop :=
  match kind with
  | .address | .xorAddress => length = 8 ∨ length = 20
  | .uint32 => length = 4
  | .byteString => True
  | .errorCode => ¬ length < 4
  | .uint16List => length % 2 = 0

theorem mayHave_of_Create {type length : UInt16} {kind : ProbICE.StunAttribute}
    (h : ProbICE.StunAttribute.Create type length = some kind) : MayHave kind length := by
  unfold ProbICE.StunAttribute.Create at h
  split at h
  · grind [MayHave]
  split at h
  · grind [MayHave]
  split at h
  · grind [MayHave]
  split at h
  · grind [MayHave]
  split at h
  · grind [MayHave]
  split at h
  · grind [MayHave]
  · grind [MayHave]

theorem ne_unspec_of_length {length : UInt16} {ipaddr : IPAddress} (h : length = 8 ∨ length = 20)
    (hlength : length = addressLength ipaddr) : ipaddr ≠ .unspec := by
  rintro rfl
  rw [hlength] at h
  rcases h with h | h <;> cases h

theorem family_ne_zero {ipaddr : IPAddress} (h : ipaddr ≠ .unspec) : family ipaddr ≠ 0 := by
  cases ipaddr with
  | unspec => exact absurd rfl h
  | _ => simp [family]

/-- The length of an attribute is that of its value, and an IPv6 address that is exclusive-ored has an id to do it with. -/
def StunValue.Fits (transaction_id : CString) (length : UInt16) : StunValue → Prop
  | address ipaddr _ => length = addressLength ipaddr
  | xorAddress ipaddr _ => length = addressLength ipaddr ∧ ∀ ip, ipaddr = .v6 ip → transaction_id.length = 12
  | uint32 _ => True
  | byteString bytes => length.toNat = bytes.length
  | errorCode error_class _ reason => error_class < 8 ∧ length.toNat = 4 + reason.length
  | uint16List attr_types => length.toNat = 2 * attr_types.length

/-- The value is of the class that goes with the type of the attribute. -/
structure StunAttribute.Fits (transaction_id : CString) (attr : StunAttribute) : Prop where
  kind : ProbICE.StunAttribute.Create attr.type attr.length = some attr.value.kind
  value : attr.value.Fits transaction_id attr.length

/-- A body with its padding is read back. -/
theorem reads_padded {α : Type} {r : List UInt8 → Option (α × List UInt8)} {bs : List UInt8} {x : α} (h : Reads r bs x)
    (f : α → StunAttribute) (length : UInt16) :
    Reads (fun buf => (r buf).map fun a => (f a.1, ProbICE.StunAttribute.ConsumePadding length a.2))
      (bs ++ WritePadding length) (f x) := by
  intro rest
  dsimp only
  rw [List.append_assoc, h, Option.map_some, ConsumePadding_WritePadding]

/-- The body of an attribute is read back. -/
theorem StunAttribute.Fits.reads {transaction_id : CString} {attr : StunAttribute} (h : attr.Fits transaction_id) :
    Reads (StunAttribute.Read transaction_id attr.type attr.length attr.value.kind) (attr.Write transaction_id) attr := by
  obtain ⟨type, length, value⟩ := attr
  obtain ⟨hkind, hvalue⟩ := h
  have hlength := mayHave_of_Create hkind
  cases value with
  | address ipaddr port =>
    have hne : ipaddr ≠ .unspec := ne_unspec_of_length hlength hvalue
    obtain rfl : length = addressLength ipaddr := hvalue
    intro rest
    simp only [Read, StunValue.kind, Write, family_ne_zero hne, if_false]
    rw [reads_ReadAddress hne port rest, Option.map_some]
  | xorAddress ipaddr port =>
    obtain ⟨hvalue, hid⟩ := hvalue
    have hne : ipaddr ≠ .unspec := ne_unspec_of_length hlength hvalue
    obtain rfl : length = addressLength ipaddr := hvalue
    have hxored := GetXoredIP_ne_unspec hid hne
    intro rest
    simp only [Read, StunValue.kind, Write, family_ne_zero hne, if_false]
    rw [← family_GetXoredIP hid, ← addressLength_GetXoredIP hid, reads_ReadAddress hxored _ rest, Option.map_some]
    simp only [GetXoredIP_GetXoredIP hid, xoredPort_xoredPort, addressLength_GetXoredIP hid]
  | uint32 bits =>
    intro rest
    unfold Read Write
    dsimp only [StunValue.kind]
    rw [reads_ReadUInt32, Option.map_some]
  | byteString bytes =>
    exact reads_padded (reads_ReadBytes (Eq.symm hvalue)) (fun bytes => { type, length, value := .byteString bytes }) length
  | errorCode error_class number reason =>
    obtain ⟨hclass, hreason⟩ := hvalue
    have hreason' : reason.length = length.toNat - 4 := by
      dsimp only at hreason
      omega
    intro rest
    have hcode := reads_ReadUInt32 (error_code error_class number) (reason ++ (WritePadding length ++ rest))
    have hbody := ReadBytes_append hreason' (WritePadding length ++ rest)
    unfold Read Write
    dsimp only [StunValue.kind]
    simp only [List.append_assoc, bind, hcode, Option.bind_some, hbody, errorValue_error_code hclass,
      ConsumePadding_WritePadding]
  | uint16List attr_types =>
    have hdouble : length.toNat = 2 * attr_types.length := hvalue
    have hcount : length.toNat / 2 = attr_types.length := by omega
    unfold Read
    dsimp only [StunValue.kind]
    rw [hcount]
    exact reads_padded (reads_times fun x _ => reads_ReadUInt16 x)
      (fun attr_types => { type, length, value := .uint16List attr_types }) length

theorem length_flatMap_WriteUInt16 (attr_types : List UInt16) :
    (attr_types.flatMap WriteUInt16).length = 2 * attr_types.length := by
  induction attr_types with
  | nil => rfl
  | cons x xs ih =>
    have htwo : (WriteUInt16 x).length = 2 := BigEndian.length_write 2 _
    rw [List.flatMap_cons, List.length_append, ih, htwo, List.length_cons]
    omega

theorem attributeSize_addressLength {ipaddr : IPAddress} (h : ipaddr ≠ .unspec) :
    StunMessage.attributeSize (addressLength ipaddr) = 8 + (ipBytes ipaddr).length := by
  cases ipaddr with
  | unspec => exact absurd rfl h
  | v4 ip =>
    rw [ipBytes, length_WriteUInt32]
    simp [StunMessage.attributeSize, addressLength]
  | v6 ip =>
    rw [ipBytes, BigEndian.length_write]
    simp [StunMessage.attributeSize, addressLength]

/-- With its type and its length, an attribute takes what `AddAttribute` counts. -/
theorem StunAttribute.Fits.length_WriteAttribute {transaction_id : CString} {attr : StunAttribute}
    (h : attr.Fits transaction_id) :
    (StunMessage.WriteAttribute transaction_id attr).length = StunMessage.attributeSize attr.length := by
  obtain ⟨type, length, value⟩ := attr
  obtain ⟨hkind, hvalue⟩ := h
  have hlength := mayHave_of_Create hkind
  have htwo : ∀ val, (WriteUInt16 val).length = 2 := fun _ => BigEndian.length_write 2 _
  have hfour := length_WriteUInt32
  have hone : ∀ val, (WriteUInt8 val).length = 1 := fun _ => rfl
  unfold StunMessage.WriteAttribute Write
  cases value with
  | address ipaddr port =>
    have hne : ipaddr ≠ .unspec := ne_unspec_of_length hlength hvalue
    obtain rfl : length = addressLength ipaddr := hvalue
    simp only [family_ne_zero hne, if_false, List.length_append, htwo, hone, attributeSize_addressLength hne]
    omega
  | xorAddress ipaddr port =>
    obtain ⟨hvalue, hid⟩ := hvalue
    have hne : ipaddr ≠ .unspec := ne_unspec_of_length hlength hvalue
    obtain rfl : length = addressLength ipaddr := hvalue
    have hsize := attributeSize_addressLength (GetXoredIP_ne_unspec hid hne)
    rw [addressLength_GetXoredIP hid] at hsize
    simp only [family_ne_zero hne, if_false, List.length_append, htwo, hone, hsize]
    omega
  | uint32 bits =>
    obtain rfl : length = 4 := hlength
    rw [List.length_append, List.length_append, htwo, htwo, hfour]
    simp [StunMessage.attributeSize]
  | byteString bytes =>
    have hbytes : length.toNat = bytes.length := hvalue
    simp only [StunMessage.attributeSize, List.length_append, htwo, length_WritePadding]
    omega
  | errorCode error_class number reason =>
    have hreason : length.toNat = 4 + reason.length := hvalue.2
    simp only [StunMessage.attributeSize, List.length_append, htwo, hfour, length_WritePadding]
    omega
  | uint16List attr_types =>
    have htypes : length.toNat = 2 * attr_types.length := hvalue
    simp only [StunMessage.attributeSize, List.length_append, htwo, length_flatMap_WriteUInt16, length_WritePadding]
    omega

/-! ### Messages -/

/-- A transaction id that a reader makes out: a legacy one does not begin with the magic cookie. -/
def IsTransactionId (transaction_id : CString) : Prop :=
  transaction_id.length = kStunTransactionIdLength ∨
    transaction_id.length = kStunLegacyTransactionIdLength ∧
      BigEndian.read (transaction_id.take 4) ≠ kStunMagicCookie.toNat

/-- The length of a message is that of its attributes. -/
structure StunMessage.WellFormed (msg : StunMessage) : Prop where
  type : msg.type &&& 0x8000 = 0
  transaction_id : IsTransactionId msg.transaction_id
  attrs : ∀ attr ∈ msg.attrs, attr.Fits msg.transaction_id
  length : msg.length.toNat = (msg.attrs.map fun attr => StunMessage.attributeSize attr.length).sum

namespace StunMessage

/-- An id is read back, with the magic cookie in front of it where it is no legacy one. -/
theorem exists_magic_cookie (msg : StunMessage) (h : IsTransactionId msg.transaction_id) :
    ∃ magic_cookie id_ : CString, magic_cookie.length = 4 ∧ id_.length = 12 ∧
      transactionId magic_cookie id_ = msg.transaction_id ∧
      (if msg.IsLegacy then [] else WriteUInt32 kStunMagicCookie) ++ msg.transaction_id = magic_cookie ++ id_ := by
  unfold IsLegacy
  rcases h with hlength | ⟨hlength, hcookie⟩
  · have hread : BigEndian.read (WriteUInt32 kStunMagicCookie) = kStunMagicCookie.toNat := rfl
    have hlegacy : msg.transaction_id.length ≠ kStunLegacyTransactionIdLength := by rw [hlength]; decide
    refine ⟨WriteUInt32 kStunMagicCookie, msg.transaction_id, rfl, hlength, ?_, ?_⟩
    · rw [transactionId, hread, if_neg (not_not_intro rfl)]
    · simp [hlegacy]
  · have hsixteen : msg.transaction_id.length = 16 := hlength
    refine ⟨msg.transaction_id.take 4, msg.transaction_id.drop 4, ?_, ?_, ?_, ?_⟩
    · rw [List.length_take, hsixteen]
      rfl
    · rw [List.length_drop, hsixteen]
    · rw [transactionId, if_pos hcookie, List.take_append_drop]
    · simp [hlength]

/-- An attribute is read back in a turn of the loop. -/
theorem reads_ReadAttribute {transaction_id : CString} {attr : StunAttribute} (h : attr.Fits transaction_id) :
    Reads (ReadAttribute transaction_id) (WriteAttribute transaction_id attr) (some attr) := by
  refine (reads_ReadUInt16 attr.type).bind ((reads_ReadUInt16 attr.length).bind fun rest => ?_)
  dsimp only
  rw [h.kind]
  dsimp only
  rw [h.reads rest, Option.map_some]

theorem many_ReadAttribute {transaction_id : CString} {attrs : List StunAttribute}
    (h : ∀ attr ∈ attrs, attr.Fits transaction_id) {n : Nat} (hn : (attrs.flatMap (WriteAttribute transaction_id)).length ≤ n) :
    many (ReadAttribute transaction_id) n (attrs.flatMap (WriteAttribute transaction_id)) = some (attrs.map some) := by
  let written : Option StunAttribute → List UInt8 := fun attr => attr.elim [] (WriteAttribute transaction_id)
  have hwritten : (attrs.map some).flatMap written = attrs.flatMap (WriteAttribute transaction_id) :=
    List.flatMap_map some written _
  rw [← hwritten] at hn ⊢
  refine many_flatMap ?_ hn
  rintro _ hmem
  obtain ⟨attr, hattr, rfl⟩ := List.mem_map.mp hmem
  refine ⟨reads_ReadAttribute (h attr hattr), fun hnil => ?_⟩
  have hlength : (written (some attr)).length = attributeSize attr.length := (h attr hattr).length_WriteAttribute
  rw [hnil, List.length_nil] at hlength
  unfold attributeSize at hlength
  omega

theorem length_attrs {transaction_id : CString} {attrs : List StunAttribute} (h : ∀ attr ∈ attrs, attr.Fits transaction_id) :
    (attrs.flatMap (WriteAttribute transaction_id)).length = (attrs.map fun attr => attributeSize attr.length).sum := by
  induction attrs with
  | nil => rfl
  | cons attr attrs ih =>
    rw [List.flatMap_cons, List.length_append, (h attr List.mem_cons_self).length_WriteAttribute,
      ih fun attr' hmem => h attr' (List.mem_cons_of_mem attr hmem), List.map_cons, List.sum_cons]

/-- A message is read as it was written. -/
theorem Read_Write {msg : StunMessage} (h : msg.WellFormed) : Read msg.Write = some (msg, []) := by
  obtain ⟨magic_cookie, id_, hmagic, hid, htransaction, hwritten⟩ := exists_magic_cookie msg h.transaction_id
  have hlength : (msg.attrs.flatMap (WriteAttribute msg.transaction_id)).length = msg.length.toNat :=
    (length_attrs h.attrs).trans h.length.symm
  have hattrs := many_ReadAttribute h.attrs (Nat.le_of_eq hlength)
  unfold Read Write
  rw [← List.append_assoc (if msg.IsLegacy then [] else WriteUInt32 kStunMagicCookie), hwritten, List.append_assoc]
  simp only [bind, reads_ReadUInt16 _ _, Option.bind_some, h.type, ne_eq, not_true_eq_false, if_false,
    ReadBytes_append hmagic, ReadBytes_append hid, hlength, htransaction, hattrs, Option.map_some]
  rw [List.filterMap_map, Function.id_comp, List.filterMap_some]

theorem wellFormed_new {type : UInt16} {transaction_id : CString} (htype : type &&& 0x8000 = 0)
    (hid : IsTransactionId transaction_id) : (new type transaction_id).WellFormed :=
  ⟨htype, hid, fun _ hmem => absurd hmem List.not_mem_nil, rfl⟩

/-- An attribute may be added as long as the length of the message has room for it. -/
theorem WellFormed.AddAttribute {msg : StunMessage} (h : msg.WellFormed) {attr : StunAttribute}
    (hattr : attr.Fits msg.transaction_id) (hroom : msg.length.toNat + attributeSize attr.length < 2 ^ 16) :
    (msg.AddAttribute attr).WellFormed := by
  refine ⟨h.type, h.transaction_id, ?_, ?_⟩
  · intro attr' hmem
    rcases List.mem_append.mp hmem with hmem | hmem
    · exact h.attrs attr' hmem
    · rwa [List.mem_singleton.mp hmem]
  · have hsum : (msg.length + UInt16.ofNat (attributeSize attr.length)).toNat =
        msg.length.toNat + attributeSize attr.length := by
      rw [UInt16.toNat_add, UInt16.toNat_ofNat']
      omega
    unfold StunMessage.AddAttribute
    dsimp only
    rw [hsum, List.map_append, List.sum_append, ← h.length]
    rfl

/-- What a well-formed message is written to says all of it: it is read as it was written, and no other well-formed message
    is written to the same bytes. -/
theorem write_round_trip {msg : StunMessage} (h : msg.WellFormed) :
    Read msg.Write = some (msg, []) ∧ ∀ msg' : StunMessage, msg'.WellFormed → msg'.Write = msg.Write → msg' = msg := by
  refine ⟨Read_Write h, fun msg' h' hsame => ?_⟩
  have hread := Read_Write h'
  rw [hsame, Read_Write h] at hread
  exact (congrArg Prod.fst (Option.some.inj hread)).symm

end StunMessage

/-- A response with an address that is exclusive-ored. -/
def sampleResponse : StunMessage :=
  ((StunMessage.new STUN_BINDING_RESPONSE (cstr "abcdefghijkl")).AddAttribute (.ofBytes STUN_ATTR_USERNAME (cstr "user"))).AddAttribute
    { type := STUN_ATTR_XOR_MAPPED_ADDRESS, length := 8, value := .xorAddress (.v4 0xC0000201) 5000 }

theorem wellFormed_sampleResponse : sampleResponse.WellFormed := by
  have hnew : (StunMessage.new STUN_BINDING_RESPONSE (cstr "abcdefghijkl")).WellFormed := StunMessage.wellFormed_new rfl (Or.inl rfl)
  have husername : (StunAttribute.ofBytes STUN_ATTR_USERNAME (cstr "user")).Fits (cstr "abcdefghijkl") := ⟨rfl, rfl⟩
  have haddress : ({ type := STUN_ATTR_XOR_MAPPED_ADDRESS, length := 8, value := .xorAddress (.v4 0xC0000201) 5000 } :
      StunAttribute).Fits (cstr "abcdefghijkl") := ⟨rfl, rfl, nofun⟩
  exact (hnew.AddAttribute husername (by decide)).AddAttribute haddress (by decide)

theorem write_round_trip_sampleResponse : StunMessage.Read sampleResponse.Write = some (sampleResponse, []) :=
  (StunMessage.write_round_trip wellFormed_sampleResponse).1

/-! ### The message that a packet is -/

/-- Both readers leave the same of the buffer. -/
theorem ReadAddress_map_snd (length : UInt16) (buf : List UInt8) :
    (StunAttribute.ReadAddress length buf).map Prod.snd = ProbICE.StunAttribute.ReadAddress length buf := by
  unfold StunAttribute.ReadAddress ProbICE.StunAttribute.ReadAddress
  rcases ReadUInt8 buf with _ | ⟨_, buf⟩
  · rfl
  simp only [bind, Option.bind_some]
  rcases ReadUInt8 buf with _ | ⟨stun_family, buf⟩
  · rfl
  simp only [Option.bind_some]
  rcases ReadUInt16 buf with _ | ⟨port, buf⟩
  · rfl
  simp only [Option.bind_some]
  split_ifs
  · rfl
  · rw [Option.map_map]
    rfl
  · rfl
  · rw [Option.map_map]
    rfl
  · rfl

theorem times_map_snd (n : Nat) (buf : List UInt8) :
    (times ReadUInt16 n buf).map Prod.snd = ProbICE.StunAttribute.ReadUInt16List n buf := by
  induction n generalizing buf with
  | zero => rfl
  | succ n ih =>
    unfold times ProbICE.StunAttribute.ReadUInt16List
    rcases ReadUInt16 buf with _ | ⟨_, buf⟩
    · rfl
    · simp only [bind, Option.bind_some]
      rw [Option.map_map, ← ih]
      rfl

theorem StunAttribute.Read_map_snd (transaction_id : CString) (type length : UInt16) (kind : ProbICE.StunAttribute)
    (buf : List UInt8) :
    (StunAttribute.Read transaction_id type length kind buf).map Prod.snd = kind.Read length buf := by
  cases kind with
  | address =>
    unfold StunAttribute.Read ProbICE.StunAttribute.Read
    rw [← ReadAddress_map_snd, Option.map_map]
    rfl
  | xorAddress =>
    unfold StunAttribute.Read ProbICE.StunAttribute.Read
    rw [← ReadAddress_map_snd, Option.map_map]
    rfl
  | uint32 =>
    unfold StunAttribute.Read ProbICE.StunAttribute.Read ReadUInt32
    rw [Option.map_map, Option.map_map]
    rfl
  | byteString =>
    unfold StunAttribute.Read ProbICE.StunAttribute.Read
    rw [Option.map_map]
    rfl
  | errorCode =>
    unfold StunAttribute.Read ProbICE.StunAttribute.Read ReadUInt32
    rcases ReadBytes buf 4 with _ | ⟨_, buf⟩
    · rfl
    simp only [bind, Option.map_some, Option.bind_some]
    rcases ReadBytes buf (length.toNat - 4) with _ | ⟨_, buf⟩ <;> rfl
  | uint16List =>
    unfold StunAttribute.Read ProbICE.StunAttribute.Read
    rw [← times_map_snd, Option.map_map, Option.map_map]
    rfl

namespace StunMessage

theorem ReadAttribute_map_snd (transaction_id : CString) (buf : List UInt8) :
    (ReadAttribute transaction_id buf).map Prod.snd = ProbICE.StunMessage.ReadAttribute buf := by
  unfold ReadAttribute ProbICE.StunMessage.ReadAttribute
  rcases ReadUInt16 buf with _ | ⟨attr_type, buf⟩
  · rfl
  simp only [bind, Option.bind_some]
  rcases ReadUInt16 buf with _ | ⟨attr_length, buf⟩
  · rfl
  simp only [Option.bind_some]
  rcases ProbICE.StunAttribute.Create attr_type attr_length with _ | kind
  · dsimp only
    rw [Option.map_map]
    exact Option.map_id'
  · dsimp only
    rw [← StunAttribute.Read_map_snd transaction_id attr_type, Option.map_map]
    rfl

theorem ReadAttributes_eq (transaction_id : CString) {n : Nat} {buf : List UInt8} (h : buf.length ≤ n) :
    ProbICE.StunMessage.ReadAttributes buf = (many (ReadAttribute transaction_id) n buf).map fun _ => [] := by
  induction n generalizing buf with
  | zero =>
    obtain rfl := List.length_eq_zero_iff.mp (Nat.le_zero.mp h)
    rw [ProbICE.StunMessage.ReadAttributes]
    rfl
  | succ n ih =>
    rw [ProbICE.StunMessage.ReadAttributes]
    by_cases hbuf : buf = []
    · rw [if_pos hbuf, hbuf]
      rfl
    · rw [if_neg hbuf, many_succ hbuf]
      have hread := ReadAttribute_map_snd transaction_id buf
      split
      · rename_i hnone
        rw [hnone, Option.map_eq_none_iff] at hread
        rw [hread]
        rfl
      · rename_i rest hsome
        obtain ⟨a, hattr, rfl⟩ := Option.map_eq_some_iff.mp (hread.trans hsome)
        have hless := ProbICE.StunMessage.length_ReadAttribute hsome
        rw [hattr, Option.bind_some, ih (by omega), Option.map_map]
        rfl

/-- A packet is taken for a STUN message where there is one to be read from it. -/
theorem GetStunMessage_eq (data : List UInt8) : GetStunMessage data = (Read data).isSome := by
  unfold GetStunMessage ProbICE.StunMessage.Read Read
  rcases ReadUInt16 data with _ | ⟨type, buf⟩
  · rfl
  simp only [bind, Option.bind_some]
  split_ifs
  · rfl
  rcases ReadUInt16 buf with _ | ⟨length, buf⟩
  · rfl
  simp only [Option.bind_some]
  rcases ReadBytes buf 4 with _ | ⟨magic_cookie, buf⟩
  · rfl
  simp only [Option.bind_some]
  rcases ReadBytes buf 12 with _ | ⟨id_, buf⟩
  · rfl
  simp only [Option.bind_some]
  split_ifs
  · rfl
  rw [ReadAttributes_eq (transactionId magic_cookie id_) (Nat.le_refl _)]
  rcases many (ReadAttribute (transactionId magic_cookie id_)) buf.length buf with _ | attrs <;> rfl

end StunMessage

/-! ### What is accepted is well formed -/

theorem length_of_ReadBytes {buf bs rest : List UInt8} {len : Nat} (h : ReadBytes buf len = some (bs, rest)) :
    bs.length = len := by
  obtain ⟨hlen, heq⟩ := Option.ite_none_left_eq_some.mp h
  obtain ⟨rfl, -⟩ := Prod.mk.inj (Option.some.inj heq)
  rw [List.length_take]
  omega

theorem left_of_ReadBytes {buf bs rest : List UInt8} {len : Nat} (h : ReadBytes buf len = some (bs, rest)) :
    buf.length = len + rest.length := by
  obtain ⟨hlen, heq⟩ := Option.ite_none_left_eq_some.mp h
  obtain ⟨-, rfl⟩ := Prod.mk.inj (Option.some.inj heq)
  rw [List.length_drop]
  omega

theorem left_of_ReadUInt16 {buf rest : List UInt8} {val : UInt16} (h : ReadUInt16 buf = some (val, rest)) :
    buf.length = 2 + rest.length := by
  rcases buf with _ | ⟨a, _ | ⟨b, buf⟩⟩
  · cases h
  · cases h
  · obtain ⟨-, rfl⟩ := Prod.mk.inj (Option.some.inj h)
    rw [List.length_cons, List.length_cons]
    omega

theorem length_of_times {α : Type} {r : List UInt8 → Option (α × List UInt8)} {n : Nat} {buf rest : List UInt8} {xs : List α}
    (h : times r n buf = some (xs, rest)) : xs.length = n := by
  induction n generalizing buf xs with
  | zero =>
    obtain ⟨rfl, -⟩ := Prod.mk.inj (Option.some.inj h)
    rfl
  | succ n ih =>
    obtain ⟨a, -, h⟩ := Option.bind_eq_some_iff.mp h
    obtain ⟨⟨xs', rest'⟩, htimes, heq⟩ := Option.map_eq_some_iff.mp h
    obtain ⟨rfl, rfl⟩ := Prod.mk.inj heq
    rw [List.length_cons, ih htimes]

/-- An address that is read has a family, and the length of the attribute goes with it. -/
theorem length_of_ReadAddress {length : UInt16} {buf rest : List UInt8} {ipaddr : IPAddress} {port : UInt16}
    (h : StunAttribute.ReadAddress length buf = some ((ipaddr, port), rest)) :
    length = addressLength ipaddr ∧ ipaddr ≠ .unspec := by
  obtain ⟨⟨_, buf₁⟩, -, h⟩ := Option.bind_eq_some_iff.mp h
  obtain ⟨⟨stun_family, buf₂⟩, -, h⟩ := Option.bind_eq_some_iff.mp h
  obtain ⟨⟨port', buf₃⟩, -, h⟩ := Option.bind_eq_some_iff.mp h
  dsimp only at h
  split at h
  · obtain ⟨hlength, h⟩ := Option.ite_none_left_eq_some.mp h
    obtain ⟨_, -, heq⟩ := Option.map_eq_some_iff.mp h
    obtain ⟨rfl, -⟩ := Prod.mk.inj (Prod.mk.inj heq).1
    exact ⟨not_not.mp hlength, nofun⟩
  · obtain ⟨-, h⟩ := Option.ite_none_right_eq_some.mp h
    obtain ⟨hlength, h⟩ := Option.ite_none_left_eq_some.mp h
    obtain ⟨_, -, heq⟩ := Option.map_eq_some_iff.mp h
    obtain ⟨rfl, -⟩ := Prod.mk.inj (Prod.mk.inj heq).1
    exact ⟨not_not.mp hlength, nofun⟩

/-- The IPv6 address of a `XOR-MAPPED-ADDRESS` in a legacy message is lost. -/
def StunAttribute.IsLost (attr : StunAttribute) : Prop := ∃ port, attr.value = .xorAddress .unspec port

theorem StunAttribute.fits_of_Read {transaction_id : CString} {type length : UInt16} {kind : ProbICE.StunAttribute}
    {buf rest : List UInt8} {attr : StunAttribute} (hcreate : ProbICE.StunAttribute.Create type length = some kind)
    (h : Read transaction_id type length kind buf = some (attr, rest)) :
    attr.Fits transaction_id ∨ transaction_id.length ≠ 12 ∧ attr.IsLost := by
  have hlength := mayHave_of_Create hcreate
  cases kind with
  | address =>
    obtain ⟨⟨⟨ipaddr, port⟩, rest'⟩, hread, heq⟩ := Option.map_eq_some_iff.mp h
    obtain ⟨rfl, -⟩ := length_of_ReadAddress hread
    obtain ⟨rfl, -⟩ := Prod.mk.inj heq
    exact Or.inl ⟨hcreate, rfl⟩
  | xorAddress =>
    obtain ⟨⟨⟨ipaddr, port⟩, rest'⟩, hread, heq⟩ := Option.map_eq_some_iff.mp h
    obtain ⟨rfl, -⟩ := length_of_ReadAddress hread
    obtain ⟨rfl, -⟩ := Prod.mk.inj heq
    by_cases hid : ∀ ip, ipaddr = .v6 ip → transaction_id.length = 12
    · left
      dsimp only
      rw [addressLength_GetXoredIP hid]
      refine ⟨hcreate, (addressLength_GetXoredIP hid).symm, fun ip hip => ?_⟩
      cases ipaddr with
      | v6 ip' => exact hid ip' rfl
      | v4 ip' => cases hip
      | unspec => cases hip
    · push Not at hid
      obtain ⟨ip, rfl, hne⟩ := hid
      refine Or.inr ⟨hne, xoredPort port, ?_⟩
      dsimp only
      rw [GetXoredIP, if_neg hne]
  | uint32 =>
    obtain ⟨⟨bits, rest'⟩, -, heq⟩ := Option.map_eq_some_iff.mp h
    obtain ⟨rfl, -⟩ := Prod.mk.inj heq
    exact Or.inl ⟨hcreate, trivial⟩
  | byteString =>
    obtain ⟨⟨bytes, rest'⟩, hread, heq⟩ := Option.map_eq_some_iff.mp h
    obtain ⟨rfl, -⟩ := Prod.mk.inj heq
    exact Or.inl ⟨hcreate, (length_of_ReadBytes hread).symm⟩
  | errorCode =>
    obtain ⟨⟨val, buf₁⟩, -, h⟩ := Option.bind_eq_some_iff.mp h
    obtain ⟨⟨reason, buf₂⟩, hread, heq⟩ := Option.bind_eq_some_iff.mp h
    obtain ⟨rfl, -⟩ := Prod.mk.inj (Option.some.inj heq)
    have hreason := length_of_ReadBytes hread
    have hfour : 4 ≤ length.toNat := by
      have hle : (4 : UInt16) ≤ length := UInt16.not_lt.mp hlength
      exact UInt16.le_iff_toNat_le.mp hle
    refine Or.inl ⟨hcreate, ?_, ?_⟩
    · exact error_class_lt val
    · dsimp only
      omega
  | uint16List =>
    obtain ⟨⟨attr_types, rest'⟩, hread, heq⟩ := Option.map_eq_some_iff.mp h
    obtain ⟨rfl, -⟩ := Prod.mk.inj heq
    have htypes := length_of_times hread
    have heven : length.toNat % 2 = 0 := by
      have := congrArg UInt16.toNat hlength
      rwa [UInt16.toNat_mod] at this
    refine Or.inl ⟨hcreate, ?_⟩
    show length.toNat = 2 * attr_types.length
    omega

theorem StunMessage.isTransactionId_transactionId {magic_cookie id_ : CString} (hmagic : magic_cookie.length = 4)
    (hid : id_.length = 12) : IsTransactionId (transactionId magic_cookie id_) := by
  unfold transactionId
  split
  · rename_i hcookie
    refine Or.inr ⟨?_, ?_⟩
    · rw [List.length_append, hmagic, hid]
      rfl
    · rwa [List.take_append_of_le_length (Nat.le_of_eq hmagic.symm), List.take_of_length_le (Nat.le_of_eq hmagic)]
  · exact Or.inl hid

/-- An attribute that a turn of the loop keeps. -/
theorem StunMessage.fits_of_ReadAttribute {transaction_id : CString} (hid : IsTransactionId transaction_id)
    {buf : List UInt8} {read : Option StunAttribute × List UInt8} (h : ReadAttribute transaction_id buf = some read)
    {attr : StunAttribute} (hattr : read.1 = some attr) :
    attr.Fits transaction_id ∨ transaction_id.length = kStunLegacyTransactionIdLength ∧ attr.IsLost := by
  obtain ⟨⟨attr_type, buf₁⟩, -, h⟩ := Option.bind_eq_some_iff.mp h
  obtain ⟨⟨attr_length, buf₂⟩, -, h⟩ := Option.bind_eq_some_iff.mp h
  dsimp only at h
  split at h
  · obtain ⟨_, -, rfl⟩ := Option.map_eq_some_iff.mp h
    cases hattr
  · rename_i kind hcreate
    obtain ⟨⟨attr', buf₃⟩, hread, rfl⟩ := Option.map_eq_some_iff.mp h
    obtain rfl := Option.some.inj hattr
    rcases StunAttribute.fits_of_Read hcreate hread with hfits | ⟨hne, hlost⟩
    · exact Or.inl hfits
    · exact Or.inr ⟨(hid.resolve_left hne).1, hlost⟩

/-- A packet that is read is as long as it says, and each attribute holds what its type and its length say. -/
theorem StunMessage.wellFormed_of_Read {data rest : List UInt8} {msg : StunMessage} (h : Read data = some (msg, rest)) :
    msg.type &&& 0x8000 = 0 ∧ IsTransactionId msg.transaction_id ∧ data.length = 20 + msg.length.toNat ∧ rest = [] ∧
      ∀ attr ∈ msg.attrs, attr.Fits msg.transaction_id ∨ msg.IsLegacy ∧ attr.IsLost := by
  obtain ⟨⟨type, buf₁⟩, h₁, h⟩ := Option.bind_eq_some_iff.mp h
  dsimp only at h
  split at h
  · cases h
  rename_i htype
  obtain ⟨⟨length, buf₂⟩, h₂, h⟩ := Option.bind_eq_some_iff.mp h
  obtain ⟨⟨magic_cookie, buf₃⟩, h₃, h⟩ := Option.bind_eq_some_iff.mp h
  obtain ⟨⟨id_, buf₄⟩, h₄, h⟩ := Option.bind_eq_some_iff.mp h
  dsimp only at h h₃ h₄
  obtain ⟨hlength, h⟩ := Option.ite_none_left_eq_some.mp h
  obtain ⟨attrs, hattrs, heq⟩ := Option.map_eq_some_iff.mp h
  obtain ⟨rfl, rfl⟩ := Prod.mk.inj heq
  have hid := isTransactionId_transactionId (length_of_ReadBytes h₃) (length_of_ReadBytes h₄)
  have hfits : ∀ read ∈ attrs, ∀ attr, read = some attr → attr.Fits (transactionId magic_cookie id_) ∨
      (transactionId magic_cookie id_).length = kStunLegacyTransactionIdLength ∧ attr.IsLost :=
    forall_mem_of_many (fun _ _ hread _ hattr => fits_of_ReadAttribute hid hread hattr) hattrs
  have hdata₁ := left_of_ReadUInt16 h₁
  have hdata₂ := left_of_ReadUInt16 h₂
  have hdata₃ := left_of_ReadBytes h₃
  have hdata₄ := left_of_ReadBytes h₄
  refine ⟨not_not.mp htype, hid, by dsimp only; omega, rfl, fun attr hmem => ?_⟩
  obtain ⟨attr', hmem', hsome⟩ := List.mem_filterMap.mp hmem
  rcases hfits attr' hmem' attr hsome with hfit | ⟨hlegacy, hlost⟩
  · exact Or.inl hfit
  · exact Or.inr ⟨decide_eq_true hlegacy, hlost⟩

theorem wellFormed_of_Read_sampleResponse :
    sampleResponse.Write.length = 20 + sampleResponse.length.toNat ∧
      ∀ attr ∈ sampleResponse.attrs, attr.Fits sampleResponse.transaction_id ∨ sampleResponse.IsLegacy ∧ attr.IsLost := by
  obtain ⟨-, -, hlength, -, hattrs⟩ := StunMessage.wellFormed_of_Read (StunMessage.Read_Write wellFormed_sampleResponse)
  exact ⟨hlength, hattrs⟩

end ProbICE.Stun
