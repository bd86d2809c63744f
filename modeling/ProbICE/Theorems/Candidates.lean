import ProbICE.Theorems.Links

/-! # Candidates as words

The ten words of a candidate stand for what its port has put into it: a candidate of a local port that is
read back from its words prints the same words again. -/

namespace ProbICE

variable [Host]

namespace Candidate

/-- The candidate that is read back from the words of `c`. -/
def reread (c : Candidate) : Candidate where
  name := c.name
  protocol := c.protocol
  address := .ofHostname c.address.IPAsString (portOfWord c.address.PortAsString)
  preference := Host.readFloat c.preference_str
  username := c.username
  password := c.password
  type := c.type
  network_name := c.network_name
  generation := Decimal.readUInt32 c.generation_str

@[simp] theorem length_words (c : Candidate) : c.words.length = 10 := rfl

theorem ofWords_words (before after : List CString) (c : Candidate) :
    ofWords (before ++ (c.words ++ after)) before.length = some c.reread := by
  have hget : ∀ k, (before ++ (c.words ++ after))[before.length + k]? = (c.words ++ after)[k]? := fun k => by
    rw [List.getElem?_append_right (Nat.le_add_right _ _), Nat.add_sub_cancel_left]
  have hfirst := hget 0
  rw [Nat.add_zero] at hfirst
  simp only [ofWords, hget, hfirst]
  rfl

theorem network_name_of_ofWords {argvs : List CString} {i : Nat} {c : Candidate} (h : ofWords argvs i = some c) :
    c.network_name ∈ argvs := by
  simp only [ofWords, Option.bind_eq_bind, Option.bind_eq_some_iff, Option.some.injEq] at h
  obtain ⟨_, -, _, -, _, -, _, -, _, -, _, -, _, -, _, -, network_name, hname, _, -, rfl⟩ := h
  exact List.mem_of_getElem? hname

end Candidate

namespace PPSession

/-- The candidates of a transport message are read back in order. -/
theorem decodeCandidates_words (content : CString) (cs : List Candidate) :
    decodeCandidates (content :: cs.flatMap Candidate.words) = some (cs.map Candidate.reread) := by
  have hlength : ∀ cs : List Candidate, (cs.flatMap Candidate.words).length = 10 * cs.length := by
    intro cs
    induction cs with
    | nil => rfl
    | cons c cs ih =>
      rw [List.flatMap_cons, List.length_append, ih, Candidate.length_words, List.length_cons]
      omega
  -- the words of the candidates that the loop has read are `before`
  have hloop : ∀ (cs : List Candidate) (before : List CString) (n : Nat), before.length = n * 10 + 1 →
      ((List.range' n cs.length).mapM fun i => Candidate.ofWords (before ++ cs.flatMap Candidate.words) (i * 10 + 1)) =
        some (cs.map Candidate.reread) := by
    intro cs
    induction cs with
    | nil =>
      intro before n h
      rfl
    | cons c cs ih =>
      intro before n h
      have hrest := ih (before ++ c.words) (n + 1) (by rw [List.length_append, h, Candidate.length_words]; omega)
      rw [List.append_assoc] at hrest
      have hone := Candidate.ofWords_words before (cs.flatMap Candidate.words) c
      rw [h] at hone
      rw [List.length_cons, List.range'_succ, List.mapM_cons, List.flatMap_cons, hone, hrest]
      rfl
  have hcount : nCandidates (content :: cs.flatMap Candidate.words) = cs.length := by
    rw [nCandidates, List.length_cons, hlength]
    omega
  rw [decodeCandidates, hcount, List.range_eq_range']
  exact hloop cs [content] 0 rfl

theorem network_name_mem {argvs : List CString} {cs : List Candidate} (h : decodeCandidates argvs = some cs) :
    ∀ c ∈ cs, c.network_name ∈ argvs := by
  have hall : ∀ (is : List Nat) (cs : List Candidate),
      (is.mapM fun i => Candidate.ofWords argvs (i * 10 + 1)) = some cs → ∀ c ∈ cs, c.network_name ∈ argvs := by
    intro is
    induction is with
    | nil =>
      intro cs h c hc
      obtain rfl := Option.some.inj h
      cases hc
    | cons i is ih =>
      intro cs h c hc
      rw [List.mapM_cons] at h
      obtain ⟨c', hc', h⟩ := Option.bind_eq_some_iff.mp h
      obtain ⟨cs', hcs', h⟩ := Option.bind_eq_some_iff.mp h
      obtain rfl := Option.some.inj h
      rcases List.mem_cons.mp hc with rfl | hc
      · exact Candidate.network_name_of_ofWords hc'
      · exact ih cs' hcs' c hc
  exact hall _ cs h

end PPSession

/-! ### Candidates of local ports -/

omit [Host] in
theorem plainText_print (n : Nat) : PlainText (Decimal.print n) := by
  intro b hb
  have hdigit := Decimal.isDigit_of_mem_print hb
  simp only [Decimal.isDigit, Bool.and_eq_true, decide_eq_true_eq, UInt8.le_iff_toNat_le] at hdigit
  refine ⟨lt_of_le_of_lt hdigit.2 (by decide), ?_, ?_⟩ <;>
    · rintro rfl
      exact absurd hdigit.2 (by decide)

omit [Host] in
theorem plainText_inet_ntop4 (ip : UInt32) : PlainText (inet_ntop4 ip) := by
  intro b hb
  rcases mem_inet_ntop4 hb with hdigit | rfl
  · simp only [Decimal.isDigit, Bool.and_eq_true, decide_eq_true_eq, UInt8.le_iff_toNat_le] at hdigit
    refine ⟨lt_of_le_of_lt hdigit.2 (by decide), ?_, ?_⟩ <;>
      · rintro rfl
        exact absurd hdigit.2 (by decide)
  · exact ⟨by decide, by decide, by decide⟩

/-- A character of the alphabet of `CreateRandomString`. -/
def isBase64 (b : UInt8) : Bool :=
  (0x41 ≤ b && b ≤ 0x5A) || (0x61 ≤ b && b ≤ 0x7A) || (0x30 ≤ b && b ≤ 0x39) || b == 0x2B || b == 0x2F

omit [Host] in
theorem plainText_base64 {w : CString} (h : ∀ b ∈ w, isBase64 b = true) : PlainText w := by
  intro b hb
  have hchar := h b hb
  simp only [isBase64, Bool.or_eq_true, Bool.and_eq_true, decide_eq_true_eq, beq_iff_eq, UInt8.le_iff_toNat_le,
    ← UInt8.toNat_inj] at hchar
  have hcolon : colon.toNat = 0x3A := rfl
  have hgreater : greater.toNat = 0x3E := rfl
  simp only [ne_eq, ← UInt8.toNat_inj, hcolon, hgreater]
  simp only [UInt8.reduceToNat] at hchar
  omega

/-- A candidate as a local port builds it: an IPv4 address and port, random strings for the username and the
    password, the protocol and the type of the port. Its preference prints as a text that is read back. -/
structure PortBuilt (c : Candidate) : Prop where
  name : PlainText c.name
  protocol : c.protocol ∈ [cstr "udp", cstr "tcp", cstr "ssltcp"]
  address : ∃ ip port, c.address = .ofIP (.v4 ip) port
  preference : PlainText c.preference_str
  preference_read : Host.showFloat (Host.readFloat c.preference_str) = c.preference_str
  username : ∀ b ∈ c.username, isBase64 b = true
  password : ∀ b ∈ c.password, isBase64 b = true
  type : c.type ∈ [cstr "local", cstr "stun", cstr "relay"]

namespace SocketAddress

omit [Host] in
theorem c_str_plain {w : CString} (h : 0 ∉ w) : c_str w = w :=
  List.takeWhile_eq_self_iff.mpr fun b hb => by simpa using fun heq : b = 0 => h (heq ▸ hb)

omit [Host] in
theorem zero_not_mem_print (n : Nat) : 0 ∉ Decimal.print n := fun h => absurd (Decimal.isDigit_of_mem_print h) (by decide)

omit [Host] in
theorem zero_not_mem_inet_ntop4 (ip : UInt32) : 0 ∉ inet_ntop4 ip := fun h => by
  rcases mem_inet_ntop4 h with hdigit | hdot
  · exact absurd hdigit (by decide)
  · exact absurd hdot (by decide)

theorem IPFromString_inet_ntop4 (ip : UInt32) : IPFromString (inet_ntop4 ip) = (true, .v4 ip) := by
  rw [IPFromString, c_str_plain (zero_not_mem_inet_ntop4 ip), inet_pton4_inet_ntop4]

omit [Host] in
theorem portOfWord_print (port : UInt16) : Candidate.portOfWord (Decimal.print port.toNat) = port.toNat := by
  have hport := port.toNat_lt
  rw [Candidate.portOfWord, c_str_plain (zero_not_mem_print _), Decimal.atoi_print (by omega)]

omit [Host] in
theorem portFits_print (port : UInt16) : portFits (Candidate.portOfWord (Decimal.print port.toNat)) = true := by
  have hport := port.toNat_lt
  rw [portOfWord_print, portFits]
  exact decide_eq_true ⟨by omega, by omega⟩

omit [Host] in
theorem ofInt_toNat (port : UInt16) : UInt16.ofInt port.toNat = port := by
  have hport := port.toNat_lt
  have hsmall : ((port.toNat : Int) % 2 ^ 16).toNat = port.toNat := by omega
  rw [UInt16.ofInt, hsmall]
  exact UInt16.ofNat_toNat

/-- The address is an IPv4 address, and no host name stands in its place. -/
structure IsIPv4 (a : SocketAddress) : Prop where
  ip : ∃ ip, a.ip = .v4 ip
  numeric : a.literal = true ∨ a.hostname = []

omit [Host] in
theorem isIPv4_ofIP (ip : UInt32) (port : UInt16) : (ofIP (.v4 ip) port).IsIPv4 := ⟨⟨ip, rfl⟩, .inr rfl⟩

theorem IPAsString_of_isIPv4 {a : SocketAddress} (h : a.IsIPv4) : ∃ ip, a.ip = .v4 ip ∧ a.IPAsString = inet_ntop4 ip := by
  obtain ⟨ip, hip⟩ := h.ip
  refine ⟨ip, hip, ?_⟩
  have hnumeric : ¬ (¬ a.literal = true ∧ a.hostname ≠ []) := fun hname =>
    h.numeric.elim hname.1 hname.2
  rw [IPAsString, if_neg hnumeric, hip]
  rfl

/-- The two texts of an IPv4 address give the address and the port back. -/
theorem ofHostname_texts {a : SocketAddress} (h : a.IsIPv4) :
    (ofHostname a.IPAsString (Candidate.portOfWord a.PortAsString)).ip = a.ip ∧
      (ofHostname a.IPAsString (Candidate.portOfWord a.PortAsString)).port = a.port := by
  obtain ⟨ip, hip, htext⟩ := IPAsString_of_isIPv4 h
  rw [htext, hip, ofHostname, IPFromString_inet_ntop4, PortAsString, portOfWord_print]
  exact ⟨rfl, ofInt_toNat a.port⟩

end SocketAddress

namespace Candidate

/-- What the other side is to know of a candidate: its fields, with the preference as it is printed. -/
def row (c : Candidate) :
    CString × CString × CString × IPAddress × UInt16 × CString × CString × CString × CString × UInt32 :=
  (c.name, c.protocol, c.preference_str, c.address.ip, c.address.port, c.username, c.password, c.type, c.network_name,
    c.generation)

/-- A candidate with an IPv4 address and a preference whose text is read back. -/
theorem row_reread {c : Candidate} (haddress : c.address.IsIPv4)
    (hpreference : Host.showFloat (Host.readFloat c.preference_str) = c.preference_str) : c.reread.row = c.row := by
  obtain ⟨hip, hport⟩ := SocketAddress.ofHostname_texts haddress
  have hgeneration : Decimal.readUInt32 c.generation_str = c.generation := Decimal.readUInt32_print c.generation
  have hread : c.reread.preference_str = c.preference_str := hpreference
  rw [row, row, hread]
  simp only [reread, hip, hport, hgeneration]

/-- Every word of a candidate but the name of its network is plain text. -/
theorem plainText_words {c : Candidate} (h : PortBuilt c) : ∀ w ∈ c.words, PlainText w ∨ w = c.network_name := by
  obtain ⟨ip, port, haddress⟩ := h.address
  have hliterals : ∀ w ∈ [cstr "udp", cstr "tcp", cstr "ssltcp", cstr "local", cstr "stun", cstr "relay"], PlainText w := by
    decide
  have hprotocol : PlainText c.protocol := hliterals _ (List.mem_append_left [cstr "local", cstr "stun", cstr "relay"] h.protocol)
  have htype : PlainText c.type := hliterals _ (List.mem_append_right [cstr "udp", cstr "tcp", cstr "ssltcp"] h.type)
  intro w hw
  simp only [words, haddress, List.mem_cons, List.not_mem_nil, or_false] at hw
  rcases hw with rfl | rfl | rfl | rfl | rfl | rfl | rfl | rfl | rfl | rfl
  · exact .inl h.name
  · exact .inl hprotocol
  · exact .inl h.preference
  · exact .inl (plainText_inet_ntop4 ip)
  · exact .inl (plainText_print _)
  · exact .inl (plainText_base64 h.username)
  · exact .inl (plainText_base64 h.password)
  · exact .inl htype
  · exact .inr rfl
  · exact .inl (plainText_print _)

end Candidate

theorem PortBuilt.row_reread {c : Candidate} (h : PortBuilt c) : c.reread.row = c.row := by
  obtain ⟨ip, port, haddress⟩ := h.address
  exact Candidate.row_reread (haddress ▸ SocketAddress.isIPv4_ofIP ip port) h.preference_read

end ProbICE
