import ProbICE.Theorems.Acceptance
import ProbICE.Theorems.Codec

/-! # The port text of a candidate

`atoi` makes an `int` of any text, `SetPort` asserts that it fits a port and keeps its low 16 bits, and `VerifyCandidate`
sees what is left. So a text that is no number, or the number of no port, is refused only when the port that is left is
one that never passes. -/

namespace ProbICE

/-- The port that a text stands for, if it is a decimal number from 1 to 65535 and nothing else. -/
def portNumber (w : CString) : Option Nat :=
  (Decimal.parse w).bind fun n => if 1 ≤ n ∧ n ≤ 65535 then some n.toNat else none

/-- The port that is read from the text fits, and it is one that `VerifyCandidate` lets pass for no address. -/
def NeverPasses (w : CString) : Prop :=
  SocketAddress.portFits (Candidate.portOfWord w) = true ∧ Candidate.portOfWord w < 1024 ∧
    Candidate.portOfWord w ≠ 80 ∧ Candidate.portOfWord w ≠ 443

instance (w : CString) : Decidable (NeverPasses w) := inferInstanceAs (Decidable (_ ∧ _))

theorem portOfWord_of_parse {w : CString} {n : Int} (h : Decimal.parse w = some n) (hmin : -2 ^ 31 ≤ n) (hmax : n < 2 ^ 31) :
    Candidate.portOfWord w = n := by
  have hzero : 0 ∉ w := fun hmem => by
    have hbyte := Decimal.mem_of_parse h 0 hmem
    revert hbyte
    decide
  rw [Candidate.portOfWord, SocketAddress.c_str_plain hzero, Decimal.atoi_of_parse h hmin hmax]

/-- The text of a port is read as it stands. -/
theorem portOfWord_of_portNumber {w : CString} {p : Nat} (h : portNumber w = some p) :
    Candidate.portOfWord w = p ∧ 1 ≤ p ∧ p ≤ 65535 := by
  obtain ⟨n, hparse, hrange⟩ := Option.bind_eq_some_iff.mp h
  obtain ⟨⟨hmin, hmax⟩, hp⟩ := Option.ite_none_right_eq_some.mp hrange
  obtain rfl := Option.some.inj hp
  rw [portOfWord_of_parse hparse (by omega) (by omega)]
  omega

/-- A port that fits is kept. -/
theorem toNat_ofInt_of_fits {n : Int} (h : SocketAddress.portFits n = true) : ((UInt16.ofInt n).toNat : Int) = n := by
  obtain ⟨hmin, hmax⟩ := of_decide_eq_true h
  have hsmall : (n % 2 ^ 16).toNat = n.toNat := by omega
  rw [UInt16.ofInt, hsmall, UInt16.toNat_ofNat']
  omega

section
variable [Host]

/-- What `VerifyCandidate` asks of a port. -/
def SocketAddress.AllowsPort (a : SocketAddress) (port : Nat) : Prop :=
  1024 ≤ port ∨ (port = 80 ∨ port = 443) ∧ a.IsPrivateIP = false

theorem Transport.VerifyCandidate_port {t : Transport} {cand : Candidate} (h : t.VerifyCandidate cand = true) :
    cand.address.AllowsPort cand.address.port.toNat := by
  unfold VerifyCandidate at h
  split at h
  · cases h
  · split at h
    · cases h
    · simp only at h
      split at h
      · split at h
        · cases h
        · rename_i hport
          refine .inr ⟨?_, by simpa using h⟩
          simp only [ne_eq, ← UInt16.toNat_inj, UInt16.reduceToNat] at hport
          omega
      · rename_i hport
        rw [UInt16.lt_iff_toNat_lt] at hport
        simp only [UInt16.reduceToNat] at hport
        exact .inl (by omega)

theorem Candidate.port_of_ofWords {argvs : List CString} {i : Nat} {cand : Candidate} {w : CString}
    (h : ofWords argvs i = some cand) (hw : argvs[i + 4]? = some w) : cand.address.port = UInt16.ofInt (portOfWord w) := by
  simp only [ofWords, hw, Option.bind_eq_bind, Option.bind_some] at h
  obtain ⟨hostname, -, h⟩ := Option.bind_eq_some_iff.mp h
  simp only [Option.bind_eq_some_iff, Option.some.injEq] at h
  obtain ⟨name, -, protocol, -, preference, -, username, -, password, -, type, -, network_name, -, generation, -, rfl⟩ := h
  rfl

namespace PPSession

/-- The text of the port of candidate `i` in the arguments of a transport message. -/
structure PortField (argvs : List CString) (i : Nat) (w : CString) : Prop where
  index : i < nCandidates argvs
  word : argvs[i * 10 + 1 + 4]? = some w

/-- The batch is taken: its content has a proxy, and all its candidates are welcome and name channels that the transport
    has not lost. -/
def TakesBatch (s : PPSession) (content : CString) (candidates : List Candidate) : Prop :=
  ∃ p, s.transports[content]? = some p ∧
    ∀ cand ∈ candidates, Welcome Transport.VerifyCandidate p cand ∧ ¬ p.Lost cand.name

/-- The port text `w` of candidate `i` is taken literally or refused. `r` is the session after the message and the answer
    of the handler. -/
structure PortTaken (s : PPSession) (argvs : List CString) (content : CString) (i : Nat) (w : CString)
    (r : PPSession × Bool) : Prop where
  /-- When the message is accepted, the transport is given the very port that the text stands for. -/
  literal : r.2 = true → ∃ port cand new, portNumber w = some port ∧ r.1.posted content = s.posted content ++ new ∧
    new[i]? = some (.remoteCandidate cand) ∧ cand.address.port.toNat = port ∧ cand.address.AllowsPort port
  /-- A text that stands for no port has the message refused, and no `ASSERT` fails for it. -/
  refused : portNumber w = none → r.2 = false ∧ i ∉ badPorts argvs

section ports
variable {s : PPSession} {content : CString} {rest : List CString}

theorem OnTransportInfoMessage_made (hmade : ∀ (k : CString) p, s.transports[k]? = some p → p.Made)
    {candidates : List Candidate} (hdecode : decodeCandidates (content :: rest) = some candidates) :
    ((s.OnTransportInfoMessage { type := .transportInfo, argvs := content :: rest }).2 = true ↔
        s.TakesBatch content candidates) ∧
      (s.OnTransportInfoMessage { type := .transportInfo, argvs := content :: rest }).1.posted content =
        s.posted content ++
          if (s.OnTransportInfoMessage { type := .transportInfo, argvs := content :: rest }).2 = true then
            candidates.map .remoteCandidate
          else [] := by
  obtain ⟨u, hu, hrun⟩ := OnTransportInfoMessageBy_eq Transport.VerifyCandidate s hdecode
  have hmade' : ∀ (k : CString) p, u.transports[k]? = some p → p.Made := hu ▸ hmade
  have hanswer := answer_OnRemoteCandidatesBy Transport.VerifyCandidate hmade' { content_name := content, candidates }
  have hposted := posted_OnRemoteCandidatesBy Transport.VerifyCandidate hmade' { content_name := content, candidates } content
  rw [← OnTransportInfoMessageBy_VerifyCandidate, hrun]
  rw [hu] at hanswer
  rw [posted, posted, hu] at hposted
  rw [posted, posted, hposted]
  exact ⟨hanswer, by simp⟩

theorem candidate_of_portField {candidates : List Candidate} (hdecode : decodeCandidates (content :: rest) = some candidates)
    {i : Nat} {w : CString} (hfield : PortField (content :: rest) i w) :
    ∃ cand, candidates[i]? = some cand ∧ cand.address.port = UInt16.ofInt (Candidate.portOfWord w) := by
  have hget := getElem?_mapM hdecode i
  rw [List.getElem?_range hfield.index, Option.bind_some] at hget
  obtain ⟨cand, hcand⟩ := Option.isSome_iff_exists.mp (ofWords_isSome (lt_of_nCandidates hfield.index))
  exact ⟨cand, hget.trans hcand, Candidate.port_of_ofWords hcand hfield.word⟩

/-- The text of a port is taken literally or refused exactly if it stands for a port, or if the number that is read from it
    fits a port and the message is refused in any case. -/
theorem portTaken_iff (hmade : ∀ (k : CString) p, s.transports[k]? = some p → p.Made) {candidates : List Candidate}
    (hdecode : decodeCandidates (content :: rest) = some candidates) {i : Nat} {w : CString}
    (hfield : PortField (content :: rest) i w) :
    s.PortTaken (content :: rest) content i w
        (s.OnTransportInfoMessage { type := .transportInfo, argvs := content :: rest }) ↔
      (portNumber w).isSome = true ∨
        SocketAddress.portFits (Candidate.portOfWord w) = true ∧ ¬ s.TakesBatch content candidates := by
  obtain ⟨hanswer, hposted⟩ := OnTransportInfoMessage_made hmade hdecode
  set r := s.OnTransportInfoMessage { type := .transportInfo, argvs := content :: rest }
  have hbad : i ∉ badPorts (content :: rest) ↔ SocketAddress.portFits (Candidate.portOfWord w) = true := by
    rw [badPorts, List.mem_filter, hfield.word, Option.any_some, List.mem_range]
    simp [hfield.index]
  constructor
  · intro h
    rcases hnumber : portNumber w with _ | port
    · obtain ⟨hno, hfits⟩ := h.refused hnumber
      exact .inr ⟨hbad.mp hfits, fun htakes => by simp [hanswer.mpr htakes] at hno⟩
    · exact .inl rfl
  · rintro (hsome | ⟨hfits, hno⟩)
    · obtain ⟨port, hport⟩ := Option.isSome_iff_exists.mp hsome
      refine ⟨fun hyes => ?_, fun hnone => by simp [hnone] at hsome⟩
      obtain ⟨hread, hmin, hmax⟩ := portOfWord_of_portNumber hport
      obtain ⟨cand, hcand, hword⟩ := candidate_of_portField hdecode hfield
      obtain ⟨p, hp, hgood⟩ := hanswer.mp hyes
      have hkept : cand.address.port.toNat = port := by
        have hfits : SocketAddress.portFits (Candidate.portOfWord w) = true := by
          rw [hread]
          exact decide_eq_true ⟨by omega, by omega⟩
        have hsame := toNat_ofInt_of_fits hfits
        rw [← hword, hread] at hsame
        exact_mod_cast hsame
      have hallowed := Transport.VerifyCandidate_port (hgood cand (List.mem_of_getElem? hcand)).1.1
      rw [if_pos hyes] at hposted
      exact ⟨port, cand, _, hport, hposted, by rw [List.getElem?_map, hcand, Option.map_some], hkept, hkept ▸ hallowed⟩
    · have hrefused : r.2 = false := Bool.eq_false_iff.mpr fun hyes => hno (hanswer.mp hyes)
      exact ⟨fun hyes => by simp [hrefused] at hyes, fun _ => ⟨hrefused, hbad.mpr hfits⟩⟩

end ports

/-! ### A message for each text -/

/-- A session with the channel of the prober. -/
def channelled : List SessionEvent := [.createChannel (cstr "data") (cstr "prober")]

/-- The words of a candidate with a public address and the port text `w`. -/
def publicWords (w : CString) : List CString :=
  [cstr "prober", cstr "udp", cstr "1", cstr "8.8.8.8", w, cstr "user", cstr "password", cstr "local", cstr "eth0", cstr "0"]

def publicCandidate (w : CString) : Candidate where
  name := cstr "prober"
  protocol := cstr "udp"
  address := .ofHostname (cstr "8.8.8.8") (Candidate.portOfWord w)
  preference := Host.readFloat (cstr "1")
  username := cstr "user"
  password := cstr "password"
  type := cstr "local"
  network_name := cstr "eth0"
  generation := Decimal.readUInt32 (cstr "0")

section sample
variable (w : CString)

omit [Host] in
theorem nCandidates_publicWords : nCandidates (cstr "data" :: publicWords w) = 1 := by simp [nCandidates, publicWords]

theorem decodeCandidates_publicWords : decodeCandidates (cstr "data" :: publicWords w) = some [publicCandidate w] := by
  have hwords : Candidate.ofWords (cstr "data" :: publicWords w) 1 = some (publicCandidate w) := rfl
  rw [decodeCandidates, nCandidates_publicWords]
  simp [List.range_succ, hwords]

omit [Host] in
theorem portField_publicWords : PortField (cstr "data" :: publicWords w) 0 w where
  index := by simp [nCandidates_publicWords]
  word := rfl

/-- Where local addresses are allowed, nothing but the port of a public address matters. -/
theorem VerifyCandidate_publicCandidate {t : Transport} (ht : t.allow_local_ips = true)
    (hfits : SocketAddress.portFits (Candidate.portOfWord w) = true) :
    t.VerifyCandidate (publicCandidate w) = true ↔ ¬ NeverPasses w := by
  have hip : inet_pton4 (c_str (cstr "8.8.8.8")) = some 0x08080808 := by decide
  have haddress : (publicCandidate w).address =
      ⟨cstr "8.8.8.8", .v4 0x08080808, UInt16.ofInt (Candidate.portOfWord w), true⟩ := by
    rw [publicCandidate, SocketAddress.ofHostname, IPFromString, hip]
    rfl
  have hport := toNat_ofInt_of_fits hfits
  have hany : SocketAddress.IsAny (publicCandidate w).address = false := by rw [haddress]; rfl
  have hprivate : SocketAddress.IsPrivateIP (publicCandidate w).address = false := by rw [haddress]; rfl
  rw [Transport.VerifyCandidate, if_neg (by simp [ht]), if_neg (by simp [hany])]
  simp only [hprivate, NeverPasses, hfits, true_and]
  rw [haddress]
  simp only [UInt16.lt_iff_toNat_lt, ne_eq, ← UInt16.toNat_inj, UInt16.reduceToNat]
  split
  · split
    · simp only [Bool.false_eq_true, false_iff, not_not]
      omega
    · simp only [Bool.false_eq_true, not_false_eq_true, decide_true, true_iff]
      omega
  · simp only [true_iff]
    omega

theorem takesBatch_publicWords (hfits : SocketAddress.portFits (Candidate.portOfWord w) = true) (h : ¬ NeverPasses w) :
    ((new true).run channelled).TakesBatch (cstr "data") [publicCandidate w] := by
  obtain ⟨p, hp, hchannel, hlost, hallow⟩ : ∃ p, ((new true).run channelled).transports[cstr "data"]? = some p ∧
      (p.GetChannel (cstr "prober")).isSome = true ∧ ¬ p.Lost (cstr "prober") ∧
      p.CompleteNegotiation.1.transport.allow_local_ips = true := ⟨_, rfl, rfl, Bool.false_ne_true, rfl⟩
  refine ⟨p, hp, fun cand hcand => ?_⟩
  obtain rfl := List.mem_singleton.mp hcand
  exact ⟨⟨(VerifyCandidate_publicCandidate w hallow hfits).mpr h, .inl hchannel⟩, hlost⟩

end sample

/-- A candidate whose port never passes spoils its message. -/
theorem not_takesBatch {s : PPSession} {content : CString} {rest : List CString} {candidates : List Candidate}
    (hdecode : decodeCandidates (content :: rest) = some candidates) {i : Nat} {w : CString}
    (hfield : PortField (content :: rest) i w) (hnever : NeverPasses w) : ¬ s.TakesBatch content candidates := by
  rintro ⟨p, -, hgood⟩
  obtain ⟨hfits, hlow, hno⟩ := hnever
  obtain ⟨cand, hcand, hword⟩ := candidate_of_portField hdecode hfield
  have hallowed := Transport.VerifyCandidate_port (hgood cand (List.mem_of_getElem? hcand)).1.1
  have hport := toNat_ofInt_of_fits hfits
  rw [← hword] at hport
  rcases hallowed with hhigh | ⟨hknown, -⟩
  · omega
  · omega

/-- `portTaken_iff` in every state that a session comes to. -/
theorem portTaken_run_iff {allow_local_ips : Bool} {es : List SessionEvent} (hes : ∀ e ∈ es, e.Proper) {content : CString}
    {rest : List CString} {i : Nat} {w : CString} (hfield : PortField (content :: rest) i w) :
    ∃ candidates, decodeCandidates (content :: rest) = some candidates ∧
      (((new allow_local_ips).run es).PortTaken (content :: rest) content i w
          (((new allow_local_ips).run es).OnTransportInfoMessage { type := .transportInfo, argvs := content :: rest }) ↔
        (portNumber w).isSome = true ∨ SocketAddress.portFits (Candidate.portOfWord w) = true ∧
          ¬ ((new allow_local_ips).run es).TakesBatch content candidates) := by
  obtain ⟨candidates, hdecode⟩ := Option.isSome_iff_exists.mp (decodeCandidates_isSome (content :: rest))
  exact ⟨candidates, hdecode, portTaken_iff (made_run hes) hdecode hfield⟩

/-- The text of a port in a message is taken literally or refused exactly if it stands for a port, or if the number that is
    read from it fits a port and the message is refused in any case. It is so in every message that comes to a session if
    and only if the text stands for a port, or the port that is read from it never passes. -/
theorem port_texts (w : CString) :
    (∀ (allow_local_ips : Bool) (es : List SessionEvent), (∀ e ∈ es, e.Proper) → ∀ content rest i,
      PortField (content :: rest) i w → ∃ candidates, decodeCandidates (content :: rest) = some candidates ∧
        (((new allow_local_ips).run es).PortTaken (content :: rest) content i w
            (((new allow_local_ips).run es).OnTransportInfoMessage { type := .transportInfo, argvs := content :: rest }) ↔
          (portNumber w).isSome = true ∨ SocketAddress.portFits (Candidate.portOfWord w) = true ∧
            ¬ ((new allow_local_ips).run es).TakesBatch content candidates)) ∧
    ((∀ (allow_local_ips : Bool) (es : List SessionEvent), (∀ e ∈ es, e.Proper) → ∀ content rest i,
      PortField (content :: rest) i w → ((new allow_local_ips).run es).PortTaken (content :: rest) content i w
        (((new allow_local_ips).run es).OnTransportInfoMessage { type := .transportInfo, argvs := content :: rest })) ↔
      (portNumber w).isSome = true ∨ NeverPasses w) := by
  refine ⟨fun allow_local_ips es hes content rest i => portTaken_run_iff hes, fun h => ?_,
    fun h allow_local_ips es hes content rest i hfield => ?_⟩
  · -- the message that carries nothing but this port
    have hproper : ∀ e ∈ channelled, e.Proper := by simp [channelled, SessionEvent.Proper]
    have hfield := portField_publicWords w
    obtain ⟨candidates, hdecode, hiff⟩ := portTaken_run_iff hproper hfield
    obtain rfl := Option.some.inj ((decodeCandidates_publicWords w).symm.trans hdecode)
    refine (hiff.mp (h true channelled hproper _ _ 0 hfield)).imp_right fun ⟨hfits, hno⟩ => ?_
    by_contra hnever
    exact hno (takesBatch_publicWords w hfits hnever)
  · obtain ⟨candidates, hdecode, hiff⟩ := portTaken_run_iff hes hfield
    exact hiff.mpr (h.imp_right fun hnever => ⟨hnever.1, not_takesBatch hdecode hfield hnever⟩)

end PPSession

end

namespace PPSession
attribute [local instance] Host.plain

theorem port_texts_accepted :
    (((new true).run acceptedInitiate).OnTransportInfoMessage
        { type := .transportInfo, argvs := cstr "data" :: goodCandidate }).2 = true ∧
      ((new true).run acceptedInitiate).PortTaken (cstr "data" :: goodCandidate) (cstr "data") 0 (cstr "5000")
        (((new true).run acceptedInitiate).OnTransportInfoMessage
          { type := .transportInfo, argvs := cstr "data" :: goodCandidate }) := by
  have hfield : PortField (cstr "data" :: goodCandidate) 0 (cstr "5000") := ⟨by decide, by decide⟩
  exact ⟨by decide, (port_texts (cstr "5000")).2.mpr (.inl (by decide)) true acceptedInitiate proper_acceptedInitiate _ _ 0
    hfield⟩

/-- The port 70000 becomes 4464, and the candidate is taken with it. -/
theorem large_port_wraps :
    ¬ ((new true).run acceptedInitiate).PortTaken (cstr "data" :: publicWords (cstr "70000")) (cstr "data") 0 (cstr "70000")
      (((new true).run acceptedInitiate).OnTransportInfoMessage
        { type := .transportInfo, argvs := cstr "data" :: publicWords (cstr "70000") }) := by
  intro h
  have hnone : portNumber (cstr "70000") = none := by decide
  have haccepted : (((new true).run acceptedInitiate).OnTransportInfoMessage
      { type := .transportInfo, argvs := cstr "data" :: publicWords (cstr "70000") }).2 = true := by decide
  rw [(h.refused hnone).1] at haccepted
  cases haccepted

end PPSession

end ProbICE
