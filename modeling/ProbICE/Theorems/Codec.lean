import ProbICE.Theorems.Assertions
import ProbICE.Theorems.Candidates

/-! # The arguments of a transport message

`SendTransportInfoMessage` pushes ten words for a candidate, and `OnTransportInfoMessage` reads the word
`k` of the candidate `i` at `i * 10 + 1 + k`. Between the two the words are whole strings, so it does not
matter what they hold, as long as the port in each candidate fits. -/

namespace ProbICE

theorem getElem?_mapM {α β : Type} {f : α → Option β} {xs : List α} {ys : List β} (h : xs.mapM f = some ys) (i : Nat) :
    ys[i]? = (xs[i]?).bind f := by
  induction xs generalizing ys i with
  | nil =>
    obtain rfl := Option.some.inj h
    rfl
  | cons x xs ih =>
    rw [List.mapM_cons] at h
    obtain ⟨y, hy, h⟩ := Option.bind_eq_some_iff.mp h
    obtain ⟨ys', hys, h⟩ := Option.bind_eq_some_iff.mp h
    obtain rfl := Option.some.inj h
    cases i with
    | zero => simp [hy]
    | succ i => simpa using ih hys i

theorem length_mapM {α β : Type} {f : α → Option β} {xs : List α} {ys : List β} (h : xs.mapM f = some ys) :
    ys.length = xs.length := by
  induction xs generalizing ys with
  | nil =>
    obtain rfl := Option.some.inj h
    rfl
  | cons x xs ih =>
    rw [List.mapM_cons] at h
    obtain ⟨y, -, h⟩ := Option.bind_eq_some_iff.mp h
    obtain ⟨ys', hys, h⟩ := Option.bind_eq_some_iff.mp h
    obtain rfl := Option.some.inj h
    rw [List.length_cons, List.length_cons, ih hys]

section
variable [Host]

/-- A candidate is made of the ten words that begin at its place and of nothing else. -/
theorem Candidate.ofWords_window (argvs : List CString) (i : Nat) :
    ofWords argvs i = ofWords ((argvs.drop i).take 10) 0 := by
  have hget : ∀ k < 10, ((argvs.drop i).take 10)[0 + k]? = argvs[i + k]? := fun k hk => by
    rw [Nat.zero_add, List.getElem?_take_of_lt hk, List.getElem?_drop]
  have hfirst := hget 0 (by decide)
  rw [Nat.add_zero, Nat.add_zero] at hfirst
  simp only [ofWords, hget _ (show 1 < 10 by decide), hget _ (show 2 < 10 by decide), hget _ (show 3 < 10 by decide),
    hget _ (show 4 < 10 by decide), hget _ (show 5 < 10 by decide), hget _ (show 6 < 10 by decide),
    hget _ (show 7 < 10 by decide), hget _ (show 8 < 10 by decide), hget _ (show 9 < 10 by decide), hfirst]

namespace PPSession

/-- The `j`-th candidate of a message is the one made of the words from `10 * j + 1` on. -/
theorem getElem?_decodeCandidates {argvs : List CString} {cs : List Candidate} (h : decodeCandidates argvs = some cs)
    (j : Nat) : cs[j]? = if j < nCandidates argvs then Candidate.ofWords ((argvs.drop (10 * j + 1)).take 10) 0 else none := by
  rw [getElem?_mapM h]
  by_cases hj : j < nCandidates argvs
  · rw [if_pos hj, List.getElem?_range hj, Option.bind_some, Candidate.ofWords_window, Nat.mul_comm]
  · rw [if_neg hj, List.getElem?_eq_none (by simpa using hj), Option.bind_none]

/-- The loop makes as many candidates as there are whole groups of ten words behind the first word. -/
theorem length_decodeCandidates {argvs : List CString} {cs : List Candidate} (h : decodeCandidates argvs = some cs) :
    cs.length = nCandidates argvs := (length_mapM h).trans List.length_range

/-- The words of the `i`-th candidate stand where the loop reads them. -/
theorem window_words (content : CString) (cs : List Candidate) {i : Nat} {c : Candidate} (h : cs[i]? = some c) :
    ((content :: cs.flatMap Candidate.words).drop (10 * i + 1)).take 10 = c.words := by
  rw [List.drop_succ_cons]
  induction cs generalizing i with
  | nil => cases h
  | cons c' cs ih =>
    cases i with
    | zero =>
      obtain rfl := Option.some.inj h
      exact List.take_left' c'.length_words
    | succ i =>
      rw [List.flatMap_cons, Nat.mul_succ, Nat.add_comm, ← List.drop_drop, List.drop_left' c'.length_words]
      exact ih h

/-- The port of a candidate prints as a number that fits. -/
theorem badPorts_words (content : CString) (cs : List Candidate) :
    badPorts (content :: cs.flatMap Candidate.words) = [] := by
  rw [badPorts, List.filter_eq_nil_iff]
  intro i hi
  rw [List.mem_range, ← length_decodeCandidates (decodeCandidates_words content cs), List.length_map] at hi
  have hwindow := window_words content cs (List.getElem?_eq_getElem hi)
  have hport : (content :: cs.flatMap Candidate.words)[i * 10 + 1 + 4]? = some cs[i].address.PortAsString := by
    have hget := congrArg (fun ws : List CString => ws[4]?) hwindow
    simp only [List.getElem?_take_of_lt (show 4 < 10 by decide), List.getElem?_drop] at hget
    rw [Nat.mul_comm i 10]
    exact hget
  rw [hport]
  simp [SocketAddress.PortAsString, SocketAddress.portFits_print]

/-- `OnTransportInfoMessage` hands the decoded candidates on, behind a report for each port that does not fit. -/
theorem OnTransportInfoMessage_decoded (s : PPSession) {msg : PPMessage} {content : CString}
    (hcontent : msg.argvs[0]? = some content) {cs : List Candidate} (hcs : decodeCandidates msg.argvs = some cs) :
    s.OnTransportInfoMessage msg =
      ((badPorts msg.argvs).foldl (fun s _ => s.emit (.assertFailed .portFits)) s).OnRemoteCandidates
        { content_name := content, candidates := cs } := by
  rw [OnTransportInfoMessage, withContent, hcontent]
  simp only [hcs]

/-- The loop of `OnTransportInfoMessage` ends, with a candidate for each ten words behind the first, made of its own
    ten words, and the candidates are handed on. -/
structure Decoded (s : PPSession) (msg : PPMessage) (content : CString) (cs : List Candidate) : Prop where
  content_name : msg.argvs[0]? = some content
  candidates : decodeCandidates msg.argvs = some cs
  number : cs.length = (msg.argvs.length - 1) / 10
  window : ∀ j < cs.length, cs[j]? = Candidate.ofWords ((msg.argvs.drop (10 * j + 1)).take 10) 0
  handed : s.OnTransportInfoMessage msg = s.OnRemoteCandidates { content_name := content, candidates := cs }

/-- What comes out of `OnRemoteCandidates` is what the negotiation posts. -/
theorem out_OnRemoteCandidates (s : PPSession) (p2pInfo : P2PInfo) :
    (s.OnRemoteCandidates p2pInfo).1.out = s.out ++ ((s.transports[p2pInfo.content_name]?).map fun p =>
      p.CompleteNegotiation.2.map (TransportEffect.ofContent p2pInfo.content_name)).getD [] := by
  have hout : ∀ (u : PPSession) (f : TransportProxy → TransportProxy),
      (u.onProxy p2pInfo.content_name fun p => (f p, [])).out = u.out := by
    intro u f
    rcases hp : u.transports[p2pInfo.content_name]? with _ | p
    · rw [onProxy_of_none u _ hp]
    · rw [onProxy_of_some u _ hp, List.map_nil, List.append_nil]
  rcases hp : s.transports[p2pInfo.content_name]? with _ | p
  · have hnone : s.GetTransportProxy p2pInfo.content_name = none := hp
    rw [OnRemoteCandidates, hnone, Option.map_none, Option.getD_none, List.append_nil]
  · have hsome : s.GetTransportProxy p2pInfo.content_name = some p := hp
    have hnegotiated : (s.onProxy p2pInfo.content_name TransportProxy.CompleteNegotiation).out =
        s.out ++ p.CompleteNegotiation.2.map (TransportEffect.ofContent p2pInfo.content_name) := by
      rw [onProxy_of_some s p2pInfo.content_name hp]
    rw [Option.map_some, Option.getD_some, ← hnegotiated, OnRemoteCandidates, hsome]
    dsimp only
    split
    · rfl
    · split
      · exact hout _ _
      · rfl

/-- A failed `ASSERT` of the loop shows in what comes out. -/
theorem OnRemoteCandidates_behind_badPorts (s : PPSession) (is : List Nat) (p2pInfo : P2PInfo) :
    (is.foldl (fun s _ => s.emit (.assertFailed .portFits)) s).OnRemoteCandidates p2pInfo = s.OnRemoteCandidates p2pInfo ↔
      is = [] := by
  constructor
  · intro h
    have hout := congrArg (fun r => r.1.out.length) h
    simp only [foldl_badPorts, out_OnRemoteCandidates, List.length_append, List.length_map] at hout
    exact List.eq_nil_of_length_eq_zero (by omega)
  · rintro rfl
    rfl

/-- The two sides of the argument codec. A message about candidates with IPv4 addresses, whose preferences are
    read back as they are printed, is decoded to its content name and to candidates that agree in every field. A
    message of any length is decoded, without a read behind its end and with the candidates made of their own words, by a
    build with live `ASSERT`s exactly when the ports in it fit. -/
theorem transport_info_codec (s : PPSession) :
    (∀ (content : CString) (cs : List Candidate),
      (∀ c ∈ cs, c.address.IsIPv4 ∧ Host.showFloat (Host.readFloat c.preference_str) = c.preference_str) →
        ∃ cs', cs'.map Candidate.row = cs.map Candidate.row ∧
          s.OnTransportInfoMessage (transportInfo content cs) =
            s.OnRemoteCandidates { content_name := content, candidates := cs' }) ∧
    ∀ msg : PPMessage, 1 ≤ msg.argvs.length → ((∃ content cs, s.Decoded msg content cs) ↔ badPorts msg.argvs = []) := by
  refine ⟨fun content cs hcs => ?_, fun msg hmsg => ?_⟩
  · refine ⟨cs.map Candidate.reread, ?_, ?_⟩
    · rw [List.map_map]
      exact List.map_congr_left fun c hc => Candidate.row_reread (hcs c hc).1 (hcs c hc).2
    · have hdecoded := @OnTransportInfoMessage_decoded _ s (transportInfo content cs) content rfl _
        (decodeCandidates_words content cs)
      rw [hdecoded, transportInfo, badPorts_words]
      rfl
  · constructor
    · rintro ⟨content, cs, h⟩
      have hhanded := (s.OnTransportInfoMessage_decoded h.content_name h.candidates).symm.trans h.handed
      exact (s.OnRemoteCandidates_behind_badPorts _ _).mp hhanded
    · intro hports
      obtain ⟨cs, hcs⟩ := Option.isSome_iff_exists.mp (decodeCandidates_isSome msg.argvs)
      have hcontent : msg.argvs[0]? = some msg.argvs[0] := List.getElem?_eq_getElem hmsg
      have hlength : cs.length = nCandidates msg.argvs := length_decodeCandidates hcs
      refine ⟨msg.argvs[0], cs, hcontent, hcs, hlength, fun j hj => ?_, ?_⟩
      · rw [getElem?_decodeCandidates hcs, if_pos (hlength ▸ hj)]
      · rw [s.OnTransportInfoMessage_decoded hcontent hcs, hports]
        rfl

end PPSession

end

/-! ### A candidate with delimiters -/

namespace PPSession
attribute [local instance] Host.plain

/-- A candidate whose strings hold the delimiters of a frame. -/
def punctuated : Candidate where
  name := cstr "a:b"
  protocol := cstr ">"
  address := .ofIP (.v4 0x0A000001) 65535
  preference := (7 : Nat)
  username := cstr "<:>"
  password := []
  type := cstr ":"
  network_name := cstr "eth0:1"
  generation := 4294967295

theorem transport_info_codec_punctuated :
    (∃ cs', cs'.map Candidate.row = [punctuated].map Candidate.row ∧
      (new true).OnTransportInfoMessage (transportInfo (cstr "data:>") [punctuated]) =
        (new true).OnRemoteCandidates { content_name := cstr "data:>", candidates := cs' }) ∧
    ∃ content cs, (new true).Decoded (transportInfo (cstr "data:>") [punctuated]) content cs := by
  obtain ⟨hsent, hread⟩ := transport_info_codec (new true)
  refine ⟨hsent (cstr "data:>") [punctuated] ?_, (hread (transportInfo (cstr "data:>") [punctuated]) (by decide)).mpr ?_⟩
  · rintro c (_ | ⟨_, ⟨⟩⟩)
    exact ⟨SocketAddress.isIPv4_ofIP _ _, show Host.showFloat (Host.readFloat (Host.showFloat (7 : Nat))) = _ by decide⟩
  · decide

/-- A message about a candidate with a port that does not fit. -/
def overflowing : PPMessage where
  type := .transportInfo
  argvs := ["data", "prober", "udp", "1", "10.0.0.1", "70000", "user", "password", "local", "eth0", "0"].map cstr

/-- The `ASSERT` of `SetPort` ends the program before there is a candidate. -/
theorem overflowing_not_decoded :
    ¬ (∃ content cs, (new true).Decoded overflowing content cs) ∧
      (new true).handleDebug (.incoming id overflowing) = none := by
  refine ⟨?_, by decide⟩
  rintro ⟨content, cs, h⟩
  have hhanded := ((new true).OnTransportInfoMessage_decoded h.content_name h.candidates).symm.trans h.handed
  exact absurd (((new true).OnRemoteCandidates_behind_badPorts _ _).mp hhanded) (by decide)

end PPSession

end ProbICE
