import ProbICE.Theorems.Candidates
import ProbICE.Theorems.CleanFrames

/-! # Candidates on the wire

A transport message joins the words of its candidates with `:` and escapes nothing, and the server reads
its text as UTF-8. The name of a network interface is the only word of a gathered candidate that can hold
anything else than plain ASCII text. -/

namespace ProbICE
open Delimited
open DialogServer (SockId)

namespace DialogServer

theorem valid_encode (w : JsString) : Utf8.Valid (Utf8.encode w) := Utf8.scrub_eq_self_iff.mp (Utf8.scrub_encode w)

/-- What the server writes to a client is a stream of clean frames. -/
theorem bytesTo_clean {es : List Event} {s : State} (hs : run State.init es = some s) {es' : List Event} {s' : State}
    (hs' : run s es' = some s') (n : Nat) (d : SockId) :
    ∃ fs : List Frame, (∀ f ∈ fs, f.Clean) ∧ bytesTo d (s'.written.drop n) = stream greater (fs.map Frame.bytes) := by
  refine ⟨((s'.written.drop n).filter fun w => w.sock = d).map Write.frame, fun f hf => ?_, ?_⟩
  · obtain ⟨w, hw, rfl⟩ := List.mem_map.mp hf
    exact ((cleanState_init.run hs).run hs').1.written w (List.mem_of_mem_drop (List.mem_filter.mp hw).1)
  · rw [bytesTo_eq_stream, List.map_map]
    rfl

end DialogServer

namespace IceProber

/-- The words of a message that a clean frame carries. -/
theorem argvs_of_signal {f : DialogServer.Frame} (hf : f.Clean) {msg : PPMessage} (h : incoming f.signal = some msg) :
    ∀ w ∈ msg.argvs, Clean w ∧ Utf8.Valid w := by
  cases f with
  | message p ws =>
    cases ws with
    | nil => cases h
    | cons word ws =>
      obtain ⟨type, -, rfl⟩ := Option.map_eq_some_iff.mp h
      intro w hw
      obtain ⟨v, hv, rfl⟩ := List.mem_map.mp hw
      exact ⟨DialogServer.clean_encode (hf v (List.mem_cons_of_mem _ (List.mem_cons_of_mem _ (List.mem_cons_of_mem _ hv)))),
        DialogServer.valid_encode v⟩
  | _ => cases h

variable [Host]

/-- The candidates survive: whatever the pieces in which the server and the other prober read, the session of
    `q` is called with one message behind those that were under way, and decodes it to candidates that agree with
    `candidates` in every field. -/
def Survives (p : IceProber) (s : DialogServer.State) (c d : SockId) (q : IceProber) (earlier : List (List CString))
    (arriving : List DialogServer.Frame) (down : List UInt8) (content : CString) (candidates : List Candidate) : Prop :=
  ∀ ups : List (List UInt8),
    ups.flatten = (p.callSession fun session => session.SendTransportInfoMessage content candidates).peer.outgoing →
      ∃ s', DialogServer.run s (ups.map (.data c)) = some s' ∧
        ∀ downs, downs.flatten = down ++ DialogServer.bytesTo d (s'.written.drop s.written.length) →
          ∃ msg, (Emit.forEach Peer.onReadEvent q.peer downs).2.filterMap incoming = before earlier arriving ++ [msg] ∧
            msg.type = .transportInfo ∧ msg.argvs[0]? = some content ∧
            (PPSession.decodeCandidates msg.argvs).map (List.map Candidate.row) = some (candidates.map Candidate.row)

/-- The words of a candidate whose network has a plain name. -/
theorem words_clean {cand : Candidate} (hbuilt : PortBuilt cand) (hname : Clean cand.network_name) :
    ∀ w ∈ cand.words, Clean w := by
  intro w hw
  rcases Candidate.plainText_words hbuilt w hw with hplain | rfl
  · exact hplain.clean
  · exact hname

theorem words_valid {cand : Candidate} (hbuilt : PortBuilt cand) (hname : Utf8.Valid cand.network_name) :
    ∀ w ∈ cand.words, Utf8.Valid w := by
  intro w hw
  rcases Candidate.plainText_words hbuilt w hw with hplain | rfl
  · exact hplain.valid
  · exact hname

section survive
variable {p q : IceProber} {s : DialogServer.State} {c d : SockId} {earlier : List (List CString)}
  {arriving : List DialogServer.Frame} {down : List UInt8} (h : Linked p s c d q earlier arriving down) {content : CString}
  {candidates : List Candidate}
include h

/-- Candidates that survive have network names that a clean frame can carry. -/
theorem names_of_survives {es : List DialogServer.Event} (hs : DialogServer.run .init es = some s)
    (hsurvive : Survives p s c d q earlier arriving down content candidates) :
    ∀ cand ∈ candidates, Clean cand.network_name ∧ Utf8.Valid cand.network_name := by
  intro cand hcand
  obtain ⟨s', hrun, hdown⟩ := hsurvive [_] List.flatten_singleton
  obtain ⟨msg, hreads, -, -, hrows⟩ := hdown [_] List.flatten_singleton
  -- the message is one of those in the clean frames that `q` reads
  obtain ⟨fs, hfs, hbytes⟩ := DialogServer.bytesTo_clean hs hrun s.written.length d
  have hcarries : Carries greater q.peer.xmlBuffer [down ++ DialogServer.bytesTo d (s'.written.drop s.written.length)].flatten
      ((arriving ++ fs).map DialogServer.Frame.bytes) := by
    rw [List.flatten_singleton, hbytes, List.map_append]
    exact h.arriving_carries.push fun v hv => by
      obtain ⟨f, hf, rfl⟩ := List.mem_map.mp hv
      exact (hfs f hf).greater
  have hclean : ∀ f ∈ arriving ++ fs, f.Clean := fun f hf =>
    (List.mem_append.mp hf).elim (h.arriving_clean f) (hfs f)
  have hmem : msg ∈ (Emit.forEach Peer.onReadEvent q.peer
      [down ++ DialogServer.bytesTo d (s'.written.drop s.written.length)]).2.filterMap incoming := by
    rw [hreads]
    exact List.mem_append_right _ List.mem_cons_self
  rw [Peer.reads_frames (fun _ => rfl) h.receiving hclean hcarries] at hmem
  obtain ⟨f, hf, hmsg⟩ := List.mem_filterMap.mp hmem
  -- and the name of the network is one of its words
  obtain ⟨decoded, hdecoded, hrow⟩ := Option.map_eq_some_iff.mp hrows
  have hnames : decoded.map (·.network_name) = candidates.map (·.network_name) := by
    have := congrArg (List.map fun row => row.2.2.2.2.2.2.2.2.1) hrow
    rwa [List.map_map, List.map_map] at this
  have hname : cand.network_name ∈ decoded.map (·.network_name) := by
    rw [hnames]
    exact List.mem_map_of_mem hcand
  obtain ⟨cand', hcand', heq⟩ := List.mem_map.mp hname
  rw [← heq]
  exact argvs_of_signal (hclean f hf) hmsg _ (PPSession.network_name_mem hdecoded cand' hcand')

/-- Candidates whose network names a clean frame can carry survive. -/
theorem survives_of_names {session : PPSession} (hsession : p.session = some session) (hout : session.out = [])
    (hcontent : PlainText content) (hbuilt : ∀ cand ∈ candidates, PortBuilt cand)
    (hnames : ∀ cand ∈ candidates, Clean cand.network_name ∧ Utf8.Valid cand.network_name) :
    Survives p s c d q earlier arriving down content candidates := by
  intro ups hups
  set msg := PPSession.transportInfo content candidates with hmsg
  have hmessages : (session.SendTransportInfoMessage content candidates).messages = [msg] := by
    rw [PPSession.SendTransportInfoMessage, PPSession.messages_emit_outgoing, PPSession.messages, hout]
    rfl
  have hpeer : (p.callSession fun session => session.SendTransportInfoMessage content candidates).peer =
      p.peer.sendAll ([msg].filterMap (sent p.remote_name)) := by
    rw [callSession, hsession, ← hmessages]
    exact (p.afterSession_spec _).2.1
  have hwords : ∀ w ∈ msg.argvs, Clean w ∧ Utf8.Valid w := by
    intro w hw
    rcases List.mem_cons.mp hw with rfl | hw
    · exact ⟨hcontent.clean, hcontent.valid⟩
    · obtain ⟨cand, hcand, hw⟩ := List.mem_flatMap.mp hw
      exact ⟨words_clean (hbuilt cand hcand) (hnames cand hcand).1 w hw,
        words_valid (hbuilt cand hcand) (hnames cand hcand).2 w hw⟩
  have hclean : ∀ m ∈ [msg], ∀ w ∈ m.argvs, Clean w := by simpa using fun w hw => (hwords w hw).1
  obtain ⟨s', hrun, hdown⟩ := h.carries hclean (by rw [hups, hpeer])
  refine ⟨s', hrun, fun downs hdowns => ⟨msg, ?_, rfl, rfl, ?_⟩⟩
  · have hcarried : carried msg = some msg := by
      have hargvs : msg.argvs.map Utf8.scrub = msg.argvs := by
        rw [List.map_congr_left fun w hw => Utf8.scrub_eq_self_iff.mpr (hwords w hw).2, List.map_id']
      rw [carried, hargvs]
      rfl
    rw [hdown downs hdowns, List.filterMap_cons_some hcarried, List.filterMap_nil]
  · rw [hmsg, PPSession.transportInfo, PPSession.decodeCandidates_words, Option.map_some, List.map_map]
    congr 1
    exact List.map_congr_left fun cand hcand => (hbuilt cand hcand).row_reread

end survive

/-- The candidates of local ports survive exactly when the names of their networks are UTF-8 without `:` and `>`. -/
theorem candidates_survive {p q : IceProber} {s : DialogServer.State} {c d : SockId} {earlier : List (List CString)}
    {arriving : List DialogServer.Frame} {down : List UInt8} (h : Linked p s c d q earlier arriving down)
    {es : List DialogServer.Event} (hs : DialogServer.run .init es = some s) {session : PPSession}
    (hsession : p.session = some session) (hout : session.out = []) {content : CString} (hcontent : PlainText content)
    {candidates : List Candidate} (hbuilt : ∀ cand ∈ candidates, PortBuilt cand) :
    Survives p s c d q earlier arriving down content candidates ↔
      ∀ cand ∈ candidates, Clean cand.network_name ∧ Utf8.Valid cand.network_name :=
  ⟨names_of_survives h hs, survives_of_names h hsession hout hcontent hbuilt⟩

end IceProber

/-! ### A gathered candidate -/

namespace IceProber
attribute [local instance] Host.plain

/-- A candidate of a local port on the given network. -/
def gathered (network_name : CString) : Candidate where
  name := cstr "prober"
  protocol := cstr "udp"
  address := .ofIP (.v4 0xC0A80002) 4242
  preference := (1 : Nat)
  username := cstr "abcd"
  password := cstr "efgh"
  type := cstr "local"
  network_name := network_name
  generation := 0

theorem portBuilt_gathered (network_name : CString) : PortBuilt (gathered network_name) where
  name := show PlainText (cstr "prober") by decide
  protocol := List.mem_cons_self
  address := ⟨_, _, rfl⟩
  preference := show PlainText (Host.showFloat (1 : Nat)) by decide
  preference_read := show Host.showFloat (Host.readFloat (Host.showFloat (1 : Nat))) = Host.showFloat (1 : Nat) by decide
  username := List.all_eq_true.mp (show (cstr "abcd").all isBase64 = true by decide)
  password := List.all_eq_true.mp (show (cstr "efgh").all isBase64 = true by decide)
  type := List.mem_cons_self

/-- A candidate on `eth0` survives. -/
theorem candidates_survive_eth0 :
    Survives (connected (cstr "a") (cstr "b") (some freshSession)) pairServer 1 2
      (connected (cstr "b") (cstr "a") none) [] [] [] (cstr "data") [gathered (cstr "eth0")] := by
  refine (candidates_survive (linked_pair (some freshSession) none) (DialogServer.run_after pairLogins (by decide)) rfl rfl
    (show PlainText (cstr "data") by decide) ?_).mpr ?_
  · simpa using portBuilt_gathered _
  · simp only [List.mem_singleton, forall_eq]
    exact ⟨⟨by decide, by decide⟩, Utf8.valid_of_ascii (Utf8.ascii_of_all (by decide))⟩

/-- A candidate on the alias interface `eth0:1` does not. -/
theorem not_survives_alias :
    Linked (connected (cstr "a") (cstr "b") (some freshSession)) pairServer 1 2
        (connected (cstr "b") (cstr "a") none) [] [] [] ∧
      PortBuilt (gathered (cstr "eth0:1")) ∧
      ¬ Survives (connected (cstr "a") (cstr "b") (some freshSession)) pairServer 1 2
        (connected (cstr "b") (cstr "a") none) [] [] [] (cstr "data") [gathered (cstr "eth0:1")] := by
  refine ⟨linked_pair _ none, portBuilt_gathered _, fun hsurvive => ?_⟩
  have hnames := names_of_survives (linked_pair (some freshSession) none) (DialogServer.run_after pairLogins (by decide))
    hsurvive _ List.mem_cons_self
  exact hnames.1.colon (show colon ∈ cstr "eth0:1" by decide)

end IceProber

end ProbICE
