import ProbICE.Theorems.Probers

/-! # From one prober to the other

A prober writes frames to the server, the server relays them, and the other prober reads them. The pieces
in which the server and the other prober read do not matter. -/

namespace ProbICE
open Delimited
open DialogServer (SockId)

namespace IceProber

/-- What the other prober hands to its session when this one emits a message. -/
def carried (msg : PPMessage) : Option PPMessage :=
  (msgType msg.type).map fun _ => { type := msg.type, argvs := msg.argvs.map Utf8.scrub }

theorem incoming_sent {msg : PPMessage} {f : CString × List CString} {remote_name : CString}
    (h : sent remote_name msg = some f) (remote : CString) :
    incoming (.remoteMessage remote (f.2.map Utf8.scrub)) = carried msg := by
  obtain ⟨word, hword, rfl⟩ := Option.map_eq_some_iff.mp h
  have hscrub : Utf8.scrub word = word := Utf8.scrub_eq_self_iff.mpr (Utf8.valid_of_ascii (ascii_msgType hword))
  rw [List.map_cons, hscrub, incoming, messageType_msgType hword, carried, hword]
  rfl

/-- What the session of `q` is called with for the frames that were under way before. -/
def before (earlier : List (List CString)) (arriving : List DialogServer.Frame) : List PPMessage :=
  (arriving.filterMap fun f => incoming f.signal) ++
    earlier.filterMap fun words => incoming (.remoteMessage [] (words.map Utf8.scrub))

/-- The writes for frames that all go to one connection. -/
theorem relayed_eq {o : DialogServer.PeerObjects} {c d : SockId} {pid : JsString} {fs : List (CString × List CString)}
    (h : ∀ f ∈ fs, o.find (Utf8.lossy f.1) = some d) :
    DialogServer.relayed o c pid fs = fs.map fun f => ⟨d, .message pid (f.2.map Utf8.lossy), c, o⟩ := by
  induction fs with
  | nil => rfl
  | cons f fs ih =>
    have hfirst : DialogServer.messageWrites o c pid (Utf8.lossy f.1) (f.2.map Utf8.lossy) =
        [⟨d, .message pid (f.2.map Utf8.lossy), c, o⟩] := by
      rw [DialogServer.messageWrites, h f List.mem_cons_self]
    have hrest := ih fun g hg => h g (List.mem_cons_of_mem _ hg)
    rw [DialogServer.relayed] at hrest ⊢
    rw [List.flatMap_cons, hfirst, hrest]
    rfl

variable [Host]

/-- `p` talks to `q` through the server: `c` and `d` are their connections, and `d` is registered under the
    name that `p` sends to. The server has not handled the frames with the words `earlier` that `p` has sent,
    and `q` has not handled the frames `arriving`, of which the bytes `down` have not been read. -/
structure Linked (p : IceProber) (s : DialogServer.State) (c d : SockId) (q : IceProber) (earlier : List (List CString))
    (arriving : List DialogServer.Frame) (down : List UInt8) : Prop where
  sending : ∃ outgoing kept, p.peer.Open outgoing ∧ s.HasRead c kept ∧
    Carries greater kept outgoing (earlier.map fun words => sendBody (p.remote_name, words))
  earlier_clean : ∀ words ∈ earlier, ∀ w ∈ words, Clean w
  remote_clean : Clean p.remote_name
  running : s.crashed = false
  live : s.live c = true
  plain : s.peerObjects.Plain
  pid : ∃ pid, (s.peers c).pid = .string pid ∧ ':' ∉ pid ∧ '>' ∉ pid
  remote : s.peerObjects.find (Utf8.lossy p.remote_name) = some d
  receiving : q.peer.sock.isSome
  arriving_clean : ∀ f ∈ arriving, f.Clean
  arriving_carries : Carries greater q.peer.xmlBuffer down (arriving.map DialogServer.Frame.bytes)

/-- The frames that `p` sends arrive behind the others, whatever the pieces in which they are read. -/
theorem Linked.delivers {p q : IceProber} {s : DialogServer.State} {c d : SockId} {earlier : List (List CString)}
    {arriving : List DialogServer.Frame} {down : List UInt8} (h : Linked p s c d q earlier arriving down)
    {fs : List (CString × List CString)} (hto : ∀ f ∈ fs, f.1 = p.remote_name) (hwords : ∀ f ∈ fs, ∀ w ∈ f.2, Clean w)
    {ups : List (List UInt8)} (hups : ups.flatten = (p.peer.sendAll fs).outgoing) :
    ∃ s' pid, DialogServer.run s (ups.map (.data c)) = some s' ∧
      ∀ downs, downs.flatten = down ++ DialogServer.bytesTo d (s'.written.drop s.written.length) →
        ∀ {α : Type} (g : Signal → Option α), (∀ msg, g (.printString msg) = none) →
          (Emit.forEach Peer.onReadEvent q.peer downs).2.filterMap g =
            (arriving.filterMap fun f => g f.signal) ++
              (earlier ++ fs.map Prod.snd).filterMap fun words => g (.remoteMessage pid (words.map Utf8.scrub)) := by
  obtain ⟨outgoing, kept, hopen, hread, hcarries⟩ := h.sending
  obtain ⟨pid, hpid, hpidclean⟩ := h.pid
  set all := (earlier.map fun words => (p.remote_name, words)) ++ fs with hall
  have hto' : ∀ f ∈ all, f.1 = p.remote_name := by
    intro f hf
    rcases List.mem_append.mp hf with hf | hf
    · obtain ⟨words, -, rfl⟩ := List.mem_map.mp hf
      rfl
    · exact hto f hf
  have hclean : ∀ f ∈ all, CleanMessage f := by
    intro f hf
    refine ⟨hto' f hf ▸ h.remote_clean, ?_⟩
    rcases List.mem_append.mp hf with hf | hf
    · obtain ⟨words, hmem, rfl⟩ := List.mem_map.mp hf
      exact h.earlier_clean words hmem
    · exact hwords f hf
  have hpush : Carries greater kept (ups.flatten ++ []) (all.map sendBody) := by
    have hbodies : all.map sendBody = (earlier.map fun words => sendBody (p.remote_name, words)) ++ fs.map sendBody := by
      simp [hall]
    rw [hups, Peer.sendAll_open hopen, Peer.outgoing, List.append_nil, hbodies]
    exact hcarries.push fun v hv => by
      obtain ⟨f, hf, rfl⟩ := List.mem_map.mp hv
      exact greater_not_mem_sendBody (hclean f (List.mem_append_right _ hf))
  obtain ⟨done, rest, kept', s', hsplit, hrest, hrun, hwritten⟩ :=
    DialogServer.run_sends h.running h.plain h.live hpid hread hclean hpush
  have hkept := hrest.kept_eq_nil
  rw [hkept] at hrest
  have hdone : done = all := by
    rw [hsplit, List.map_eq_nil_iff.mp hrest.eq_nil, List.append_nil]
  refine ⟨s', Utf8.encode pid, hrun, fun downs hdowns α g hg => ?_⟩
  set frames := all.map fun f => DialogServer.Frame.message pid (f.2.map Utf8.lossy) with hframes
  have hbytes : DialogServer.bytesTo d (s'.written.drop s.written.length) =
      stream greater (frames.map DialogServer.Frame.bytes) := by
    have hfind : ∀ f ∈ all, s.peerObjects.find (Utf8.lossy f.1) = some d := fun f hf => by rw [hto' f hf, h.remote]
    rw [hwritten, List.drop_left, hdone, relayed_eq hfind, DialogServer.bytesTo_eq_stream]
    simp [hframes, List.filter_map, Function.comp_def]
  have hframesclean : ∀ f ∈ frames, f.Clean := by
    intro f hf
    obtain ⟨g, hg, rfl⟩ := List.mem_map.mp hf
    intro w hw
    rcases List.mem_cons.mp hw with rfl | hw
    · exact ⟨by decide, by decide⟩
    · rcases List.mem_cons.mp hw with rfl | hw
      · exact hpidclean
      · obtain ⟨v, hv, rfl⟩ := List.mem_map.mp hw
        exact ⟨colon_not_mem_lossy ((hclean g hg).words v hv), greater_not_mem_lossy ((hclean g hg).words v hv).greater⟩
  have hcarries' : Carries greater q.peer.xmlBuffer downs.flatten ((arriving ++ frames).map DialogServer.Frame.bytes) := by
    rw [hdowns, hbytes, List.map_append]
    exact h.arriving_carries.push fun v hv => by
      obtain ⟨f, hf, rfl⟩ := List.mem_map.mp hv
      exact (hframesclean f hf).greater
  have hboth : ∀ f ∈ arriving ++ frames, f.Clean := fun f hf =>
    (List.mem_append.mp hf).elim (h.arriving_clean f) (hframesclean f)
  rw [Peer.reads_frames hg h.receiving hboth hcarries', List.filterMap_append, hframes, hall]
  simp only [List.map_append, List.filterMap_append, List.filterMap_map, List.map_map, Function.comp_def,
    DialogServer.Frame.signal]
  rfl

/-- The messages that `p` sends are handed to the session of `q`, behind those that were under way. -/
theorem Linked.carries {p q : IceProber} {s : DialogServer.State} {c d : SockId} {earlier : List (List CString)}
    {arriving : List DialogServer.Frame} {down : List UInt8} (h : Linked p s c d q earlier arriving down)
    {ms : List PPMessage} (hclean : ∀ m ∈ ms, ∀ w ∈ m.argvs, Clean w) {ups : List (List UInt8)}
    (hups : ups.flatten = (p.peer.sendAll (ms.filterMap (sent p.remote_name))).outgoing) :
    ∃ s', DialogServer.run s (ups.map (.data c)) = some s' ∧
      ∀ downs, downs.flatten = down ++ DialogServer.bytesTo d (s'.written.drop s.written.length) →
        (Emit.forEach Peer.onReadEvent q.peer downs).2.filterMap incoming =
          before earlier arriving ++ ms.filterMap carried := by
  set fs := ms.filterMap (sent p.remote_name) with hfs
  have hmem : ∀ f ∈ fs, ∃ m ∈ ms, sent p.remote_name m = some f := fun f hf => List.mem_filterMap.mp hf
  have hto : ∀ f ∈ fs, f.1 = p.remote_name := by
    intro f hf
    obtain ⟨m, -, hm⟩ := hmem f hf
    obtain ⟨word, -, rfl⟩ := Option.map_eq_some_iff.mp hm
    rfl
  have hwords : ∀ f ∈ fs, ∀ w ∈ f.2, Clean w := by
    intro f hf w hw
    obtain ⟨m, hmem, hm⟩ := hmem f hf
    obtain ⟨word, hword, rfl⟩ := Option.map_eq_some_iff.mp hm
    rcases List.mem_cons.mp hw with rfl | hw
    · exact clean_msgType hword
    · exact hclean m hmem w hw
  obtain ⟨s', pid, hrun, hdown⟩ := h.delivers hto hwords hups
  refine ⟨s', hrun, fun downs hdowns => ?_⟩
  have hearlier : (earlier.filterMap fun words => incoming (.remoteMessage pid (words.map Utf8.scrub))) =
      earlier.filterMap fun words => incoming (.remoteMessage [] (words.map Utf8.scrub)) := by
    refine List.filterMap_congr fun words _ => ?_
    cases words.map Utf8.scrub <;> rfl
  have hnew : (fs.map Prod.snd).filterMap (fun words => incoming (.remoteMessage pid (words.map Utf8.scrub))) =
      ms.filterMap carried := by
    rw [hfs, List.filterMap_map, List.filterMap_filterMap]
    refine List.filterMap_congr fun m _ => ?_
    rcases hm : sent p.remote_name m with _ | f
    · rw [Option.bind_none, carried, Option.map_eq_none_iff.mp hm]
      rfl
    · exact incoming_sent hm pid
  rw [hdown downs hdowns incoming fun _ => rfl, List.filterMap_append, hnew, hearlier, ← List.append_assoc, before]

end IceProber

/-! ### Two probers -/

namespace IceProber
attribute [local instance] Host.plain

/-- The clients `a` and `b` log in. -/
def pairLogins : List DialogServer.Event :=
  [.connection 1 "10.0.0.1".toList 4001, .connection 2 "10.0.0.2".toList 4002, .data 1 (cstr "<login:a>"),
    .data 2 (cstr "<login:b>")]

/-- The server behind the logins. -/
def pairServer : DialogServer.State := DialogServer.after pairLogins

/-- A prober that is connected to the server. -/
def connected (name remote : CString) (session : Option PPSession) : IceProber :=
  { Login false name remote with
    session, tasks := [], peer := { Peer.new name with sock := some { state := .connected, outgoing := [], answers := [] } } }

/-- A session that has just been created. -/
def freshSession : PPSession :=
  { ((PPSession.new false).set_allow_local_ips true).CreateChannel (cstr "data") (cstr "prober") with out := [] }

/-- A session that has received an initiate message. -/
def invitedSession : PPSession :=
  { freshSession.OnIncomingMessage id { type := .sessionInitiate, argvs := [cstr "data"] } with out := [] }

theorem linked_pair (session receiver : Option PPSession) :
    Linked (connected (cstr "a") (cstr "b") session) pairServer 1 2 (connected (cstr "b") (cstr "a") receiver) [] [] [] where
  sending := ⟨[], [], ⟨rfl, rfl⟩, by unfold DialogServer.State.HasRead; decide, .nil⟩
  earlier_clean := by simp
  remote_clean := show Clean (cstr "b") from ⟨by decide, by decide⟩
  running := by decide
  live := by decide
  plain := ⟨by decide, by decide⟩
  pid := ⟨"a".toList, by decide, by decide, by decide⟩
  remote := show pairServer.peerObjects.find (Utf8.lossy (cstr "b")) = some 2 by decide
  receiving := rfl
  arriving_clean := by simp
  arriving_carries := .nil

end IceProber

end ProbICE
