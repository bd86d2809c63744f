import ProbICE.Network
import ProbICE.Theorems.CleanFrames
import ProbICE.Theorems.Presence

/-! # What the clients hear

What the server writes to a connection reaches the client in order, whatever the pieces in which the client reads
and whatever happens on the other connections. So a client has raised the signals of the frames that it has read, and
the frames behind them are under way. -/

namespace ProbICE
open Delimited
open DialogServer (SockId framesTo bytesTo)

namespace DialogServer

/-- The server never takes back a write. -/
theorem kept_written (ws : List Write) (all : List (State × Call)) : Kept all fun _ s => ws <+: s.written where
  accept _ _ _ _ _ h _ _ _ := h
  pending _ _ _ _ h := h
  xmlWord _ _ _ _ h := h
  dialog _ s c h hs _ _ := by
    obtain ⟨vs, hvs, -⟩ := processDialog_written hs c
    rw [hvs]
    exact h.trans (List.prefix_append _ _)
  close _ s c h _ _ _ := by
    obtain ⟨vs, hvs, -⟩ := onClose_written (s.closeSock c) c
    rw [hvs]
    exact h.trans (List.prefix_append _ _)

theorem step_written {s s' : State} {e : Event} (he : step s e = some s') : s.written <+: s'.written :=
  @Kept.event _ _ (kept_written s.written (eventCalls s e)) [] s s' e List.prefix_rfl he (by simp)

theorem bytesTo_eq_frames (d : SockId) (ws : List Write) :
    bytesTo d ws = stream greater ((framesTo ws d).map Frame.bytes) := by
  rw [bytesTo_eq_stream, framesTo, List.map_map]
  rfl

theorem mem_framesTo {ws : List Write} {d : SockId} {f : Frame} (h : f ∈ framesTo ws d) :
    ∃ w ∈ ws, w.sock = d ∧ w.frame = f := by
  obtain ⟨w, hw, rfl⟩ := List.mem_map.mp h
  obtain ⟨hw, hd⟩ := List.mem_filter.mp hw
  exact ⟨w, hw, by simpa using hd, rfl⟩

end DialogServer

/-- The signal is raised for a frame of the server. -/
def Signal.isHeard : Signal → Bool
  | remoteOnline _ | remoteLogin _ | remoteOffline _ | remoteMessage _ _ => true
  | _ => false

/-- The signals that a client has raised for frames of the server. -/
def heard (sigs : List Signal) : List Signal := sigs.filter Signal.isHeard

theorem heard_append (sigs sigs' : List Signal) : heard (sigs ++ sigs') = heard sigs ++ heard sigs' :=
  List.filter_append sigs sigs'

theorem heard_signals (fs : List DialogServer.Frame) :
    heard (fs.map DialogServer.Frame.signal) = fs.map DialogServer.Frame.signal := by
  refine List.filter_eq_self.mpr fun sig hsig => ?_
  obtain ⟨f, -, rfl⟩ := List.mem_map.mp hsig
  cases f <;> rfl

namespace Network

/-! ### One connection -/

/-- The server has written the frames `read` and then `unread` to `d`. The client has read the first ones, and the
    others are under way. -/
structure Arriving (n : Network) (d : SockId) (read unread : List DialogServer.Frame) : Prop where
  frames : framesTo n.server.written d = read ++ unread
  carries : Carries greater (n.clients d).xmlBuffer (n.down d) (unread.map DialogServer.Frame.bytes)
  heard : heard (n.signals d) = read.map DialogServer.Frame.signal

section Arriving
variable {n : Network} {d : SockId} {read unread : List DialogServer.Frame}

/-- A client function that reads nothing. -/
theorem Arriving.setClient (h : Arriving n d read unread) {c : SockId} {result : Peer × List Signal}
    (hbuffer : result.1.xmlBuffer = (n.clients c).xmlBuffer) (hheard : ProbICE.heard result.2 = []) :
    Arriving (n.setClient c result) d read unread := by
  by_cases hd : d = c
  · subst hd
    refine ⟨h.frames, ?_, ?_⟩
    · simpa [Network.setClient, hbuffer] using h.carries
    · simp [Network.setClient, heard_append, hheard, h.heard]
  · refine ⟨h.frames, ?_, ?_⟩
    · simpa [Network.setClient, hd] using h.carries
    · simpa [Network.setClient, hd] using h.heard

/-- What the server writes comes behind the frames that are under way. -/
theorem Arriving.write (h : Arriving n d read unread) {s : DialogServer.State} {ws : List DialogServer.Write}
    (hwritten : s.written = n.server.written ++ ws) (hclean : ∀ w ∈ ws, w.frame.Clean) :
    Arriving { n with server := s, down := fun d => n.down d ++ bytesTo d ws } d read (unread ++ framesTo ws d) where
  frames := by rw [hwritten, DialogServer.framesTo_append, h.frames, List.append_assoc]
  carries := by
    simp only [List.map_append, DialogServer.bytesTo_eq_frames]
    refine h.carries.push fun v hv => ?_
    obtain ⟨f, hf, rfl⟩ := List.mem_map.mp hv
    obtain ⟨w, hw, -, rfl⟩ := DialogServer.mem_framesTo hf
    exact (hclean w hw).greater
  heard := h.heard

/-- The client reads a piece of what is under way. -/
theorem Arriving.download (h : Arriving n d read unread) (hclean : ∀ f ∈ unread, f.Clean) {temp : List UInt8}
    (hne : temp ≠ []) (htemp : temp <+: n.down d) (hsock : (n.clients d).sock.isSome) :
    ∃ us vs, unread = us ++ vs ∧
      Arriving ({ n with down := Function.update n.down d ((n.down d).drop temp.length) }.setClient d
        ((n.clients d).onReadEvent temp)) d (read ++ us) vs := by
  obtain ⟨rest, hrest⟩ := htemp
  have hcarries := h.carries
  rw [← hrest] at hcarries
  obtain ⟨done, behind, hunread, hcut, hbehind⟩ := hcarries.read
  obtain ⟨us, vs, rfl, rfl, rfl⟩ := List.map_eq_append_iff.mp hunread
  have hsignals : (cut greater (n.clients d).xmlBuffer temp).1.flatMap Peer.processXML =
      us.map DialogServer.Frame.signal := by
    rw [hcut, List.map_map]
    exact Peer.processXML_frames fun f hf => hclean f (List.mem_append_left _ hf)
  have hread : (n.clients d).onReadEvent temp =
      ({ n.clients d with xmlBuffer := (cut greater (n.clients d).xmlBuffer temp).2 },
        .printString (cstr "\t<===: " ++ temp.takeWhile (· ≠ 0)) :: us.map DialogServer.Frame.signal) := by
    rw [Peer.onReadEvent_eq hsock hne, hsignals]
  refine ⟨us, vs, rfl, by rw [Network.setClient, h.frames, List.append_assoc], ?_, ?_⟩
  · simpa [Network.setClient, hread, ← hrest] using hbehind
  · have hprint : ∀ msg sigs, ProbICE.heard (.printString msg :: sigs) = ProbICE.heard sigs := fun _ _ => rfl
    simp only [Network.setClient, Function.update_self, hread, heard_append, h.heard, List.map_append, hprint,
      heard_signals]

/-- What the client of another connection reads. -/
theorem Arriving.download_other (h : Arriving n d read unread) {c : SockId} (hd : d ≠ c) (temp : List UInt8) :
    Arriving ({ n with down := Function.update n.down c ((n.down c).drop temp.length) }.setClient c
      ((n.clients c).onReadEvent temp)) d read unread where
  frames := h.frames
  carries := by simpa [Network.setClient, hd] using h.carries
  heard := by simpa [Network.setClient, hd] using h.heard

end Arriving

/-! ### Runs -/

/-- What every event keeps: the frames of the server are clean, and they reach the clients. -/
structure Delivering (n : Network) : Prop where
  clean : DialogServer.CleanState n.server
  arriving : ∀ d, ∃ read unread, Arriving n d read unread
  /-- A client that has not started has read nothing. -/
  unstarted : ∀ c, (n.clients c).sock = none → (n.clients c).xmlBuffer = []

theorem delivering_init (name : SockId → CString) : Delivering (init name) where
  clean := DialogServer.cleanState_init
  arriving _ := ⟨[], [], rfl, .nil, rfl⟩
  unstarted _ _ := rfl

section Delivering
variable {n n' : Network}

/-- What an event of the server does to the network. -/
theorem serverStep_eq {e : DialogServer.Event} (h : n.serverStep e = some n') :
    ∃ s ws, DialogServer.step n.server e = some s ∧ s.written = n.server.written ++ ws ∧
      n' = { n with server := s, down := fun d => n.down d ++ bytesTo d ws } := by
  obtain ⟨s, hs, rfl⟩ := Option.map_eq_some_iff.mp h
  obtain ⟨ws, hws⟩ := DialogServer.step_written hs
  refine ⟨s, ws, hs, hws.symm, ?_⟩
  rw [← hws, List.drop_left]

theorem Delivering.serverStep (h : Delivering n) {e : DialogServer.Event} (he : n.serverStep e = some n') :
    Delivering n' := by
  obtain ⟨s, ws, hs, hws, rfl⟩ := serverStep_eq he
  have hclean := h.clean.step hs
  refine ⟨hclean, fun d => ?_, h.unstarted⟩
  obtain ⟨read, unread, harriving⟩ := h.arriving d
  refine ⟨read, unread ++ framesTo ws d, harriving.write hws fun w hw => hclean.1.written w ?_⟩
  rw [hws]
  exact List.mem_append_right _ hw

theorem Delivering.setClient (h : Delivering n) {c : SockId} {result : Peer × List Signal}
    (hbuffer : result.1.xmlBuffer = (n.clients c).xmlBuffer) (hheard : heard result.2 = [])
    (hsock : result.1.sock = none → (n.clients c).sock = none) : Delivering (n.setClient c result) where
  clean := h.clean
  arriving d := by
    obtain ⟨read, unread, harriving⟩ := h.arriving d
    exact ⟨read, unread, harriving.setClient hbuffer hheard⟩
  unstarted d hd := by
    by_cases hdc : d = c
    · subst hdc
      simp only [Network.setClient, Function.update_self] at hd ⊢
      rw [hbuffer]
      exact h.unstarted d (hsock hd)
    · simpa [Network.setClient, hdc] using h.unstarted d (by simpa [Network.setClient, hdc] using hd)

theorem Delivering.leave (h : Delivering n) (c : SockId) (k : Nat) :
    Delivering { n with clients := Function.update n.clients c ((n.clients c).leave k) } where
  clean := h.clean
  arriving d := by
    obtain ⟨read, unread, harriving⟩ := h.arriving d
    refine ⟨read, unread, harriving.frames, ?_, harriving.heard⟩
    by_cases hd : d = c
    · subst hd
      simpa [Peer.leave] using harriving.carries
    · simpa [hd] using harriving.carries
  unstarted d hd := by
    by_cases hdc : d = c
    · subst hdc
      simpa [Peer.leave] using h.unstarted d (by simpa [Peer.leave] using hd)
    · simpa [hdc] using h.unstarted d (by simpa [hdc] using hd)

theorem Delivering.download (h : Delivering n) {c : SockId} {temp : List UInt8} (hne : temp ≠ [])
    (htemp : temp <+: n.down c) (hsock : (n.clients c).sock.isSome) :
    Delivering ({ n with down := Function.update n.down c ((n.down c).drop temp.length) }.setClient c
      ((n.clients c).onReadEvent temp)) where
  clean := h.clean
  arriving d := by
    obtain ⟨read, unread, harriving⟩ := h.arriving d
    by_cases hd : d = c
    · subst hd
      have hclean : ∀ f ∈ unread, f.Clean := by
        intro f hf
        obtain ⟨w, hw, -, rfl⟩ := DialogServer.mem_framesTo (harriving.frames ▸ List.mem_append_right read hf)
        exact h.clean.1.written w hw
      obtain ⟨us, vs, -, hread⟩ := harriving.download hclean hne htemp hsock
      exact ⟨_, vs, hread⟩
    · exact ⟨read, unread, harriving.download_other hd temp⟩
  unstarted d hd := by
    by_cases hdc : d = c
    · subst hdc
      simp only [Network.setClient, Function.update_self, Peer.onReadEvent_eq hsock hne] at hd
      simp [hd] at hsock
    · simpa [Network.setClient, hdc] using h.unstarted d (by simpa [Network.setClient, hdc] using hd)

/-- Every event keeps the frames of the server on their way. -/
theorem Delivering.step (h : Delivering n) {e : Event} (he : n.step e = some n') : Delivering n' := by
  cases e with
  | start c =>
    obtain ⟨hnone, he⟩ := Option.ite_none_right_eq_some.mp he
    obtain rfl := Option.some.inj he
    have hsock : (n.clients c).sock = none := Option.isNone_iff_eq_none.mp hnone
    exact h.setClient (h.unstarted c hsock).symm rfl fun _ => hsock
  | accept c a p =>
    obtain ⟨-, he⟩ := Option.ite_none_right_eq_some.mp he
    exact h.serverStep he
  | connected c =>
    obtain ⟨hstate, he⟩ := Option.ite_none_right_eq_some.mp he
    obtain rfl := Option.some.inj he
    obtain ⟨sock, hsock, -⟩ := Option.map_eq_some_iff.mp hstate
    refine h.setClient ?_ ?_ ?_ <;> simp [Peer.established, Peer.onConnectEvent, hsock, heard, Signal.isHeard]
  | send c to_ msg =>
    obtain ⟨hsome, he⟩ := Option.ite_none_right_eq_some.mp he
    obtain rfl := Option.some.inj he
    obtain ⟨sock, hsock⟩ := Option.isSome_iff_exists.mp hsome
    refine h.setClient ?_ ?_ ?_ <;> by_cases honline : (n.clients c).isOnline <;>
      simp [Peer.SendMessage, honline, hsock, heard, Signal.isHeard]
  | upload c bytes =>
    obtain ⟨-, he⟩ := Option.ite_none_right_eq_some.mp he
    exact (h.leave c bytes.length).serverStep he
  | download c temp =>
    obtain ⟨⟨hne, -, htemp, hsock⟩, he⟩ := Option.ite_none_right_eq_some.mp he
    obtain rfl := Option.some.inj he
    exact h.download hne htemp hsock

end Delivering

theorem delivering_of_run {name : SockId → CString} {es : List Event} {n : Network}
    (hrun : run (init name) es = some n) : Delivering n :=
  Machine.run_keeps (fun _ _ _ _ h he => h.step he) (delivering_init name) hrun

/-- A client to which nothing is under way has raised the signals of the frames that the server has written to it, in
    order and each once. -/
theorem Delivering.heard_eq {n : Network} (h : Delivering n) {d : SockId} (hdown : n.down d = []) :
    heard (n.signals d) = (framesTo n.server.written d).map DialogServer.Frame.signal := by
  obtain ⟨read, unread, harriving⟩ := h.arriving d
  have hcarries := harriving.carries
  rw [hdown] at hcarries
  have hkept := hcarries.kept_eq_nil
  rw [hkept] at hcarries
  rw [harriving.frames, List.map_eq_nil_iff.mp hcarries.eq_nil, List.append_nil, harriving.heard]

end Network

end ProbICE
