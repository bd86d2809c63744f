import ProbICE.Theorems.Arrivals
import ProbICE.Theorems.Probers

/-! # How the clients come to be registered

A client starts, its socket connects, it writes its login frame, and the server reads the frame in pieces. When the
names are distinct texts that no object has by itself, each client is on one of these stages, and the last one is that
the server has it registered under its name. -/

namespace ProbICE
open Delimited
open DialogServer (SockId)

namespace Network

/-- The client that an event starts. -/
def Event.starts? : Event → Option SockId
  | start c => some c
  | _ => none

/-- The clients that start in a list of events. -/
def clientsOf (es : List Event) : List SockId := es.filterMap Event.starts?

/-- The message that an event makes `c` send. -/
def Event.sends? (c : SockId) : Event → Option (CString × List CString)
  | send d to_ msg => if d = c then some (to_, msg) else none
  | _ => none

/-- The messages that `c` sends in a list of events, in order. -/
def sends (es : List Event) (c : SockId) : List (CString × List CString) := es.filterMap (Event.sends? c)

/-- The names of clients: distinct texts without delimiters that no object has by itself. -/
structure Names (name : SockId → CString) (cs : List SockId) : Prop where
  clean : ∀ c ∈ cs, Clean (name c)
  valid : ∀ c ∈ cs, Utf8.Valid (name c)
  allowed : ∀ c ∈ cs, Utf8.lossy (name c) ∉ DialogServer.builtinNames
  distinct : ∀ c ∈ cs, ∀ d ∈ cs, name c = name d → c = d

theorem lossy_injective {v w : CString} (hv : Utf8.Valid v) (hw : Utf8.Valid w) (h : Utf8.lossy v = Utf8.lossy w) :
    v = w := by
  have : Utf8.scrub v = Utf8.scrub w := congrArg Utf8.encode h
  rwa [Utf8.scrub_eq_self_iff.mpr hv, Utf8.scrub_eq_self_iff.mpr hw] at this

theorem Names.lossy_distinct {name : SockId → CString} {cs : List SockId} (h : Names name cs) {c d : SockId} (hc : c ∈ cs)
    (hd : d ∈ cs) (heq : Utf8.lossy (name c) = Utf8.lossy (name d)) : c = d :=
  h.distinct c hc d hd (lossy_injective (h.valid c hc) (h.valid d hd) heq)

theorem Names.proto_ne {name : SockId → CString} {cs : List SockId} (h : Names name cs) {c : SockId} (hc : c ∈ cs) :
    Utf8.lossy (name c) ≠ DialogServer.protoName := by
  intro heq
  exact h.allowed c hc (by simp [heq, DialogServer.builtinNames])

/-- How far the login of a client named `w` is, when its socket is the last argument. -/
inductive Stage (w : CString) (s : DialogServer.State) (c : SockId) : Option AsyncSocket → Prop
  | unstarted (hnew : (s.socks c).accepted = false) (hread : s.HasRead c []) (hpid : (s.peers c).pid = .null) :
      Stage w s c none
  | connecting (hread : s.HasRead c []) (hpid : (s.peers c).pid = .null) :
      Stage w s c (some { state := .connecting, outgoing := [], answers := [] })
  | waiting (outgoing kept : List UInt8) (hread : s.HasRead c kept) (hpid : (s.peers c).pid = .null)
      (hcarries : Carries greater kept outgoing [body [cstr "login", w]])
      (hnew : (s.socks c).accepted = false → kept = []) :
      Stage w s c (some { state := .connected, outgoing, answers := [] })
  | registered (hread : s.HasRead c []) (hlive : s.live c = true) (hpid : (s.peers c).pid = .string (Utf8.lossy w))
      (hfind : s.peerObjects.find (Utf8.lossy w) = some c) :
      Stage w s c (some { state := .connected, outgoing := [], answers := [] })

/-- A step of the server that leaves a connection and its entry. -/
theorem Stage.frame {w : CString} {s s' : DialogServer.State} {c : SockId} {sock : Option AsyncSocket}
    (h : Stage w s c sock) (hsocks : s'.socks c = s.socks c) (hpeers : s'.peers c = s.peers c)
    (hfind : s.peerObjects.find (Utf8.lossy w) = some c → s'.peerObjects.find (Utf8.lossy w) = some c) :
    Stage w s' c sock := by
  have hread : ∀ kept, s.HasRead c kept → s'.HasRead c kept := by
    intro kept hkept
    rwa [DialogServer.State.HasRead, hsocks, hpeers]
  cases h with
  | unstarted hnew hr hpid => exact .unstarted (hsocks ▸ hnew) (hread [] hr) (hpeers ▸ hpid)
  | connecting hr hpid => exact .connecting (hread [] hr) (hpeers ▸ hpid)
  | waiting outgoing kept hr hpid hcarries hnew =>
    exact .waiting outgoing kept (hread kept hr) (hpeers ▸ hpid) hcarries fun h => hnew (hsocks ▸ h)
  | registered hr hlive hpid hreg =>
    refine .registered (hread [] hr) ?_ (hpeers ▸ hpid) (hfind hreg)
    rwa [DialogServer.State.live, hsocks]

theorem Stage.accept {w : CString} {s : DialogServer.State} {c : SockId} {sock : Option AsyncSocket} (h : Stage w s c sock)
    (hsock : sock.isSome) (hnew : (s.socks c).accepted = false) (a : JsString) (p : Nat) :
    Stage w (DialogServer.onAccept s c a p) c sock := by
  have hread : (DialogServer.onAccept s c a p).HasRead c [] := by
    simp [DialogServer.onAccept, DialogServer.State.HasRead]
  have hpid : ((DialogServer.onAccept s c a p).peers c).pid = .null := by simp [DialogServer.onAccept]
  cases h with
  | unstarted => cases hsock
  | connecting => exact .connecting hread hpid
  | waiting outgoing kept _ _ hcarries hkept =>
    obtain rfl := hkept hnew
    exact .waiting outgoing [] hread hpid hcarries fun _ => rfl
  | registered _ hlive => simp [DialogServer.State.live, hnew] at hlive

/-- While the clients `cs` log in and nobody sends. -/
structure Joining (name : SockId → CString) (cs : List SockId) (n : Network) : Prop where
  running : n.server.crashed = false
  plain : n.server.peerObjects.Plain
  closed : ∀ c, (n.server.socks c).closed = false
  quiet : ∀ w ∈ n.server.written, w.frame.isNotice = true
  owner : ∀ k c, n.server.peerObjects.find k = some c →
    c ∈ cs ∧ k = Utf8.lossy (name c) ∧ (n.server.socks c).accepted = true ∧ (n.server.peers c).pid ≠ .null
  named : ∀ c, (n.clients c).id = name c ∧ (n.clients c).isOnline = true
  member : ∀ c, (n.clients c).sock.isSome → c ∈ cs
  stage : ∀ c, Stage (name c) n.server c (n.clients c).sock

theorem joining_init (name : SockId → CString) (cs : List SockId) : Joining name cs (init name) where
  running := rfl
  plain := ⟨rfl, rfl⟩
  closed _ := rfl
  quiet := by simp [init, DialogServer.State.init]
  owner _ _ h := by cases h
  named _ := ⟨rfl, rfl⟩
  member _ h := by cases h
  stage _ := .unstarted rfl rfl rfl

section Joining
variable {name : SockId → CString} {cs : List SockId} {n n' : Network}

/-- A client function that leaves the name and takes the socket to its next stage. -/
theorem Joining.setClient (h : Joining name cs n) {c : SockId} {result : Peer × List Signal}
    (hnamed : result.1.id = (n.clients c).id ∧ result.1.isOnline = true) (hmem : c ∈ cs)
    (hstage : Stage (name c) n.server c result.1.sock) : Joining name cs (n.setClient c result) where
  running := h.running
  plain := h.plain
  closed := h.closed
  quiet := h.quiet
  owner := h.owner
  named d := by
    by_cases hd : d = c
    · subst hd
      simpa [Network.setClient, h.named d] using hnamed
    · simpa [Network.setClient, hd] using h.named d
  member d hd := by
    by_cases hdc : d = c
    · rwa [hdc]
    · exact h.member d (by simpa [Network.setClient, hdc] using hd)
  stage d := by
    by_cases hd : d = c
    · subst hd
      simpa [Network.setClient] using hstage
    · simpa [Network.setClient, hd] using h.stage d

theorem Joining.accept (h : Joining name cs n) {c : SockId} {a : JsString} {p : Nat} (hsock : (n.clients c).sock.isSome)
    (he : n.serverStep (.connection c a p) = some n') : Joining name cs n' := by
  obtain ⟨s, hs, rfl⟩ := Option.map_eq_some_iff.mp he
  simp only [DialogServer.step, Option.ite_none_left_eq_some, not_or, Bool.not_eq_true] at hs
  obtain ⟨⟨-, hnew⟩, hs⟩ := hs
  obtain rfl := Option.some.inj hs
  refine ⟨h.running, h.plain, fun d => ?_, h.quiet, fun k d hd => ?_, h.named, h.member, fun d => ?_⟩
  · by_cases hd : d = c
    · simp [DialogServer.onAccept, hd]
    · simpa [DialogServer.onAccept, hd] using h.closed d
  · obtain ⟨hmem, hk, haccepted, hnull⟩ := h.owner k d hd
    have hdc : d ≠ c := by
      rintro rfl
      simp [hnew] at haccepted
    exact ⟨hmem, hk, by simpa [DialogServer.onAccept, hdc] using haccepted, by simpa [DialogServer.onAccept, hdc] using hnull⟩
  · by_cases hd : d = c
    · subst hd
      exact (h.stage d).accept hsock hnew a p
    · exact (h.stage d).frame (by simp [DialogServer.onAccept, hd]) (by simp [DialogServer.onAccept, hd]) fun hfind => hfind

/-- The socket of a client is connected, and the client writes its login frame. -/
theorem Joining.connected (hnames : Names name cs) (h : Joining name cs n) {c : SockId}
    (hstate : (n.clients c).sock.map (·.state) = some .connecting) :
    Joining name cs (n.setClient c (n.clients c).established.onConnectEvent) := by
  obtain ⟨sock, hsock, hconnecting⟩ := Option.map_eq_some_iff.mp hstate
  have hmem := h.member c (by rw [hsock]; rfl)
  have hstage := h.stage c
  rw [hsock] at hstage
  have hcarries : Carries greater [] (Peer.loginMessage (name c)) [body [cstr "login", name c]] := by
    have hbody : greater ∉ body [cstr "login", name c] := greater_not_mem_body fun w hw => by
      rcases List.mem_cons.mp hw with rfl | hw
      · decide
      · obtain rfl := List.mem_singleton.mp hw
        exact (hnames.clean c hmem).greater
    have hstream : Peer.loginMessage (name c) = stream greater [body [cstr "login", name c]] := by
      rw [loginMessage_eq, frame]
      simp
    rw [hstream]
    exact Carries.nil.push fun v hv => by
      obtain rfl := List.mem_singleton.mp hv
      exact hbody
  refine h.setClient ?_ hmem ?_
  · simp [Peer.established, Peer.onConnectEvent, hsock]
  · cases hstage with
    | connecting hread hpid =>
      have hnew := Stage.waiting (w := name c) (s := n.server) (c := c) _ _ hread hpid hcarries fun _ => rfl
      simpa [Peer.established, Peer.onConnectEvent, hsock, AsyncSocket.Send, h.named c] using hnew
    | waiting => cases hconnecting
    | registered => cases hconnecting

/-- The server handles an event of `c` that leaves the others as they are. -/
theorem Joining.serve (h : Joining name cs n) {c : SockId} (k : Nat) {s : DialogServer.State} (down : SockId → List UInt8)
    (hrunning : s.crashed = false) (hplain : s.peerObjects.Plain) (hclosed : (s.socks c).closed = false)
    (hquiet : ∀ w ∈ s.written, w.frame.isNotice = true)
    (howner : ∀ j d, s.peerObjects.find j = some d → n.server.peerObjects.find j = some d ∨
      d ∈ cs ∧ j = Utf8.lossy (name d) ∧ (s.socks d).accepted = true ∧ (s.peers d).pid ≠ .null)
    (hstage : Stage (name c) s c ((n.clients c).leave k).sock) (hc : (n.server.peers c).pid = .null)
    (hothers : ∀ d, d ≠ c → s.socks d = n.server.socks d ∧ s.peers d = n.server.peers d)
    (hfind : ∀ d, n.server.peerObjects.find (Utf8.lossy (name d)) = some d →
      s.peerObjects.find (Utf8.lossy (name d)) = some d) :
    Joining name cs { n with clients := Function.update n.clients c ((n.clients c).leave k), server := s, down } where
  running := hrunning
  plain := hplain
  closed d := by
    by_cases hd : d = c
    · rwa [hd]
    · rw [(hothers d hd).1]
      exact h.closed d
  quiet := hquiet
  owner j d hj := by
    rcases howner j d hj with hold | hnew
    · obtain ⟨hmem, hname, haccepted, hnull⟩ := h.owner j d hold
      have hd : d ≠ c := by
        rintro rfl
        exact hnull hc
      rw [(hothers d hd).1, (hothers d hd).2]
      exact ⟨hmem, hname, haccepted, hnull⟩
    · exact hnew
  named d := by
    by_cases hd : d = c
    · subst hd
      simpa [Peer.leave] using h.named d
    · simpa [hd] using h.named d
  member d hd := by
    by_cases hdc : d = c
    · subst hdc
      exact h.member d (by simpa [Peer.leave] using hd)
    · exact h.member d (by simpa [hdc] using hd)
  stage d := by
    by_cases hd : d = c
    · subst hd
      simpa using hstage
    · simpa [hd] using (h.stage d).frame (hothers d hd).1 (hothers d hd).2 (hfind d)

/-- The name of a client that waits is free. -/
theorem Joining.free (hnames : Names name cs) (h : Joining name cs n) {c : SockId} (hmem : c ∈ cs)
    (hpid : (n.server.peers c).pid = .null) : n.server.peerObjects.find (Utf8.lossy (name c)) = none := by
  rcases hfind : n.server.peerObjects.find (Utf8.lossy (name c)) with _ | d
  · rfl
  · obtain ⟨hd, hname, -, hnull⟩ := h.owner _ d hfind
    obtain rfl := hnames.lossy_distinct hmem hd hname
    exact absurd hpid hnull

/-- The server reads a piece of the login frame of `c`. -/
theorem Joining.upload (hnames : Names name cs) (h : Joining name cs n) {c : SockId} {bytes : List UInt8}
    (hne : bytes ≠ []) (hbytes : bytes <+: (n.clients c).outgoing)
    (he : { n with clients := Function.update n.clients c ((n.clients c).leave bytes.length) }.serverStep
      (.data c bytes) = some n') : Joining name cs n' := by
  obtain ⟨rest, hrest⟩ := hbytes
  obtain ⟨s, hs, rfl⟩ := Option.map_eq_some_iff.mp he
  have hlive : n.server.live c = true := by
    simp only [DialogServer.step, Option.ite_none_left_eq_some, not_or, not_not] at hs
    exact hs.1.2
  have hstage := h.stage c
  rcases hsock : (n.clients c).sock with _ | sock
  · simp [Peer.outgoing, hsock, hne] at hrest
  have hmem := h.member c (by rw [hsock]; rfl)
  have hleave : ((n.clients c).leave bytes.length).sock = some { sock with outgoing := sock.outgoing.drop bytes.length } := by
    simp [Peer.leave, hsock]
  simp only [Peer.outgoing, hsock, Option.map_some, Option.getD_some] at hrest
  rw [hsock] at hstage
  cases hstage with
  | connecting => simp [hne] at hrest
  | registered => simp [hne] at hrest
  | waiting outgoing kept hread hpid hcarries hnew =>
    obtain rfl : bytes ++ rest = outgoing := hrest
    simp only [List.drop_left] at hleave
    have hfree := h.free hnames hmem hpid
    simp only [DialogServer.State.live, Bool.and_eq_true] at hlive
    rcases DialogServer.step_login h.running h.plain (by simp [DialogServer.State.live, hlive]) hread (hnames.clean c hmem)
        hfree hcarries with ⟨kept', hcarries', hstep⟩ | ⟨rfl, hstep⟩
    · obtain rfl := Option.some.inj (hs.symm.trans hstep)
      refine h.serve _ _ h.running h.plain (by simpa [DialogServer.State.setRead] using h.closed c) h.quiet
        (fun _ _ hj => .inl hj) ?_ hpid (fun d hd => by simp [DialogServer.State.setRead, hd]) fun _ hfind => hfind
      rw [hleave]
      refine .waiting rest kept' (DialogServer.hasRead_setRead _ _ _) ?_ hcarries' fun hno => ?_
      · simpa [DialogServer.State.setRead] using hpid
      · simp [DialogServer.State.setRead, hlive.1] at hno
    · obtain rfl := Option.some.inj (hs.symm.trans hstep)
      have hfind := DialogServer.PeerObjects.find_assign (hnames.proto_ne hmem) hfree c
      refine h.serve _ _ h.running ?_ ?_ ?_ ?_ ?_ hpid (fun d hd => ?_) fun d hd => ?_
      · rw [DialogServer.enlisted_peerObjects]
        exact h.plain.assign (hnames.allowed c hmem) hfree c
      · simpa [DialogServer.enlisted, DialogServer.State.setRead] using h.closed c
      · intro w hw
        rcases List.mem_append.mp hw with hw | hw
        · exact h.quiet w hw
        · exact DialogServer.isNotice_enlistWrites w hw
      · intro j d hj
        rw [DialogServer.enlisted_peerObjects] at hj
        replace hj := (hfind j).symm.trans hj
        split at hj
        · rename_i hjc
          obtain rfl := Option.some.inj hj
          refine .inr ⟨hmem, hjc, ?_, ?_⟩
          · simpa [DialogServer.enlisted, DialogServer.State.setRead] using hlive.1
          · simp [DialogServer.enlisted]
        · exact .inl hj
      · rw [hleave]
        refine .registered (DialogServer.hasRead_enlisted _ c _) ?_ ?_ ?_
        · simpa [DialogServer.State.live, DialogServer.enlisted, DialogServer.State.setRead] using hlive
        · simp [DialogServer.enlisted]
        · rw [DialogServer.enlisted_peerObjects]
          exact (hfind _).trans (if_pos rfl)
      · simp [DialogServer.enlisted, DialogServer.State.setRead, hd]
      · rw [DialogServer.enlisted_peerObjects]
        refine (hfind _).trans ?_
        rwa [if_neg]
        rintro heq
        rw [heq, hfree] at hd
        cases hd

/-- While nobody sends, every event keeps the logins on their way. -/
theorem Joining.step (hnames : Names name cs) (h : Joining name cs n) {e : Event} (hstart : ∀ c, e = .start c → c ∈ cs)
    (hsend : ∀ c to_ msg, e ≠ .send c to_ msg) (he : n.step e = some n') : Joining name cs n' := by
  cases e with
  | start c =>
    obtain ⟨hnone, he⟩ := Option.ite_none_right_eq_some.mp he
    obtain rfl := Option.some.inj he
    refine h.setClient ⟨rfl, (h.named c).2⟩ (hstart c rfl) ?_
    have hstage := h.stage c
    rw [Option.isNone_iff_eq_none.mp hnone] at hstage
    cases hstage with
    | unstarted hnew hread hpid => exact .connecting hread hpid
  | accept c a p =>
    obtain ⟨hsock, he⟩ := Option.ite_none_right_eq_some.mp he
    exact h.accept hsock he
  | connected c =>
    obtain ⟨hstate, he⟩ := Option.ite_none_right_eq_some.mp he
    obtain rfl := Option.some.inj he
    exact h.connected hnames hstate
  | send c to_ msg => exact absurd rfl (hsend c to_ msg)
  | upload c bytes =>
    obtain ⟨⟨hne, hbytes⟩, he⟩ := Option.ite_none_right_eq_some.mp he
    exact h.upload hnames hne hbytes he
  | download c temp =>
    obtain ⟨⟨hne, -, -, hsock⟩, he⟩ := Option.ite_none_right_eq_some.mp he
    obtain rfl := Option.some.inj he
    have hdown : Joining name cs { n with down := Function.update n.down c ((n.down c).drop temp.length) } :=
      ⟨h.running, h.plain, h.closed, h.quiet, h.owner, h.named, h.member, h.stage⟩
    rw [Peer.onReadEvent_eq hsock hne]
    exact hdown.setClient ⟨rfl, (h.named c).2⟩ (h.member c hsock) (h.stage c)

end Joining

/-! ### Runs -/

theorem mem_clientsOf {es : List Event} {c : SockId} : c ∈ clientsOf es ↔ .start c ∈ es := by
  constructor
  · intro h
    obtain ⟨e, he, hc⟩ := List.mem_filterMap.mp h
    cases e with
    | start d =>
      obtain rfl := Option.some.inj hc
      exact he
    | _ => cases hc
  · exact fun h => List.mem_filterMap.mpr ⟨_, h, rfl⟩

/-- The logins of a run in which nobody sends. -/
theorem joining_of_run {name : SockId → CString} {es : List Event} {n : Network} (hnames : Names name (clientsOf es))
    (hquiet : ∀ c, sends es c = []) (hrun : run (init name) es = some n) : Joining name (clientsOf es) n := by
  have hsend : ∀ e ∈ es, ∀ c to_ msg, e ≠ .send c to_ msg := by
    rintro e he c to_ msg rfl
    have hmem : (to_, msg) ∈ sends es c := List.mem_filterMap.mpr ⟨_, he, if_pos rfl⟩
    simp [hquiet c] at hmem
  exact Machine.run_keeps
    (fun _ _ e he h hstep => h.step hnames (fun c hc => mem_clientsOf.mpr (hc ▸ he)) (hsend e he) hstep)
    (joining_init name (clientsOf es)) hrun

end Network

end ProbICE
