import ProbICE.Lib.Journal
import ProbICE.Theorems.Registry

/-! # Whose entry a close removes

A connection that closes may find the entry of another connection under its name, as after a login that was refused.
The server compares the `sid` of the two, which is the address with the port written behind it. It takes the entry
for its own whenever the two texts agree, and the text does not show where the address ends. -/

namespace ProbICE.DialogServer

/-- The connection has been accepted from this address and port. -/
def Accepts (past : List (State × Call)) (c : SockId) (remoteAddress : JsString) (remotePort : Nat) : Prop :=
  ∃ s, (s, Call.accept c remoteAddress remotePort) ∈ past

/-- The text that stands for an address and a port. -/
def sidText (remoteAddress : JsString) (remotePort : Nat) : JsString := remoteAddress ++ Nat.toDigits 10 remotePort

/-- When `c` closes, the lookup of its name finds the entry of `owner`. -/
def FindsEntry (s : State) (c owner : SockId) : Prop :=
  s.peerObjects.hasOwnProperty (s.peers c).pid.toText = some true ∧ s.peerObjects.find (s.peers c).pid.toText = some owner

/-- A close leaves the entries of the others alone, and all that it writes is that the name of `c` has gone, if that
    was the entry of `c`. -/
structure RemovesOwn (s : State) (c : SockId) : Prop where
  entries : ∀ k d, s.peerObjects.find k = some d → d ≠ c → (onClose s c).peerObjects.find k = some d
  notices : ∃ ws, (onClose s c).written = s.written ++ ws ∧
    ∀ w ∈ ws, w.frame = .offline (s.peers c).pid.toText ∧ s.peerObjects.find (s.peers c).pid.toText = some c

/-! ### One close -/

theorem writeAll_written (cause : SockId) (frame : Frame) (s : State) (ps : List Property) :
    (writeAll cause frame s ps).peerObjects = s.peerObjects ∧
      ∃ ws, (writeAll cause frame s ps).written = s.written ++ ws ∧ ∀ w ∈ ws, w.frame = frame := by
  induction ps generalizing s with
  | nil => exact ⟨rfl, [], by simp [writeAll], by simp⟩
  | cons p ps ih =>
    rcases hp : p.writer with _ | d
    · simp only [writeAll, hp]
      exact ⟨rfl, [], by simp, by simp⟩
    · obtain ⟨hsame, ws, hws, hframe⟩ := ih (s.write cause d frame)
      simp only [writeAll, hp]
      refine ⟨hsame, ⟨d, frame, cause, s.peerObjects⟩ :: ws, ?_, by simpa using hframe⟩
      rw [hws]
      simp [State.write]

/-- A close that finds no entry, or one with another `sid`, changes nothing but for an exception. -/
theorem onClose_of_not_same {s : State} {c : SockId}
    (h : ∀ owner, FindsEntry s c owner → (s.peers c).sid ≠ (s.peers owner).sid) :
    (onClose s c).peerObjects = s.peerObjects ∧ (onClose s c).written = s.written := by
  rcases s.peerObjects.hasOwnProperty_cases (s.peers c).pid.toText with hhas | ⟨hhas, hfind⟩ | ⟨owner, hhas, hfind⟩
  · simp [onClose, hhas]
  · simp [onClose, hhas]
  · simp [onClose, hhas, hfind, h owner ⟨hhas, hfind⟩]

theorem onClose_of_same {s : State} {c owner : SockId} (h : FindsEntry s c owner)
    (hsid : (s.peers c).sid = (s.peers owner).sid) :
    (onClose s c).peerObjects = s.peerObjects.delete (s.peers c).pid.toText ∧
      ∃ ws, (onClose s c).written = s.written ++ ws ∧ ∀ w ∈ ws, w.frame = .offline (s.peers c).pid.toText := by
  have honClose : onClose s c = writeAll c (.offline (s.peers c).pid.toText) (s.forget c)
      ((s.forget c).peerObjects.forIn (s.forget c).peers) := by
    simp [onClose, h.1, h.2, hsid, State.forget]
  rw [honClose]
  exact writeAll_written c _ (s.forget c) _

/-- A close removes the own entry only, if and only if no other connection whose entry it finds has the same
    `sid`. -/
theorem removesOwn_iff {s : State} {c : SockId} :
    RemovesOwn s c ↔ ∀ owner, FindsEntry s c owner → owner ≠ c → (s.peers c).sid ≠ (s.peers owner).sid := by
  constructor
  · intro h owner hfinds hne hsid
    have hkept := h.entries _ owner hfinds.2 hne
    rw [(onClose_of_same hfinds hsid).1, PeerObjects.find_eq_some_iff, PeerObjects.mem_own_delete] at hkept
    exact hkept.2 rfl
  · intro h
    by_cases hown : FindsEntry s c c
    · obtain ⟨hregistry, ws, hws, hframe⟩ := onClose_of_same hown rfl
      refine ⟨fun k d hd hne => ?_, ws, hws, fun w hw => ⟨hframe w hw, hown.2⟩⟩
      rw [hregistry, PeerObjects.find_eq_some_iff, PeerObjects.mem_own_delete]
      refine ⟨PeerObjects.find_eq_some_iff.mp hd, ?_⟩
      rintro rfl
      exact hne (Option.some.inj (hd.symm.trans hown.2))
    · have hother : ∀ owner, FindsEntry s c owner → (s.peers c).sid ≠ (s.peers owner).sid := by
        intro owner hfinds
        refine h owner hfinds ?_
        rintro rfl
        exact hown hfinds
      obtain ⟨hregistry, hwritten⟩ := onClose_of_not_same hother
      exact ⟨fun k d hd _ => by rwa [hregistry], [], by simpa using hwritten, by simp⟩

/-! ### The `sid` of a connection -/

/-- Every connection has the `sid` of the endpoint that it was accepted from, and every entry is of an accepted
    connection. -/
structure EndpointsKnown (past : List (State × Call)) (s : State) : Prop where
  sid : ∀ c a p, Accepts past c a p → (s.peers c).sid = sidText a p
  accepted : ∀ c, (s.socks c).accepted = true ↔ ∃ a p, Accepts past c a p
  entry : ∀ k d, s.peerObjects.find k = some d → (s.socks d).accepted = true

theorem accepts_append_iff {past : List (State × Call)} {s : State} {k : Call} {c : SockId} {a : JsString} {p : Nat} :
    Accepts (past ++ [(s, k)]) c a p ↔ Accepts past c a p ∨ k = .accept c a p := by
  simp [Accepts, exists_or, eq_comm]

theorem State.accepted_of_live {s : State} {c : SockId} (h : s.live c = true) : (s.socks c).accepted = true := by
  simp only [State.live, Bool.and_eq_true] at h
  exact h.1

theorem sid_processDialog {s : State} (hs : s.crashed = false) (c d : SockId) :
    ((processDialog s c).peers d).sid = (s.peers d).sid := by
  have hpid : ∀ v, ((s.setPid c v).peers d).sid = (s.peers d).sid := by
    intro v
    by_cases hd : d = c
    · simp [hd]
    · simp [hd]
  by_cases hlogin : s.sentLogin c
  · rw [processDialog_login hlogin]
    rcases login_cases hs c (.word (s.words c) 1) with ⟨ws, -, h⟩ | ⟨owner, -, h⟩ | ⟨-, h⟩
    · rw [h]
      exact hpid _
    · rw [h]
      exact hpid _
    · rw [h]
      exact hpid _
  · rcases relay_cases hlogin with h | h | ⟨pid, remotePeer, -, -, h⟩
    · rw [h]
    · rw [h]
      rfl
    · rw [h]
      rfl

/-- A dialog makes no entry but its own. -/
theorem find_processDialog {s : State} (hs : s.crashed = false) {c : SockId} {k : JsString} {d : SockId}
    (h : (processDialog s c).peerObjects.find k = some d) : s.peerObjects.find k = some d ∨ d = c := by
  by_cases hlogin : s.sentLogin c
  · rw [processDialog_login hlogin] at h
    rcases login_cases hs c (.word (s.words c) 1) with ⟨ws, -, he⟩ | ⟨owner, -, he⟩ | ⟨hfree, he⟩
    · rw [he] at h
      exact .inl h
    · rw [he] at h
      exact .inl h
    · have hassign : (enlisted (s.setPid c (.word (s.words c) 1)) c).peerObjects =
          s.peerObjects.assign (JsValue.word (s.words c) 1).toText c := by simp [enlisted]
      rw [he, hassign] at h
      by_cases hname : (JsValue.word (s.words c) 1).toText = protoName
      · rw [hname, find_assign_protoName] at h
        exact .inl h
      · exact ((find_assign hname hfree c).mp h).imp_right (·.2)
  · rcases relay_cases hlogin with he | he | ⟨pid, remotePeer, -, -, he⟩
    · rw [he] at h
      exact .inl h
    · rw [he] at h
      exact .inl h
    · rw [he] at h
      exact .inl h

/-- What is known before a close: the endpoints, that of the closing connection among them. -/
def KnownAtClose (past : List (State × Call)) : State × Call → Prop
  | (s, .close c) => EndpointsKnown past s ∧ ∃ a p, Accepts past c a p
  | _ => True

theorem EndpointsKnown.closeSock {past : List (State × Call)} {s : State} (h : EndpointsKnown past s) (c : SockId) :
    EndpointsKnown past (s.closeSock c) := by
  have haccepted : ∀ d, ((s.closeSock c).socks d).accepted = (s.socks d).accepted := by
    intro d
    by_cases hd : d = c
    · simp [hd]
    · simp [hd]
  exact ⟨h.sid, fun d => by rw [haccepted, h.accepted], fun k d hd => by rw [haccepted]; exact h.entry k d hd⟩

theorem EndpointsKnown.onClose {past : List (State × Call)} {s : State} (h : EndpointsKnown past s) (c : SockId) :
    EndpointsKnown (past ++ [(s, .close c)]) (onClose s c) := by
  refine ⟨fun d a p haccepts => ?_, fun d => ?_, fun k d hd => ?_⟩
  · rw [peers_onClose]
    exact h.sid d a p ((accepts_append_iff.mp haccepts).resolve_right (by simp))
  · rw [socks_onClose, h.accepted]
    simp [accepts_append_iff]
  · rw [socks_onClose]
    refine h.entry k d ?_
    by_cases hsame : ∃ owner, FindsEntry s c owner ∧ (s.peers c).sid = (s.peers owner).sid
    · obtain ⟨owner, hfinds, hsid⟩ := hsame
      rw [(onClose_of_same hfinds hsid).1, PeerObjects.find_eq_some_iff, PeerObjects.mem_own_delete] at hd
      exact PeerObjects.find_eq_some_iff.mpr hd.1
    · rwa [(onClose_of_not_same fun owner hfinds hsid => hsame ⟨owner, hfinds, hsid⟩).1] at hd

theorem kept_endpoints {all : List (State × Call)} :
    Kept all fun past s => EndpointsKnown past s ∧ Journal.Valid KnownAtClose past where
  accept past s c a p h _ hc _ := by
    obtain ⟨h, hlog⟩ := h
    have hnew : ∀ a' p', ¬ Accepts past c a' p' := fun a' p' haccepts => by
      simp [(h.accepted c).mpr ⟨a', p', haccepts⟩] at hc
    refine ⟨⟨fun d a' p' haccepts => ?_, fun d => ?_, fun k d hd => ?_⟩, Journal.valid_concat_iff.mpr ⟨hlog, trivial⟩⟩
    · rcases accepts_append_iff.mp haccepts with haccepts | heq
      · have hne : d ≠ c := fun hd => hnew a' p' (hd ▸ haccepts)
        simpa [onAccept, hne] using h.sid d a' p' haccepts
      · obtain ⟨rfl, rfl, rfl⟩ := Call.accept.inj heq
        simp [onAccept, sidText]
    · simp only [accepts_append_iff]
      by_cases hd : d = c
      · subst hd
        exact iff_of_true (by simp [onAccept]) ⟨a, p, .inr rfl⟩
      · simp [onAccept, hd, h.accepted d, Ne.symm hd]
    · by_cases hne : d = c
      · simp [onAccept, hne]
      · simpa [onAccept, hne] using h.entry k d hd
  pending past s c p h := by
    obtain ⟨h, hlog⟩ := h
    have haccepted : ∀ d, ((s.setPending c p).socks d).accepted = (s.socks d).accepted := by
      intro d
      by_cases hd : d = c
      · simp [hd]
      · simp [hd]
    exact ⟨⟨h.sid, fun d => by rw [haccepted, h.accepted], fun k d hd => by rw [haccepted]; exact h.entry k d hd⟩, hlog⟩
  xmlWord past s c w h := by
    obtain ⟨h, hlog⟩ := h
    refine ⟨⟨fun d a p haccepts => ?_, h.accepted, h.entry⟩, hlog⟩
    rw [← h.sid d a p haccepts]
    by_cases hd : d = c
    · simp [hd]
    · simp [hd]
  dialog past s c h hs hc _ := by
    obtain ⟨h, hlog⟩ := h
    have haccepted := fun d => (socks_processDialog hs c d).1
    refine ⟨⟨fun d a p haccepts => ?_, fun d => ?_, fun k d hd => ?_⟩, Journal.valid_concat_iff.mpr ⟨hlog, trivial⟩⟩
    · rw [sid_processDialog hs]
      exact h.sid d a p ((accepts_append_iff.mp haccepts).resolve_right (by simp))
    · rw [haccepted, h.accepted]
      simp [accepts_append_iff]
    · rw [haccepted]
      rcases find_processDialog hs hd with hd | rfl
      · exact h.entry k d hd
      · exact State.accepted_of_live hc
  close past s c h _ hc _ := by
    obtain ⟨h, hlog⟩ := h
    have hclosed := h.closeSock c
    refine ⟨hclosed.onClose c, Journal.valid_concat_iff.mpr ⟨hlog, hclosed, ?_⟩⟩
    exact (h.accepted c).mp (State.accepted_of_live hc)

/-! ### Runs -/

theorem EndpointsKnown.init : EndpointsKnown [] State.init where
  sid c a p h := by simp [Accepts] at h
  accepted c := by simp [Accepts, State.init]
  entry k d h := by simp [State.init, PeerObjects.empty, PeerObjects.find] at h

/-- Each close of a run removes the own entry only, if and only if the endpoint of the closing connection is not
    written like the endpoint of another connection whose entry it finds under its name. -/
theorem close_removes_own {es : List Event} {t : State} (hrun : run State.init es = some t)
    {past rest : List (State × Call)} {s : State} {c : SockId}
    (hcalls : calls State.init es = past ++ (s, .close c) :: rest) :
    RemovesOwn s c ↔ ∀ owner, FindsEntry s c owner → owner ≠ c →
      ∀ a p a' p', Accepts past c a p → Accepts past owner a' p' → sidText a p ≠ sidText a' p' := by
  have hlog := (run_rule kept_endpoints ⟨EndpointsKnown.init, Journal.valid_nil⟩ hrun).2
  obtain ⟨hknown, hself⟩ := hlog past (s, .close c) rest hcalls
  rw [removesOwn_iff]
  constructor
  · intro h owner hfinds hne a p a' p' hc howner
    rw [← hknown.sid c a p hc, ← hknown.sid owner a' p' howner]
    exact h owner hfinds hne
  · intro h owner hfinds hne
    obtain ⟨a, p, hc⟩ := hself
    obtain ⟨a', p', howner⟩ := (hknown.accepted owner).mp (hknown.entry _ owner hfinds.2)
    rw [hknown.sid c a p hc, hknown.sid owner a' p' howner]
    exact h owner hfinds hne a p a' p' hc howner

theorem calls_concat_close {es : List Event} {s : State} (hrun : run State.init es = some s) (hs : s.crashed = false)
    {c : SockId} (hc : s.live c = true) :
    calls State.init (es ++ [.close c]) = calls State.init es ++ [(s.closeSock c, .close c)] := by
  rw [calls_append hrun]
  simp [calls, step, hs, hc, eventCalls]

theorem mem_of_accepts {past : List (State × Call)} {c : SockId} {a : JsString} {p : Nat} (h : Accepts past c a p) :
    .accept c a p ∈ past.map Prod.snd := by
  obtain ⟨s, hs⟩ := h
  exact List.mem_map_of_mem hs

/-- The second connection asks for the name of the first one and is refused. -/
def refused : List Event :=
  [.connection 1 "10.0.0.1".toList 4001, .connection 2 "10.0.0.2".toList 4002, .data 1 (cstr "<login:a>"),
    .data 2 (cstr "<login:a>")]

theorem close_removes_own_refused :
    run State.init (refused ++ [.close 2]) = some (after (refused ++ [.close 2])) ∧
      RemovesOwn ((after refused).closeSock 2) 2 := by
  have hrun : run State.init (refused ++ [.close 2]) = some (after (refused ++ [.close 2])) := run_after _ (by decide)
  have hcalls := calls_concat_close (run_after refused (by decide)) (by decide) (c := 2) (by decide)
  refine ⟨hrun, (close_removes_own hrun hcalls).mpr fun owner hfinds hne a p a' p' hc howner => ?_⟩
  obtain rfl : 1 = owner := by
    have hfind : ((after refused).closeSock 2).peerObjects.find
        (((after refused).closeSock 2).peers 2).pid.toText = some 1 := by decide
    exact Option.some.inj (hfind.symm.trans hfinds.2)
  have haccepts : (calls State.init refused).map Prod.snd =
      [.accept 1 "10.0.0.1".toList 4001, .accept 2 "10.0.0.2".toList 4002, .dialog 1, .dialog 2] := by decide
  have hc' := mem_of_accepts hc
  have howner' := mem_of_accepts howner
  rw [haccepts] at hc' howner'
  obtain ⟨rfl, rfl⟩ : a = "10.0.0.2".toList ∧ p = 4002 := by simpa using hc'
  obtain ⟨rfl, rfl⟩ : a' = "10.0.0.1".toList ∧ p' = 4001 := by simpa using howner'
  decide

/-- The endpoints `1.2.3.4` with port `11234` and `1.2.3.41` with port `1234` differ, and both are written
    `1.2.3.411234`. The second connection asks for the name of the first one and is refused. -/
def writtenAlike : List Event :=
  [.connection 1 "1.2.3.4".toList 11234, .connection 2 "1.2.3.41".toList 1234, .connection 3 "10.0.0.3".toList 4003,
    .data 3 (cstr "<login:b>"), .data 1 (cstr "<login:a>"), .data 2 (cstr "<login:a>")]

/-- When it closes, the first connection loses its entry although it is open, and the third one is told so. -/
theorem writtenAlike_evicted :
    (run State.init writtenAlike = some (after writtenAlike) ∧ ((after writtenAlike).socks 2).ended = true ∧
        (after writtenAlike).peerObjects.find "a".toList = some 1) ∧
      run State.init (writtenAlike ++ [.close 2]) = some (after (writtenAlike ++ [.close 2])) ∧
        (after (writtenAlike ++ [.close 2])).live 1 = true ∧
        (after (writtenAlike ++ [.close 2])).peerObjects.find "a".toList = none ∧
        (after (writtenAlike ++ [.close 2])).written.map (fun w => (w.sock, w.frame)) =
          [(1, .online "b".toList), (3, .login "a".toList), (3, .offline "a".toList)] :=
  ⟨⟨run_after _ (by decide), by decide, by decide⟩, run_after _ (by decide), by decide, by decide, by decide⟩

end ProbICE.DialogServer
