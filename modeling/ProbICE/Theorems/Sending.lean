import ProbICE.PeerRun
import ProbICE.Theorems.Frames

/-! # What the stream to the server carries

A socket may take a part of what it is given, or nothing. The peer does not look at the answer, so the stream consists of
whole frames as long as the socket takes every frame whole, and no longer. -/

namespace ProbICE

/-! ### The socket -/

namespace AsyncSocket

/-- The bytes that a connected socket takes. -/
def taken (sock : AsyncSocket) (pv : List UInt8) : List UInt8 :=
  match sock.answers with
  | [] => pv
  | none :: _ => []
  | some n :: _ => pv.take n

/-- The socket takes all bytes of the next call. -/
def TakesWhole (sock : AsyncSocket) (pv : List UInt8) : Prop :=
  ∀ answer, sock.answers.head? = some answer → ∃ n, answer = some n ∧ pv.length ≤ n

theorem Send_connected {sock : AsyncSocket} (h : sock.state = .connected) (pv : List UInt8) :
    (sock.Send pv).1 = { sock with outgoing := sock.outgoing ++ sock.taken pv, answers := sock.answers.tail } := by
  obtain ⟨state, outgoing, answers⟩ := sock
  obtain rfl : state = .connected := h
  cases answers with
  | nil => rfl
  | cons answer answers =>
    cases answer with
    | none => simp [Send, taken]
    | some n => rfl

theorem isPrefix_taken (sock : AsyncSocket) (pv : List UInt8) : sock.taken pv <+: pv := by
  unfold taken
  split
  · exact List.prefix_rfl
  · exact List.nil_prefix
  · exact List.take_prefix _ _

theorem taken_eq_iff {sock : AsyncSocket} {pv : List UInt8} (hne : pv ≠ []) :
    sock.taken pv = pv ↔ sock.TakesWhole pv := by
  obtain ⟨state, outgoing, answers⟩ := sock
  cases answers with
  | nil => simp [taken, TakesWhole]
  | cons answer answers =>
    cases answer with
    | none => simp [taken, TakesWhole, hne.symm]
    | some n =>
      have htake : pv.take n = pv ↔ pv.length ≤ n :=
        ⟨fun heq => by simpa using congrArg List.length heq, List.take_of_length_le⟩
      have hwhole : TakesWhole ⟨state, outgoing, some n :: answers⟩ pv ↔ pv.length ≤ n := by simp [TakesWhole]
      exact htake.trans hwhole.symm

end AsyncSocket

/-! ### The calls of the peer -/

namespace Peer

theorem frame_ne_nil (words : List CString) : frame words ≠ [] := by simp [frame, body]

theorem callFrame_ne_nil (p : Peer) (c : Call) : p.callFrame c ≠ [] := by
  cases c with
  | login =>
    rw [callFrame, loginMessage_eq]
    exact frame_ne_nil _
  | send to_ msg =>
    rw [callFrame, msgPayload_eq]
    exact frame_ne_nil _

/-- The call gives its frame to the socket. -/
def Sends (p : Peer) : Call → Prop
  | .login => True
  | .send _ _ => p.isOnline = true

/-- The frame of the call, if there is one, goes onto the stream as a whole. -/
def TakesWhole (p : Peer) (c : Call) : Prop := p.Sends c → ∀ sock, p.sock = some sock → sock.TakesWhole (p.callFrame c)

/-- A call on a connected socket. -/
theorem call_cases {p : Peer} {sock : AsyncSocket} (hsock : p.sock = some sock) (hstate : sock.state = .connected)
    (c : Call) :
    (p.Sends c ∧ (p.call c).2 = 0 ∧ (p.call c).1.outgoing = p.outgoing ++ sock.taken (p.callFrame c)) ∨
      (¬ p.Sends c ∧ (p.call c).2 = -1 ∧ (p.call c).1.outgoing = p.outgoing) := by
  have hsend : ∀ q : Peer, q.sock = some (sock.Send (p.callFrame c)).1 →
      q.outgoing = p.outgoing ++ sock.taken (p.callFrame c) := by
    intro q hq
    rw [outgoing, outgoing, hq, hsock, AsyncSocket.Send_connected hstate]
    rfl
  cases c with
  | login =>
    refine .inl ⟨trivial, rfl, hsend _ ?_⟩
    simp [call, onConnectEvent, hsock, hstate, callFrame]
  | send to_ msg =>
    by_cases hon : p.isOnline = true
    · refine .inl ⟨hon, by simp [call, SendMessage, hon, hsock], hsend _ ?_⟩
      simp [call, SendMessage, hon, hsock, callFrame]
    · exact .inr ⟨hon, by simp [call, SendMessage, hon], by simp [call, SendMessage, hon]⟩

end Peer

/-! ### The stream -/

namespace Outbox

/-- The stream carries the frames whose calls have returned 0, and then at most the beginning of the frame of the next
    call. -/
def Whole (o : Outbox) (later : List Peer.Call) : Prop :=
  ∃ begun, o.peer.outgoing = o.returned.flatten ++ begun ∧
    (begun = [] ∨ ∃ c cs, later = c :: cs ∧ begun <+: o.peer.callFrame c)

/-- The stream carries exactly the frames whose calls have returned 0. -/
def Even (o : Outbox) : Prop := o.peer.outgoing = o.returned.flatten

/-- A part of a frame is missing. -/
def Short (o : Outbox) : Prop := o.peer.outgoing.length < o.returned.flatten.length

theorem Even.whole {o : Outbox} (h : o.Even) (later : List Peer.Call) : o.Whole later :=
  ⟨[], h.trans (List.append_nil _).symm, .inl rfl⟩

theorem Short.not_whole {o : Outbox} (h : o.Short) (later : List Peer.Call) : ¬ o.Whole later := by
  rintro ⟨begun, heq, -⟩
  rw [Short, heq, List.length_append] at h
  omega

/-- What a call adds to the stream, and what it adds to the frames. -/
theorem step_cases {o t : Outbox} {c : Peer.Call} (h : o.step c = some t) :
    (∃ taken, t.peer.outgoing = o.peer.outgoing ++ taken ∧ t.returned = o.returned ++ [o.peer.callFrame c] ∧
        taken <+: o.peer.callFrame c ∧ (taken = o.peer.callFrame c ↔ o.peer.TakesWhole c)) ∨
      (o.peer.TakesWhole c ∧ t.peer.outgoing = o.peer.outgoing ∧ t.returned = o.returned) := by
  obtain ⟨hopen, h⟩ := Option.ite_none_right_eq_some.mp h
  obtain rfl := Option.some.inj h
  obtain ⟨sock, hsock, hstate⟩ := Option.map_eq_some_iff.mp hopen
  obtain ⟨hsends, hresult, hout⟩ | ⟨hnot, hresult, hout⟩ := Peer.call_cases hsock hstate c
  · refine .inl ⟨_, hout, if_pos hresult, sock.isPrefix_taken _, ?_⟩
    rw [AsyncSocket.taken_eq_iff (o.peer.callFrame_ne_nil c)]
    exact ⟨fun htakes _ sock' hsock' => Option.some.inj (hsock.symm.trans hsock') ▸ htakes,
      fun htakes => htakes hsends sock hsock⟩
  · refine .inr ⟨fun hsends => absurd hsends hnot, hout, if_neg ?_⟩
    rw [hresult]
    decide

theorem Even.step {o t : Outbox} {c : Peer.Call} (h : o.Even) (hstep : o.step c = some t) :
    (o.peer.TakesWhole c ∧ t.Even) ∨ (¬ o.peer.TakesWhole c ∧ t.Short) := by
  obtain ⟨taken, hout, hreturned, hpre, hiff⟩ | ⟨htakes, hout, hreturned⟩ := step_cases hstep
  · by_cases htakes : o.peer.TakesWhole c
    · refine .inl ⟨htakes, ?_⟩
      rw [Even, hout, hreturned, h, hiff.mpr htakes, List.flatten_append, List.flatten_singleton]
    · refine .inr ⟨htakes, ?_⟩
      have hle := hpre.length_le
      have hne : taken.length ≠ (o.peer.callFrame c).length := fun heq => htakes (hiff.mp (hpre.eq_of_length heq))
      rw [Short, hout, hreturned, h, List.flatten_append, List.flatten_singleton, List.length_append, List.length_append]
      omega
  · exact .inl ⟨htakes, by rw [Even, hout, hreturned, h]⟩

theorem Short.step {o t : Outbox} {c : Peer.Call} (h : o.Short) (hstep : o.step c = some t) : t.Short := by
  obtain ⟨taken, hout, hreturned, hpre, -⟩ | ⟨-, hout, hreturned⟩ := step_cases hstep
  · have hle := hpre.length_le
    rw [Short] at h ⊢
    rw [hout, hreturned, List.flatten_append, List.flatten_singleton, List.length_append, List.length_append]
    omega
  · rwa [Short, hout, hreturned]

/-- At every moment of a run the stream consists of the frames whose calls have returned 0, if each call finds a socket
    that takes its frame whole, and only then. -/
theorem stream_whole {p : Peer} {cs : List Peer.Call} {t : Outbox} (hout : p.outgoing = [])
    (hrun : run { peer := p, returned := [] } cs = some t) :
    (∀ cs₁ cs₂, cs = cs₁ ++ cs₂ → ∀ u, run { peer := p, returned := [] } cs₁ = some u → u.Whole cs₂) ↔
      Machine.Along step (fun o c => o.peer.TakesWhole c) { peer := p, returned := [] } cs := by
  have heven : Even { peer := p, returned := [] } := hout
  refine Machine.along_iff_good (I := Even) (D := Short) (Q := Whole) (fun o c u hs htakes hstep => ?_)
    (fun o c u hs hnot hstep => ?_) (fun _ _ _ => Short.step) (fun _ later h => h.whole later)
    (fun _ h => h.not_whole []) heven hrun
  · obtain ⟨-, hu⟩ | ⟨hnot, -⟩ := hs.step hstep
    · exact hu
    · exact absurd htakes hnot
  · obtain ⟨htakes, -⟩ | ⟨-, hu⟩ := hs.step hstep
    · exact absurd htakes hnot
    · exact hu

/-- A peer on a new connection. `answers` is what its socket will answer. -/
def connected (answers : List (Option Nat)) : Outbox where
  peer :=
    { id := cstr "a", isOnline := true, sock := some { state := .connected, outgoing := [], answers }, xmlBuffer := [] }
  returned := []

/-- The socket takes the nine bytes of the login frame, and then all it is given. -/
theorem stream_whole_login :
    ∃ t, run (connected [some 9]) [.login, .send (cstr "b") [cstr "pp_accept"]] = some t ∧ t.Whole [] := by
  have halong : Machine.Along step (fun o c => o.peer.TakesWhole c) (connected [some 9])
      [.login, .send (cstr "b") [cstr "pp_accept"]] := by
    refine ⟨fun _ sock hsock answer hanswer => ?_, fun u hu => ⟨fun _ sock hsock answer hanswer => ?_, ?_⟩⟩
    · obtain rfl := Option.some.inj hsock
      obtain rfl := Option.some.inj hanswer
      exact ⟨9, rfl, by decide⟩
    · obtain rfl := Option.some.inj hu
      obtain rfl := Option.some.inj hsock
      cases hanswer
    · exact fun _ _ => trivial
  exact ⟨_, rfl, (stream_whole rfl rfl).mpr halong _ [] (List.append_nil _).symm _ rfl⟩

/-- The socket takes five bytes of the first frame: the second one follows these at once. -/
theorem short_write_not_whole :
    ∃ t, run (connected [some 5]) [.send (cstr "b") [cstr "x"], .send (cstr "b") [cstr "y"]] = some t ∧
      t.peer.outgoing = cstr "<send<send:b:y>" ∧ t.returned = [cstr "<send:b:x>", cstr "<send:b:y>"] ∧ ¬ t.Whole [] :=
  ⟨_, rfl, by decide, by decide, Short.not_whole (by unfold Short; decide) []⟩

end Outbox

end ProbICE
