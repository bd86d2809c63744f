import ProbICE.Theorems.Handlers

/-! # The sender of a relayed message

A message goes out under the `pid` of the connection that sent it. The server assigns `pid` before it
looks whether the name is taken, so the name of a message is the sender's own only as long as nobody
asks for the name of another connection. -/

namespace ProbICE.DialogServer

/-- A message that went out came from the connection registered under its name at that moment. -/
def Authentic (w : Write) : Prop := ∀ pid words, w.frame = .message pid words → w.registry.get pid = some w.cause

/-- A login asks for a name that no other connection holds, and a close does not meet the entry of another
    connection with the same `sid`. -/
def NamesKept : State × Call → Prop
  | (_, .accept _ _ _) => True
  | (s, .dialog c) => s.sentLogin c → ∀ d ∈ s.peerObjects.get (JsValue.word (s.words c) 1).toText, d = c
  | (s, .close c) =>
    ∀ owner ∈ s.peerObjects.find (s.peers c).pid.toText, owner = c ∨ (s.peers c).sid ≠ (s.peers owner).sid

instance : DecidablePred NamesKept
  | (_, .accept _ _ _) => inferInstanceAs (Decidable True)
  | (s, .dialog c) => inferInstanceAs
      (Decidable (s.sentLogin c → ∀ d ∈ s.peerObjects.get (JsValue.word (s.words c) 1).toText, d = c))
  | (s, .close c) => inferInstanceAs (Decidable
      (∀ owner ∈ s.peerObjects.find (s.peers c).pid.toText, owner = c ∨ (s.peers c).sid ≠ (s.peers owner).sid))

/-- An open connection with a name is the one registered under it. -/
def Owned (s : State) : Prop :=
  ∀ c k, s.live c = true → (s.peers c).pid = .string k → s.peerObjects.get k = some c

theorem Owned.init : Owned State.init := by
  intro c k hc
  simp [State.init, State.live] at hc

theorem PeerObjects.get_of_find {o : PeerObjects} {k : JsString} {c : SockId} (h : o.find k = some c) :
    o.get k = some c := by
  have hk : k ≠ protoName := by
    rintro rfl
    exact o.proto_not_own (List.mem_map.mpr ⟨_, PeerObjects.find_eq_some_iff.mp h, rfl⟩)
  rwa [get, if_neg hk]

/-- After a login that nobody else's name stands against, the connections own their names. -/
theorem Owned.login {s : State} (h : Owned s) (hs : s.crashed = false) {c : SockId} {v : JsValue}
    (hname : ∀ d ∈ s.peerObjects.get v.toText, d = c) (hcrash : (login s c v).crashed = false) :
    Owned (login s c v) := by
  intro d k hd hpid
  rcases login_cases hs c v with ⟨ws, -, he⟩ | ⟨owner, hfind, he⟩ | ⟨hfind, he⟩
  · simp [he] at hcrash
  · rw [he] at hd hpid ⊢
    rw [live_endSock] at hd
    have howner : s.peerObjects.get v.toText = some c := by
      have hget := PeerObjects.get_of_find hfind
      rwa [hname owner hget] at hget
    by_cases hdc : d = c
    · subst hdc
      have hv : v = .string k := by simpa using hpid
      rwa [hv] at howner
    · exact h d k hd (by simpa [hdc] using hpid)
  · rw [he] at hd hpid ⊢
    have hget : ∀ j, (enlisted (s.setPid c v) c).peerObjects.get j =
        if j = v.toText then some c else s.peerObjects.get j := by
      intro j
      have : ((s.setPid c v).peers c).pid.toText = v.toText := by simp
      simp only [enlisted, State.setRegistry_peerObjects, this]
      exact PeerObjects.get_assign hfind c j
    by_cases hdc : d = c
    · subst hdc
      have hv : v = .string k := by simpa [enlisted] using hpid
      rw [hget, if_pos (by rw [hv, JsValue.toText_string])]
    · have hold : s.peerObjects.get k = some d := h d k hd (by simpa [enlisted, hdc] using hpid)
      have hk : k ≠ v.toText := by
        rintro rfl
        exact hdc (hname d hold)
      rw [hget, if_neg hk, hold]

theorem Owned.processDialog {s : State} (h : Owned s) (hs : s.crashed = false) {c : SockId}
    (hok : NamesKept (s, .dialog c)) (hcrash : (processDialog s c).crashed = false) : Owned (processDialog s c) := by
  by_cases hlogin : s.sentLogin c
  · rw [processDialog_login hlogin] at hcrash ⊢
    exact h.login hs (hok hlogin) hcrash
  · rcases relay_cases hlogin with he | he | ⟨pid, remotePeer, -, -, he⟩
    · rwa [he]
    · simp [he] at hcrash
    · rw [he]
      exact h

/-- A close removes the name of the connection that closes, and no other. -/
theorem Owned.onClose {s : State} (h : Owned s) {c : SockId} (hok : NamesKept (s.closeSock c, .close c))
    (hcrash : (onClose (s.closeSock c) c).crashed = false) : Owned (onClose (s.closeSock c) c) := by
  have hclosed : Owned (s.closeSock c) := by
    intro d k hd hpid
    by_cases hdc : d = c
    · subst hdc
      simp [State.live] at hd
    · exact h d k (by simpa [State.live, hdc] using hd) hpid
  rcases onClose_cases (s.closeSock c) c with ⟨-, he⟩ | he | ⟨owner, hfind, hsid, ⟨ws, -, he⟩ | he⟩
  · rwa [he]
  · simp [he] at hcrash
  · simp [he] at hcrash
  · intro d k hd hpid
    rw [he] at hd hpid ⊢
    have howner : owner = c := (hok owner hfind).resolve_right fun hne => hne hsid
    have hget := PeerObjects.get_of_find hfind
    have hold : (s.closeSock c).peerObjects.get k = some d := hclosed d k hd hpid
    have hk : k ≠ (s.peers c).pid.toText := by
      rintro rfl
      rw [State.closeSock_peerObjects] at hold
      rw [State.closeSock_peerObjects, State.closeSock_peers, hold, howner] at hget
      obtain rfl := Option.some.inj hget
      simp [State.live, State.forget] at hd
    exact (PeerObjects.get_delete hk).trans hold

/-- In a run in which names are kept, what has gone out is authentic, and the open connections own their
    names. -/
theorem kept_authentic {all : List (State × Call)} (hok : ∀ k ∈ all, NamesKept k) :
    Kept all fun _ s => (∀ w ∈ s.written, Authentic w) ∧ (s.crashed = false → Owned s) where
  accept _ s c a p h hs _ _ := by
    refine ⟨h.1, fun _ d k hd hpid => ?_⟩
    by_cases hdc : d = c
    · subst hdc
      simp [onAccept] at hpid
    · exact h.2 hs d k (by simpa [State.live, onAccept, hdc] using hd) (by simpa [onAccept, hdc] using hpid)
  pending _ s c p h := by
    refine ⟨h.1, fun hs d k hd hpid => h.2 hs d k ?_ hpid⟩
    by_cases hdc : d = c
    · subst hdc
      simpa [State.live] using hd
    · simpa [State.live, hdc] using hd
  xmlWord _ s c w h := by
    refine ⟨h.1, fun hs d k hd hpid => h.2 hs d k hd ?_⟩
    by_cases hdc : d = c
    · subst hdc
      simpa using hpid
    · simpa [hdc] using hpid
  dialog past s c h hs hc hall := by
    refine ⟨?_, (h.2 hs).processDialog hs (hok _ (hall.subset (by simp)))⟩
    obtain ⟨ws, hws, hnew⟩ := processDialog_written hs c
    rw [hws]
    intro w hw
    rcases List.mem_append.mp hw with hw | hw
    · exact h.1 w hw
    · intro pid words hframe
      rcases hnew w hw with hw | ⟨-, hw⟩
      · simpa [hframe, Frame.isNotice] using hw.isNotice
      · obtain ⟨k, words', hpid, hframe'⟩ := hw.frame
        obtain ⟨rfl, rfl⟩ : k = pid ∧ words' = words := by simpa [hframe] using hframe'.symm
        rw [hw.registry, hw.cause]
        exact h.2 hs c k hc hpid
  close past s c h hs hc hall := by
    refine ⟨?_, (h.2 hs).onClose (hok _ (hall.subset (by simp)))⟩
    obtain ⟨ws, hws, hnew⟩ := onClose_written (s.closeSock c) c
    rw [hws]
    intro w hw
    rcases List.mem_append.mp hw with hw | hw
    · exact h.1 w hw
    · intro pid words hframe
      simpa [hframe, Frame.isNotice] using (hnew w hw).isNotice

/-- Sender authenticity. In a run in which no connection asks for a name that another one holds and no
    close removes another's name, every message comes from the connection registered under its name. -/
theorem sender_authentic {es : List Event} {t : State} (hrun : run State.init es = some t)
    (hok : ∀ k ∈ calls State.init es, NamesKept k) : ∀ w ∈ t.written, Authentic w :=
  (run_rule (kept_authentic hok) ⟨by simp [State.init], fun _ => Owned.init⟩ hrun).1

/-- Two clients, one of which sends a word to the other. -/
def greeting : List Event :=
  [.connection 1 "10.0.0.1".toList 4001, .connection 2 "10.0.0.2".toList 4002, .data 1 (cstr "<login:a>"),
    .data 2 (cstr "<login:b>"), .data 1 (cstr "<send:b:hi>"), .close 1]

theorem sender_authentic_greeting :
    run State.init greeting = some (after greeting) ∧ ∀ w ∈ (after greeting).written, Authentic w :=
  ⟨run_after _ (by decide), sender_authentic (run_after _ (by decide)) (by decide)⟩

/-- A third connection asks for the name `a`, is refused, and sends a word to `b`. -/
def impostor : List Event :=
  [.connection 1 "10.0.0.1".toList 4001, .connection 2 "10.0.0.2".toList 4002, .connection 3 "10.0.0.3".toList 4003,
    .data 1 (cstr "<login:a>"), .data 2 (cstr "<login:b>"), .data 3 (cstr "<login:a><send:b:hi>")]

/-- The word reaches `b` under the name `a`, although `a` is the first connection. -/
theorem not_authentic_impostor :
    run State.init impostor = some (after impostor) ∧
      ∃ w ∈ (after impostor).written, w.sock = 2 ∧ w.frame = .message "a".toList ["hi".toList] ∧ w.cause = 3 ∧
        w.registry.get "a".toList = some 1 ∧ ¬ Authentic w := by
  refine ⟨run_after _ (by decide), (after impostor).written.getLast (by decide), List.getLast_mem _, by decide,
    by decide, by decide, by decide, fun h => ?_⟩
  have := h "a".toList ["hi".toList] (by decide)
  revert this
  decide

end ProbICE.DialogServer
