import ProbICE.Theorems.Handlers

/-! # The registry of the dialog server

`peerObjects` should hold each logged in connection under its own name. It does in every run in which
no connection logs in twice or after the server has ended its socket. A second login on a registered
connection changes `pid` and leaves the old entry, so the registry then holds it under two names. -/

namespace ProbICE.DialogServer

/-- Each entry holds a connection that is open in both directions, and whose `pid` is its name. -/
structure Registered (s : State) : Prop where
  pid : ∀ k c, s.peerObjects.find k = some c → (s.peers c).pid = .string k
  ended : ∀ k c, s.peerObjects.find k = some c → (s.socks c).ended = false
  closed : ∀ k c, s.peerObjects.find k = some c → (s.socks c).closed = false
  accepted : ∀ k c, s.peerObjects.find k = some c → (s.socks c).accepted = true
  once : ∀ j k c, s.peerObjects.find j = some c → s.peerObjects.find k = some c → j = k

/-- The connection is stored under some name. -/
def State.stored (s : State) (c : SockId) : Prop := c ∈ s.peerObjects.own.map Prod.snd

instance (s : State) (c : SockId) : Decidable (s.stored c) := inferInstanceAs (Decidable (_ ∈ _))

theorem State.stored_iff {s : State} {c : SockId} : s.stored c ↔ ∃ k, s.peerObjects.find k = some c := by
  simp [State.stored, PeerObjects.find_eq_some_iff]

/-- The name in the frame that `c` has sent. -/
def State.sentName (s : State) (c : SockId) : JsValue := .word (s.words c) 1

/-- The connection may log in: no name is registered for it, and if it gets the name it asks for, then
    it has asked for one and the server has not ended its socket. -/
def MayLogin (s : State) (c : SockId) : Prop :=
  ¬ s.stored c ∧
    (s.peerObjects.find (s.sentName c).toText = none → (s.sentName c).toText ≠ protoName →
      (s.socks c).ended = false ∧ s.sentName c ≠ .undefined)

instance (s : State) (c : SockId) : Decidable (MayLogin s c) := inferInstanceAs (Decidable (_ ∧ _))

/-- Every login frame comes from a connection that may log in. -/
def LoginsAllowed : State × Call → Prop
  | (s, .dialog c) => s.sentLogin c → MayLogin s c
  | _ => True

instance : DecidablePred LoginsAllowed
  | (s, .dialog c) => inferInstanceAs (Decidable (s.sentLogin c → MayLogin s c))
  | (_, .accept _ _ _) | (_, .close _) => inferInstanceAs (Decidable True)

/-! ### Steps -/

theorem Registered.init : Registered State.init := by
  constructor <;> intro k c <;> simp [State.init, PeerObjects.empty, PeerObjects.find]

/-- What `Registered` reads of the connection `d` is the same in two states. -/
structure SameConnection (s s' : State) (d : SockId) : Prop where
  pid : (s'.peers d).pid = (s.peers d).pid
  ended : (s'.socks d).ended = (s.socks d).ended
  closed : (s'.socks d).closed = (s.socks d).closed
  accepted : (s'.socks d).accepted = (s.socks d).accepted

/-- A registry stays right if it gets no new entry and its connections stay the same. -/
theorem Registered.mono {s s' : State} (h : Registered s)
    (hs : ∀ k d, s'.peerObjects.find k = some d → s.peerObjects.find k = some d ∧ SameConnection s s' d) :
    Registered s' where
  pid k d hd := (hs k d hd).2.pid.trans (h.pid k d (hs k d hd).1)
  ended k d hd := (hs k d hd).2.ended.trans (h.ended k d (hs k d hd).1)
  closed k d hd := (hs k d hd).2.closed.trans (h.closed k d (hs k d hd).1)
  accepted k d hd := (hs k d hd).2.accepted.trans (h.accepted k d (hs k d hd).1)
  once i j d hi hj := h.once i j d (hs i d hi).1 (hs j d hj).1

theorem ne_of_not_stored {s : State} {c : SockId} (hc : ¬ s.stored c) {k : JsString} {d : SockId}
    (hd : s.peerObjects.find k = some d) : d ≠ c := fun e => hc (State.stored_iff.mpr ⟨k, e ▸ hd⟩)

theorem Registered.onAccept {s : State} (h : Registered s) {c : SockId} (hc : (s.socks c).accepted = false)
    (a : JsString) (p : Nat) : Registered (onAccept s c a p) := by
  refine h.mono fun k d hd => ⟨hd, ?_⟩
  have hne : d ≠ c := by
    rintro rfl
    simp [h.accepted k d hd] at hc
  constructor <;> simp [DialogServer.onAccept, hne]

theorem Registered.log {s : State} (h : Registered s) (ws : List Write) : Registered (s.log ws) :=
  h.mono fun _ _ hd => ⟨hd, rfl, rfl, rfl, rfl⟩

/-- A change of `pid` is seen by the entries of that connection only. -/
theorem Registered.setPid {s : State} (h : Registered s) {c : SockId} (hc : ¬ s.stored c) (v : JsValue) :
    Registered (s.setPid c v) := by
  refine h.mono fun k d hd => ⟨hd, ?_⟩
  have hne := ne_of_not_stored hc hd
  constructor <;> simp [hne]

theorem Registered.setXmlWord {s : State} (h : Registered s) (c : SockId) (w : JsString) :
    Registered (s.setXmlWord c w) := by
  refine h.mono fun k d hd => ⟨hd, ?_⟩
  by_cases hdc : d = c
  · subst hdc
    constructor <;> simp
  · constructor <;> simp [hdc]

theorem Registered.setPending {s : State} (h : Registered s) (c : SockId) (p : List UInt8) :
    Registered (s.setPending c p) := by
  refine h.mono fun k d hd => ⟨hd, ?_⟩
  by_cases hdc : d = c
  · subst hdc
    constructor <;> simp
  · constructor <;> simp [hdc]

/-- Ending the socket of a connection that has no entry. -/
theorem Registered.endSock {s : State} (h : Registered s) {c : SockId} (hc : ¬ s.stored c) :
    Registered (s.endSock c) := by
  refine h.mono fun k d hd => ⟨hd, ?_⟩
  have hne := ne_of_not_stored hc hd
  constructor <;> simp [hne]

theorem stored_setPid {s : State} {c d : SockId} {v : JsValue} : (s.setPid c v).stored d ↔ s.stored d := Iff.rfl

theorem find_assign {o : PeerObjects} {k : JsString} (hk : k ≠ protoName) (h : o.find k = none) (c : SockId)
    {j : JsString} {d : SockId} : (o.assign k c).find j = some d ↔ o.find j = some d ∨ j = k ∧ d = c := by
  simp [PeerObjects.find_eq_some_iff, PeerObjects.own_assign hk h]

theorem find_assign_protoName (o : PeerObjects) (c : SockId) (j : JsString) :
    (o.assign protoName c).find j = o.find j := by
  rw [PeerObjects.assign_protoName]
  rfl

/-- A login that is admitted keeps the registry right exactly if its connection may log in. -/
theorem registered_enlisted_iff {s : State} (h : Registered s) {c : SockId} (hc : s.live c = true) {v : JsValue}
    (hfind : s.peerObjects.find v.toText = none) (hv : v ≠ .null) (hstored : ¬ s.stored c) :
    Registered (enlisted (s.setPid c v) c) ↔
      (v.toText ≠ protoName → (s.socks c).ended = false ∧ v ≠ .undefined) := by
  have hpid : ((s.setPid c v).peers c).pid.toText = v.toText := by simp
  simp only [State.live, Bool.and_eq_true, Bool.not_eq_true'] at hc
  constructor
  · intro h' hk
    have hentry : (enlisted (s.setPid c v) c).peerObjects.find v.toText = some c := by
      simp only [enlisted, State.setRegistry_peerObjects, hpid]
      exact (find_assign hk hfind c).mpr (.inr ⟨rfl, rfl⟩)
    refine ⟨by simpa [enlisted] using h'.ended _ _ hentry, ?_⟩
    rintro rfl
    simpa [enlisted] using h'.pid _ _ hentry
  · intro hok
    by_cases hk : v.toText = protoName
    · have hfind' : ∀ j, (enlisted (s.setPid c v) c).peerObjects.find j = s.peerObjects.find j := by
        intro j
        simp only [enlisted, State.setRegistry_peerObjects, hpid, hk]
        exact find_assign_protoName _ c j
      refine (h.setPid hstored v).mono fun j d hd => ⟨?_, rfl, rfl, rfl, rfl⟩
      rwa [hfind'] at hd
    · obtain ⟨hended, hundef⟩ := hok hk
      have hstring : v = .string v.toText := by
        cases v with
        | null => exact absurd rfl hv
        | undefined => exact absurd rfl hundef
        | string t => rfl
      have hfind' : ∀ j d, (enlisted (s.setPid c v) c).peerObjects.find j = some d ↔
          s.peerObjects.find j = some d ∨ j = v.toText ∧ d = c := by
        intro j d
        simp only [enlisted, State.setRegistry_peerObjects, hpid]
        exact find_assign hk hfind c
      constructor
      · intro j d hd
        rcases (hfind' j d).mp hd with hd | ⟨rfl, rfl⟩
        · exact (h.setPid hstored v).pid j d hd
        · simpa [enlisted] using hstring
      · intro j d hd
        rcases (hfind' j d).mp hd with hd | ⟨rfl, rfl⟩
        · exact h.ended j d hd
        · exact hended
      · intro j d hd
        rcases (hfind' j d).mp hd with hd | ⟨rfl, rfl⟩
        · exact h.closed j d hd
        · exact hc.2
      · intro j d hd
        rcases (hfind' j d).mp hd with hd | ⟨rfl, rfl⟩
        · exact h.accepted j d hd
        · exact hc.1
      · intro i j d hi hj
        rcases (hfind' i d).mp hi with hi | ⟨rfl, rfl⟩ <;> rcases (hfind' j d).mp hj with hj | ⟨rfl, hd⟩
        · exact h.once i j d hi hj
        · exact absurd hd (ne_of_not_stored hstored hi)
        · exact absurd rfl (ne_of_not_stored hstored hj)
        · rfl

theorem JsValue.word_ne_null (words : List JsString) (i : Nat) : JsValue.word words i ≠ .null := by
  unfold JsValue.word
  split <;> simp

/-- A connection that is stored spoils the registry by logging in again. -/
theorem not_registered_login {s : State} {c : SockId} (hs : s.crashed = false)
    (hstored : s.stored c) {v : JsValue} (hcrash : (login s c v).crashed = false) : ¬ Registered (login s c v) := by
  obtain ⟨k, hk⟩ := State.stored_iff.mp hstored
  intro h'
  rcases login_cases hs c v with ⟨ws, -, he⟩ | ⟨owner, -, he⟩ | ⟨hfind, he⟩
  · simp [he] at hcrash
  · rw [he] at h'
    simpa using h'.ended k c hk
  · rw [he] at h'
    have hpid : ((s.setPid c v).peers c).pid.toText = v.toText := by simp
    by_cases hp : v.toText = protoName
    · have hkept : (enlisted (s.setPid c v) c).peerObjects.find k = some c := by
        simp only [enlisted, State.setRegistry_peerObjects, hpid, hp]
        exact (find_assign_protoName _ c k).trans hk
      have hname : v = .string k := by simpa [enlisted] using h'.pid k c hkept
      have hfree : s.peerObjects.find k = none := by rwa [hname, JsValue.toText_string] at hfind
      exact absurd (hk.symm.trans hfree) (by simp)
    · have hentries : ∀ j, s.peerObjects.find j = some c ∨ j = v.toText →
          (enlisted (s.setPid c v) c).peerObjects.find j = some c := by
        intro j hj
        simp only [enlisted, State.setRegistry_peerObjects, hpid]
        exact (find_assign hp hfind c).mpr (hj.imp id fun e => ⟨e, rfl⟩)
      have hsame := h'.once k v.toText c (hentries k (.inl hk)) (hentries _ (.inr rfl))
      rw [← hsame, hk] at hfind
      exact absurd hfind (by simp)

/-- A login keeps the registry right exactly if its connection may log in. -/
theorem registered_login_iff {s : State} (h : Registered s) {c : SockId} (hs : s.crashed = false)
    (hc : s.live c = true) (hcrash : (login s c (s.sentName c)).crashed = false) :
    Registered (login s c (s.sentName c)) ↔ MayLogin s c := by
  by_cases hstored : s.stored c
  · simp [MayLogin, hstored, not_registered_login hs hstored hcrash]
  · rcases login_cases hs c (s.sentName c) with ⟨ws, -, he⟩ | ⟨owner, hfind, he⟩ | ⟨hfind, he⟩
    · simp [he] at hcrash
    · rw [he]
      simp only [MayLogin, hstored, hfind, not_false_eq_true, true_and, reduceCtorEq, false_implies, iff_true]
      exact (h.setPid hstored _).endSock (mt stored_setPid.mp hstored)
    · rw [he, registered_enlisted_iff h hc hfind (JsValue.word_ne_null _ _) hstored]
      simp [MayLogin, hstored, hfind]

theorem Registered.send {s : State} (h : Registered s) (c : SockId) (words : List JsString)
    (hcrash : (send s c words).crashed = false) : Registered (send s c words) := by
  rcases send_cases s c words with he | he | ⟨pid, remotePeer, -, -, he⟩
  · rwa [he]
  · simp [he] at hcrash
  · rw [he]
    exact h.log _

/-- A closing connection leaves no entry behind. -/
theorem Registered.onClose {s : State} (h : Registered s) (c : SockId)
    (hcrash : (onClose (s.closeSock c) c).crashed = false) : Registered (onClose (s.closeSock c) c) := by
  -- the entries of the other connections do not change
  have hkeep : ∀ o : PeerObjects, (∀ k d, o.find k = some d → s.peerObjects.find k = some d ∧ d ≠ c) →
      Registered ((s.closeSock c).setRegistry o) := by
    intro o ho
    refine h.mono fun k d hd => ⟨(ho k d hd).1, ?_⟩
    have hne := (ho k d hd).2
    constructor <;> simp [hne]
  rcases onClose_cases (s.closeSock c) c with ⟨howner, he⟩ | he | ⟨owner, -, -, ⟨ws, -, he⟩ | he⟩
  · rw [he]
    refine hkeep s.peerObjects fun k d hd => ⟨hd, ?_⟩
    rintro rfl
    have hpid := h.pid k d hd
    exact howner d (by simpa [hpid] using hd) rfl
  · simp [he] at hcrash
  · simp [he] at hcrash
  · rw [he]
    refine (hkeep _ fun k d hd => ?_).log _
    rw [PeerObjects.find_eq_some_iff, PeerObjects.mem_own_delete, ← PeerObjects.find_eq_some_iff] at hd
    refine ⟨hd.1, ?_⟩
    rintro rfl
    have hpid := h.pid k d hd.1
    exact hd.2 (by simp [hpid])

theorem Registered.processDialog {s : State} (h : Registered s) {c : SockId} (hs : s.crashed = false)
    (hc : s.live c = true) (hcrash : (processDialog s c).crashed = false) (hok : LoginsAllowed (s, .dialog c)) :
    Registered (processDialog s c) := by
  by_cases hlogin : s.sentLogin c
  · rw [processDialog_login hlogin] at hcrash ⊢
    exact (registered_login_iff h hs hc hcrash).mpr (hok hlogin)
  · rcases processDialog_cases hlogin with he | he
    · rwa [he]
    · rw [he] at hcrash ⊢
      exact h.send c _ hcrash

/-! ### Runs -/

/-- While the server runs, its registry stays right in a run of allowed logins. -/
theorem kept_registered {all : List (State × Call)} (hok : ∀ k ∈ all, LoginsAllowed k) :
    Kept all fun _ s => s.crashed = false → Registered s where
  accept _ _ _ a p h hs hc _ _ := (h hs).onAccept hc a p
  pending _ _ c p h hs := (h hs).setPending c p
  xmlWord _ _ c w h hs := (h hs).setXmlWord c w
  dialog _ _ _ h hs hc hall hcrash := (h hs).processDialog hs hc hcrash (hok _ (hall.subset (by simp)))
  close _ _ c h hs _ _ hcrash := (h hs).onClose c hcrash

/-- Only an accepted connection can be closed. -/
theorem kept_accepted {all : List (State × Call)} :
    Kept all fun _ s => ∀ c, (s.socks c).closed = true → (s.socks c).accepted = true where
  accept _ s d a p h _ _ _ c := by
    by_cases hcd : c = d
    · simp [onAccept, hcd]
    · simpa [onAccept, hcd] using h c
  pending _ s d p h c := by
    by_cases hcd : c = d
    · simpa [hcd] using h d
    · simpa [hcd] using h c
  xmlWord _ _ _ _ h := h
  dialog _ s d h hs _ _ c := by
    rw [(socks_processDialog hs d c).1, (socks_processDialog hs d c).2]
    exact h c
  close _ s d h _ hd _ c := by
    rw [socks_onClose]
    simp only [State.live, Bool.and_eq_true] at hd
    by_cases hcd : c = d
    · simp [hcd, hd.1]
    · simpa [hcd] using h c

/-- What holds of a connection `c` that was closed when the server had written `before`: it stays
    closed, and nothing is written to it. -/
structure Silent (before : List Write) (c : SockId) (s : State) : Prop where
  registered : s.crashed = false → Registered s
  accepted : (s.socks c).accepted = true
  closed : (s.socks c).closed = true
  written : ∃ ws, s.written = before ++ ws ∧ ∀ w ∈ ws, w.sock ≠ c

theorem Silent.extend {before : List Write} {c : SockId} {s s' : State} (h : Silent before c s)
    (hs : s.crashed = false) (hs' : s'.crashed = false → Registered s')
    (haccepted : (s'.socks c).accepted = true) (hclosed : (s'.socks c).closed = true) {d : SockId}
    (hd : s.live d = true) {ws : List Write} (hws : s'.written = s.written ++ ws)
    (hto : ∀ w ∈ ws, w.sock = d ∨ ∃ k, s.peerObjects.find k = some w.sock) : Silent before c s' where
  registered := hs'
  accepted := haccepted
  closed := hclosed
  written := by
    obtain ⟨vs, hvs, hsilent⟩ := h.written
    refine ⟨vs ++ ws, by rw [hws, hvs, List.append_assoc], fun w hw => ?_⟩
    rcases List.mem_append.mp hw with hw | hw
    · exact hsilent w hw
    · rintro rfl
      rcases hto w hw with hwd | ⟨k, hk⟩
      · simp [State.live, ← hwd, h.closed] at hd
      · exact absurd h.closed (by simp [(h.registered hs).closed k _ hk])

theorem kept_silent {all : List (State × Call)} (hok : ∀ k ∈ all, LoginsAllowed k) (before : List Write)
    (c : SockId) : Kept all fun _ s => Silent before c s where
  accept past s d a p h hs hd hall := by
    have hne : c ≠ d := by
      rintro rfl
      simp [h.accepted] at hd
    exact ⟨(kept_registered hok).accept past s d a p h.registered hs hd hall, by simpa [onAccept, hne] using h.accepted,
      by simpa [onAccept, hne] using h.closed, h.written⟩
  pending past s d p h := by
    refine ⟨(kept_registered hok).pending past s d p h.registered, ?_, ?_, h.written⟩
    · by_cases hd : c = d <;> simp [hd, ← h.accepted]
    · by_cases hd : c = d <;> simp [hd, ← h.closed]
  xmlWord past s d w h := ⟨(kept_registered hok).xmlWord past s d w h.registered, h.accepted, h.closed, h.written⟩
  dialog past s d h hs hd hall := by
    obtain ⟨ws, hws, hto⟩ := processDialog_written hs d
    obtain ⟨haccepted, hclosed⟩ := socks_processDialog hs d c
    refine h.extend hs ((kept_registered hok).dialog past s d h.registered hs hd hall) (haccepted.trans h.accepted)
      (hclosed.trans h.closed) hd hws fun w hw => ?_
    rcases hto w hw with hw | ⟨-, hw⟩
    · exact hw.sock
    · exact .inr hw.sock
  close past s d h hs hd hall := by
    obtain ⟨ws, hws, hto⟩ := onClose_written (s.closeSock d) d
    refine h.extend hs ((kept_registered hok).close past s d h.registered hs hd hall) ?_ ?_ hd hws
      fun w hw => (hto w hw).sock
    · rw [socks_onClose]
      by_cases hcd : c = d <;> simp [hcd, ← h.accepted]
    · rw [socks_onClose]
      by_cases hcd : c = d <;> simp [hcd, h.closed]

/-- Registry integrity. In a run whose logins are allowed the registry is right as long as the server
    runs, and from the moment a connection has closed, no name is left with it and nothing is written
    to it. -/
theorem registry_integrity {es : List Event} {t : State} (hrun : run State.init es = some t)
    (hok : ∀ k ∈ calls State.init es, LoginsAllowed k) :
    (t.crashed = false → Registered t) ∧
      ∀ es₁ es₂ s c, es = es₁ ++ es₂ → run State.init es₁ = some s → (s.socks c).closed = true →
        (t.crashed = false → ∀ k, t.peerObjects.find k ≠ some c) ∧
          ∃ ws, t.written = s.written ++ ws ∧ ∀ w ∈ ws, w.sock ≠ c := by
  refine ⟨run_rule (kept_registered hok) (fun _ => Registered.init) hrun, ?_⟩
  rintro es₁ es₂ s c rfl hs hclosed
  obtain ⟨s', hs', ht⟩ := run_append hrun
  obtain rfl := Option.some.inj (hs'.symm.trans hs)
  have hcalls := calls_append hs' es₂
  have hsilent : Silent s'.written c s' := by
    refine ⟨?_, run_rule kept_accepted (by simp [State.init]) hs' c hclosed, hclosed, [], by simp, by simp⟩
    exact run_rule (kept_registered fun k hk => hok k (by rw [hcalls]; exact List.mem_append_left _ hk))
      (fun _ => Registered.init) hs'
  have hend := (kept_silent hok s'.written c).run hsilent ht 
    (hcalls ▸ List.prefix_rfl : calls State.init es₁ ++ calls s' es₂ <+: calls State.init (es₁ ++ es₂))
  refine ⟨fun ht k hk => ?_, hend.written⟩
  have := (hend.registered ht).closed k c hk
  simp [hend.closed] at this

/-- Two clients log in, and the first one leaves. -/
def visit : List Event :=
  [.connection 1 "10.0.0.1".toList 4001, .connection 2 "10.0.0.2".toList 4002, .data 1 (cstr "<login:a>"),
    .data 2 (cstr "<login:b>"), .close 1]

theorem registry_integrity_visit : run State.init visit = some (after visit) ∧ Registered (after visit) ∧
    ∀ k, (after visit).peerObjects.find k ≠ some 1 := by
  have hrun := run_after visit (by decide)
  have hok := registry_integrity hrun (by decide)
  refine ⟨hrun, hok.1 (by decide), ?_⟩
  exact (hok.2 visit [] _ 1 (by simp) hrun (by decide)).1 (by decide)

/-- One client logs in under two names. -/
def twoNames : List Event := [.connection 1 "10.0.0.1".toList 4001, .data 1 (cstr "<login:a><login:b>")]

/-- Then the registry holds the client under both names, and its `pid` is not the first one. -/
theorem not_registered_twoNames :
    run State.init twoNames = some (after twoNames) ∧ (after twoNames).crashed = false ∧
      (after twoNames).peerObjects.own = [("a".toList, 1), ("b".toList, 1)] ∧
      ((after twoNames).peers 1).pid = .string "b".toList ∧ ¬ Registered (after twoNames) := by
  refine ⟨run_after _ (by decide), by decide, by decide, by decide, fun h => ?_⟩
  have := h.once "a".toList "b".toList 1 (by decide) (by decide)
  simp at this

end ProbICE.DialogServer
