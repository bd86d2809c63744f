import ProbICE.DialogServer

/-! # What the handlers of the dialog server can do

One lemma for each handler says every outcome it has. The results about runs of the server use these
lemmas and the rule `run_rule`, and never unfold a handler. -/

namespace ProbICE.DialogServer

/-! ### peerObjects -/

namespace PeerObjects

theorem ownInOrder_perm (o : PeerObjects) : o.ownInOrder.Perm o.own := by
  have hsort := List.perm_insertionSort (fun e f : JsString × SockId => (arrayIndex e.1).getD 0 ≤ (arrayIndex f.1).getD 0)
    (o.own.filter fun e => (arrayIndex e.1).isSome)
  have hsplit := List.filter_append_perm (fun e : JsString × SockId => (arrayIndex e.1).isSome) o.own
  refine (hsort.append_right _).trans (List.Perm.trans ?_ hsplit)
  simp

theorem forIn_of_proto_none {o : PeerObjects} (h : o.proto = none) (peers : SockId → PeerClass) :
    o.forIn peers = (o.ownInOrder.map Prod.snd).map .peer := by
  simp [forIn, h]

theorem own_assign {o : PeerObjects} {k : JsString} (hk : k ≠ protoName) (h : o.find k = none) (c : SockId) :
    (o.assign k c).own = o.own ++ [(k, c)] := by
  rw [find_eq_none_iff] at h
  rw [assign, dif_neg hk, dif_neg h]

theorem proto_assign_of_ne {o : PeerObjects} {k : JsString} (hk : k ≠ protoName) (c : SockId) :
    (o.assign k c).proto = o.proto := by
  rw [assign, dif_neg hk]
  split <;> rfl

theorem assign_protoName (o : PeerObjects) (c : SockId) : o.assign protoName c = { o with proto := some c } := by
  rw [assign, dif_pos rfl]

theorem find_assign {o : PeerObjects} {k : JsString} (hk : k ≠ protoName) (h : o.find k = none) (c : SockId) (j : JsString) :
    (o.assign k c).find j = if j = k then some c else o.find j := by
  rw [find, own_assign hk h, List.lookup_append]
  by_cases hjk : j = k
  · subst hjk
    rw [find] at h
    simp [h]
  · have : (j == k) = false := by simpa using hjk
    simp [hjk, List.lookup_cons, this, find]

theorem get_assign {o : PeerObjects} {k : JsString} (h : o.find k = none) (c : SockId) (j : JsString) :
    (o.assign k c).get j = if j = k then some c else o.get j := by
  by_cases hk : k = protoName
  · subst hk
    rw [assign_protoName]
    by_cases hj : j = protoName <;> simp [get, hj, find]
  · by_cases hj : j = protoName
    · simp [get, hj, Ne.symm hk, proto_assign_of_ne hk]
    · simp [get, hj, find_assign hk h]

theorem mem_own_delete {o : PeerObjects} {k : JsString} {e : JsString × SockId} :
    e ∈ (o.delete k).own ↔ e ∈ o.own ∧ e.1 ≠ k := by
  simp [delete]

theorem get_delete {o : PeerObjects} {k j : JsString} (h : j ≠ k) : (o.delete k).get j = o.get j := by
  by_cases hj : j = protoName
  · simp [get, hj, delete]
  · rw [get, get, if_neg hj, if_neg hj, Option.ext_iff]
    intro c
    simp [find_eq_some_iff, mem_own_delete, h]

/-- A name that is free, or that one connection holds. -/
theorem hasOwnProperty_cases (o : PeerObjects) (k : JsString) :
    o.hasOwnProperty k = none ∨ (o.hasOwnProperty k = some false ∧ o.find k = none) ∨
      ∃ c, o.hasOwnProperty k = some true ∧ o.find k = some c := by
  unfold hasOwnProperty
  by_cases h : (o.find hasOwnPropertyName).isSome
  · simp [h]
  · rcases hk : o.find k with _ | c <;> simp [h]

end PeerObjects

/-! ### The two loops -/

/-- The writes of the loop that sends the online list to `c`. -/
def onlineWrites (s : State) (c : SockId) (owners : List SockId) : List Write :=
  owners.map fun d => ⟨c, .online (s.peers d).pid.toText, c, s.peerObjects⟩

/-- The writes of a loop that sends one frame to every peer. -/
def allWrites (s : State) (cause : SockId) (frame : Frame) (owners : List SockId) : List Write :=
  owners.map fun d => ⟨d, frame, cause, s.peerObjects⟩

/-- The frame is not a message. -/
def Frame.isNotice : Frame → Bool
  | .message _ _ => false
  | _ => true

theorem writeOnline_peers (c : SockId) (s : State) (owners : List SockId) :
    writeOnline c s (owners.map .peer) = s.log (onlineWrites s c owners) := by
  induction owners generalizing s with
  | nil => simp [writeOnline, onlineWrites]
  | cons d ds ih => simp [writeOnline, Property.pid, ih, State.write, onlineWrites]

theorem writeAll_peers (cause : SockId) (frame : Frame) (s : State) (owners : List SockId) :
    writeAll cause frame s (owners.map .peer) = s.log (allWrites s cause frame owners) := by
  induction owners generalizing s with
  | nil => simp [writeAll, allWrites]
  | cons d ds ih => simp [writeAll, Property.writer, ih, State.write, allWrites]

/-- A write of a loop in an event of `c`: the frame is a notice, and it goes to `c` or to a peer. -/
structure NoticeFrom (s : State) (c : SockId) (w : Write) : Prop where
  isNotice : w.frame.isNotice = true
  sock : w.sock = c ∨ ∃ k, s.peerObjects.find k = some w.sock

/-- The online loop writes notices to `c` only, whether it comes to its end or not. -/
theorem writeOnline_cases (c : SockId) (s : State) (ps : List Property) :
    ∃ ws, (∀ w ∈ ws, NoticeFrom s c w) ∧ (writeOnline c s ps = s.log ws ∨ writeOnline c s ps = (s.log ws).crash) := by
  induction ps generalizing s with
  | nil => exact ⟨[], by simp, .inl (by simp [writeOnline])⟩
  | cons p ps ih =>
    rcases hp : p.pid s.peers with _ | v
    · exact ⟨[], by simp, .inr (by simp [writeOnline, hp])⟩
    · obtain ⟨ws, hws, h⟩ := ih (s.write c c (.online v.toText))
      refine ⟨⟨c, .online v.toText, c, s.peerObjects⟩ :: ws, ?_, ?_⟩
      · intro w hw
        rcases List.mem_cons.mp hw with rfl | hw
        · exact ⟨rfl, .inl rfl⟩
        · exact ⟨(hws w hw).isNotice, (hws w hw).sock⟩
      · simpa [writeOnline, hp, State.write] using h

/-- The other loop comes to its end only if it meets nothing but peers. -/
theorem writeAll_cases (cause : SockId) (frame : Frame) (hf : frame.isNotice = true) (s : State) (ps : List Property)
    (hps : ∀ d, .peer d ∈ ps → ∃ k, s.peerObjects.find k = some d) :
    (∃ ws, (∀ w ∈ ws, NoticeFrom s cause w) ∧ writeAll cause frame s ps = (s.log ws).crash) ∨
      ∃ owners, ps = owners.map .peer ∧ writeAll cause frame s ps = s.log (allWrites s cause frame owners) := by
  induction ps generalizing s with
  | nil => exact .inr ⟨[], rfl, by simp [writeAll, allWrites]⟩
  | cons p ps ih =>
    rcases hp : p.writer with _ | d
    · exact .inl ⟨[], by simp, by simp [writeAll, hp]⟩
    · have hpeer : p = .peer d := by
        cases p <;> simp_all [Property.writer]
      have hrest : ∀ d, .peer d ∈ ps → ∃ k, s.peerObjects.find k = some d :=
        fun d hd => hps d (List.mem_cons_of_mem _ hd)
      rcases ih (s.write cause d frame) hrest with ⟨ws, hws, h⟩ | ⟨owners, rfl, h⟩
      · refine .inl ⟨⟨d, frame, cause, s.peerObjects⟩ :: ws, ?_, ?_⟩
        · intro w hw
          rcases List.mem_cons.mp hw with rfl | hw
          · exact ⟨hf, .inr (hps d (hpeer ▸ List.mem_cons_self))⟩
          · exact ⟨(hws w hw).isNotice, (hws w hw).sock⟩
        · simpa [writeAll, hp, State.write] using h
      · refine .inr ⟨d :: owners, by simp [hpeer], ?_⟩
        simpa [writeAll, hp, State.write, allWrites] using h

/-- The inherited properties are no peer objects. -/
theorem writer_inherited (peers : SockId → PeerClass) (c : SockId) :
    ∀ e ∈ PeerObjects.inherited peers c, e.2.writer = none := by
  intro e he
  simp only [PeerObjects.inherited, List.mem_cons, List.not_mem_nil, or_false] at he
  rcases he with rfl | rfl | rfl | rfl <;> rfl

/-- The peers that a loop over `peerObjects` meets are the own properties. -/
theorem filterMap_forIn (o : PeerObjects) (peers : SockId → PeerClass) :
    (o.forIn peers).filterMap Property.writer = o.ownInOrder.map Prod.snd := by
  have hrest : ∀ c, (((PeerObjects.inherited peers c).filter fun e => (o.find e.1).isNone).map Prod.snd).filterMap
      Property.writer = [] := by
    intro c
    rw [List.filterMap_eq_nil_iff]
    intro p hp
    obtain ⟨e, he, rfl⟩ := List.mem_map.mp hp
    exact writer_inherited peers c e (List.mem_of_mem_filter he)
  rw [PeerObjects.forIn, List.filterMap_append, List.filterMap_map]
  rcases o.proto with _ | c
  · simp [Function.comp_def, Property.writer]
  · simp only [hrest, List.append_nil]
    simp [Function.comp_def, Property.writer]

/-- A loop over `peerObjects` that meets nothing but peers meets the own properties. -/
theorem forIn_eq_peers {o : PeerObjects} {peers : SockId → PeerClass} {owners : List SockId}
    (h : o.forIn peers = owners.map .peer) : owners = o.ownInOrder.map Prod.snd := by
  have := filterMap_forIn o peers
  rw [h] at this
  simpa [List.filterMap_map, Function.comp_def, Property.writer] using this

theorem find_of_peer_mem_forIn {o : PeerObjects} {peers : SockId → PeerClass} {d : SockId}
    (h : .peer d ∈ o.forIn peers) : ∃ k, o.find k = some d := by
  have hmem : d ∈ (o.forIn peers).filterMap Property.writer := List.mem_filterMap.mpr ⟨_, h, rfl⟩
  rw [filterMap_forIn] at hmem
  obtain ⟨e, he, rfl⟩ := List.mem_map.mp hmem
  exact ⟨e.1, PeerObjects.find_eq_some_iff.mpr (o.ownInOrder_perm.subset he)⟩

/-! ### The handlers -/

/-- The writes of a login that is admitted: the online list to `c`, and the notice to every peer. -/
def enlistWrites (s : State) (c : SockId) (owners : List SockId) : List Write :=
  onlineWrites s c owners ++ allWrites s c (.login (s.peers c).pid.toText) owners

/-- The state after a login that is admitted. -/
def enlisted (s : State) (c : SockId) : State :=
  (s.log (enlistWrites s c (s.peerObjects.ownInOrder.map Prod.snd))).setRegistry
    (s.peerObjects.assign (s.peers c).pid.toText c)

theorem enlist_cases {s : State} (hs : s.crashed = false) (c : SockId) :
    (∃ ws, (∀ w ∈ ws, NoticeFrom s c w) ∧ enlist s c = (s.log ws).crash) ∨
      ((∃ owners : List SockId, s.peerObjects.forIn s.peers = owners.map .peer) ∧ enlist s c = enlisted s c) := by
  obtain ⟨ws, hws, h | h⟩ := writeOnline_cases c s (s.peerObjects.forIn s.peers)
  · have hpeers : ∀ d, .peer d ∈ s.peerObjects.forIn s.peers → ∃ k, (s.log ws).peerObjects.find k = some d :=
      fun d => find_of_peer_mem_forIn
    rcases writeAll_cases c (.login (s.peers c).pid.toText) rfl (s.log ws) _ hpeers with
      ⟨vs, hvs, h'⟩ | ⟨owners, hpeers, h'⟩
    · refine .inl ⟨ws ++ vs, ?_, by simp [enlist, h, hs, h']⟩
      intro w hw
      rcases List.mem_append.mp hw with hw | hw
      · exact hws w hw
      · exact ⟨(hvs w hw).isNotice, (hvs w hw).sock⟩
    · refine .inr ⟨⟨owners, hpeers⟩, ?_⟩
      have hall : allWrites (s.log ws) c (.login (s.peers c).pid.toText) owners =
        allWrites s c (.login (s.peers c).pid.toText) owners := rfl
      have hws : s.log ws = s.log (onlineWrites s c owners) := by rw [← h, hpeers, writeOnline_peers]
      simp only [enlist, h, State.log_crashed, hs, State.log_peerObjects, State.log_peers, h', hall, Bool.false_eq_true, if_false]
      rw [hws, State.log_log, enlisted, ← forIn_eq_peers hpeers]
      rfl
  · exact .inl ⟨ws, hws, by simp [enlist, h]⟩

/-- A login assigns `pid`. Then it ends the server, or is refused because the name is taken, or is
    admitted. -/
theorem login_cases {s : State} (hs : s.crashed = false) (c : SockId) (v : JsValue) :
    (∃ ws, (∀ w ∈ ws, NoticeFrom s c w) ∧ login s c v = ((s.setPid c v).log ws).crash) ∨
      (∃ owner, s.peerObjects.find v.toText = some owner ∧ login s c v = (s.setPid c v).endSock c) ∨
      (s.peerObjects.find v.toText = none ∧ login s c v = enlisted (s.setPid c v) c) := by
  rcases s.peerObjects.hasOwnProperty_cases v.toText with h | ⟨h, hfind⟩ | ⟨owner, h, hfind⟩
  · exact .inl ⟨[], by simp, by simp [login, h]⟩
  · rcases enlist_cases (s := s.setPid c v) hs c with ⟨ws, hws, h'⟩ | ⟨-, h'⟩
    · exact .inl ⟨ws, fun w hw => ⟨(hws w hw).isNotice, (hws w hw).sock⟩, by simp [login, h, h']⟩
    · exact .inr (.inr ⟨hfind, by simp [login, h, h']⟩)
  · exact .inr (.inl ⟨owner, hfind, by simp [login, h]⟩)

/-- A send frame of a connection with a name is relayed to the owner of the name it asks for. -/
theorem send_cases (s : State) (c : SockId) (words : List JsString) :
    send s c words = s ∨ send s c words = s.crash ∨
      ∃ pid remotePeer, (s.peers c).pid = .string pid ∧
        s.peerObjects.find (JsValue.word words 1).toText = some remotePeer ∧
        send s c words = s.write c remotePeer (.message pid (words.drop 2)) := by
  rcases hpid : (s.peers c).pid with _ | _ | pid
  · simp [send, hpid]
  · simp [send, hpid]
  · rcases s.peerObjects.hasOwnProperty_cases (JsValue.word words 1).toText with h | ⟨h, hfind⟩ | ⟨remotePeer, h, hfind⟩
    · simp [send, hpid, h]
    · simp [send, hpid, h]
    · exact .inr (.inr ⟨pid, remotePeer, rfl, hfind, by simp [send, hpid, h, hfind]⟩)

/-- The words of the frame that `c` has sent. -/
def State.words (s : State) (c : SockId) : List JsString := wordsOf (s.peers c).xmlWord

/-- The frame that `c` has sent is a login frame. -/
def State.sentLogin (s : State) (c : SockId) : Prop := (s.words c)[0]? = some "login".toList

instance (s : State) (c : SockId) : Decidable (s.sentLogin c) := inferInstanceAs (Decidable (_ = _))

theorem processDialog_login {s : State} {c : SockId} (h : s.sentLogin c) :
    processDialog s c = login s c (.word (s.words c) 1) := if_pos h

theorem processDialog_cases {s : State} {c : SockId} (h : ¬ s.sentLogin c) :
    processDialog s c = s ∨ processDialog s c = send s c (s.words c) := by
  have : processDialog s c = if (s.words c)[0]? = some "send".toList then send s c (s.words c) else s := if_neg h
  rw [this]
  split
  · exact .inr rfl
  · exact .inl rfl

/-- A frame that is no login is relayed to a registered name, or it comes to nothing. -/
theorem relay_cases {s : State} {c : SockId} (h : ¬ s.sentLogin c) :
    processDialog s c = s ∨ processDialog s c = s.crash ∨
      ∃ pid remotePeer, (s.peers c).pid = .string pid ∧
        s.peerObjects.find (JsValue.word (s.words c) 1).toText = some remotePeer ∧
        processDialog s c = s.write c remotePeer (.message pid ((s.words c).drop 2)) := by
  rcases processDialog_cases h with he | he
  · exact .inl he
  · rw [he]
    exact send_cases s c (s.words c)

/-- The state in which the loop of a close begins: the name of `c` has been deleted. -/
def State.forget (s : State) (c : SockId) : State := s.setRegistry (s.peerObjects.delete (s.peers c).pid.toText)

/-- A close removes the name of the connection, if its owner has the same `sid`, and tells the others. -/
theorem onClose_cases (s : State) (c : SockId) :
    ((∀ owner, s.peerObjects.find (s.peers c).pid.toText = some owner → (s.peers c).sid ≠ (s.peers owner).sid) ∧
      onClose s c = s) ∨
    onClose s c = s.crash ∨
    ∃ owner, s.peerObjects.find (s.peers c).pid.toText = some owner ∧ (s.peers c).sid = (s.peers owner).sid ∧
      ((∃ ws, (∀ w ∈ ws, NoticeFrom (s.forget c) c w) ∧ onClose s c = ((s.forget c).log ws).crash) ∨
        onClose s c = (s.forget c).log (allWrites (s.forget c) c (.offline (s.peers c).pid.toText)
          ((s.forget c).peerObjects.ownInOrder.map Prod.snd))) := by
  rcases s.peerObjects.hasOwnProperty_cases (s.peers c).pid.toText with h | ⟨h, hfind⟩ | ⟨owner, h, hfind⟩
  · exact .inr (.inl (by simp [onClose, h]))
  · exact .inl ⟨by simp [hfind], by simp [onClose, h]⟩
  · by_cases hsid : (s.peers c).sid = (s.peers owner).sid
    · refine .inr (.inr ⟨owner, hfind, hsid, ?_⟩)
      have honClose : onClose s c = writeAll c (.offline (s.peers c).pid.toText) (s.forget c)
          ((s.forget c).peerObjects.forIn (s.forget c).peers) := by
        simp [onClose, h, hfind, hsid, State.forget]
      rw [honClose]
      rcases writeAll_cases c (.offline (s.peers c).pid.toText) rfl (s.forget c) _
        (fun d => find_of_peer_mem_forIn) with ⟨ws, hws, h'⟩ | ⟨owners, hpeers, h'⟩
      · exact .inl ⟨ws, hws, h'⟩
      · exact .inr (by rw [h', forIn_eq_peers hpeers])
    · exact .inl ⟨by simpa [hfind] using hsid, by simp [onClose, h, hfind, hsid]⟩

/-! ### A registry that behaves as a map -/

/-- The property names that every JavaScript object inherits. -/
def builtinNames : List JsString :=
  ["constructor".toList, hasOwnPropertyName, "isPrototypeOf".toList, "propertyIsEnumerable".toList,
    "toLocaleString".toList, "toString".toList, "valueOf".toList, protoName, "__defineGetter__".toList,
    "__defineSetter__".toList, "__lookupGetter__".toList, "__lookupSetter__".toList]

/-- Nobody has registered under a name that changes how the object works. -/
structure PeerObjects.Plain (o : PeerObjects) : Prop where
  proto : o.proto = none
  hasOwn : o.find hasOwnPropertyName = none

namespace PeerObjects.Plain
variable {o : PeerObjects} (h : o.Plain)
include h

theorem hasOwnProperty (k : JsString) : o.hasOwnProperty k = some (o.find k).isSome := by
  simp [PeerObjects.hasOwnProperty, h.hasOwn]

theorem forIn (peers : SockId → PeerClass) : o.forIn peers = (o.ownInOrder.map Prod.snd).map .peer :=
  forIn_of_proto_none h.proto peers

theorem assign_of_ne {k : JsString} (hproto : k ≠ protoName) (hhas : k ≠ hasOwnPropertyName) (hfind : o.find k = none)
    (c : SockId) : (o.assign k c).Plain := by
  refine ⟨(proto_assign_of_ne hproto c).trans h.proto, ?_⟩
  have hmem := find_eq_none_iff.mp h.hasOwn
  rw [find_eq_none_iff, own_assign hproto hfind, List.map_append, List.mem_append, not_or]
  exact ⟨hmem, by simpa using hhas.symm⟩

theorem assign {k : JsString} (hk : k ∉ builtinNames) (hfind : o.find k = none) (c : SockId) :
    (o.assign k c).Plain := by
  refine h.assign_of_ne ?_ ?_ hfind c
  · rintro rfl
    exact hk (by simp [builtinNames])
  · rintro rfl
    exact hk (by simp [builtinNames])

theorem delete (k : JsString) : (o.delete k).Plain := by
  refine ⟨h.proto, ?_⟩
  rw [find_eq_none_iff]
  intro hmem
  exact find_eq_none_iff.mp h.hasOwn ((List.filter_sublist.map Prod.fst).subset hmem)

end PeerObjects.Plain

section Plain
variable {s : State} (ho : s.peerObjects.Plain)
include ho

theorem login_taken {c : SockId} {v : JsValue} (h : (s.peerObjects.find v.toText).isSome) :
    login s c v = (s.setPid c v).endSock c := by
  have hhas : (s.setPid c v).peerObjects.hasOwnProperty v.toText = some true := by
    simpa [h] using ho.hasOwnProperty v.toText
  simp only [login, hhas]

theorem login_free (hs : s.crashed = false) {c : SockId} {v : JsValue} (h : s.peerObjects.find v.toText = none) :
    login s c v = enlisted (s.setPid c v) c := by
  have hhas : (s.setPid c v).peerObjects.hasOwnProperty v.toText = some false := by
    simpa [h] using ho.hasOwnProperty v.toText
  have hpeers : ∀ peers, (s.setPid c v).peerObjects.forIn peers = (s.peerObjects.ownInOrder.map Prod.snd).map .peer :=
    fun peers => ho.forIn peers
  simp only [login, hhas, enlist, hpeers, writeOnline_peers, State.log_crashed, State.setPid_crashed, hs,
    State.log_peerObjects, writeAll_peers, Bool.false_eq_true, if_false, State.log_log]
  rfl

theorem onClose_free {c : SockId} (h : s.peerObjects.find (s.peers c).pid.toText = none) : onClose s c = s := by
  simp [onClose, ho.hasOwnProperty, h]

theorem onClose_other {c owner : SockId} (h : s.peerObjects.find (s.peers c).pid.toText = some owner)
    (hsid : (s.peers c).sid ≠ (s.peers owner).sid) : onClose s c = s := by
  simp [onClose, ho.hasOwnProperty, h, hsid]

theorem onClose_same {c owner : SockId} (h : s.peerObjects.find (s.peers c).pid.toText = some owner)
    (hsid : (s.peers c).sid = (s.peers owner).sid) :
    onClose s c = (s.forget c).log (allWrites (s.forget c) c (.offline (s.peers c).pid.toText)
      ((s.forget c).peerObjects.ownInOrder.map Prod.snd)) := by
  have hpeers : ∀ peers, (s.forget c).peerObjects.forIn peers = ((s.forget c).peerObjects.ownInOrder.map Prod.snd).map
      .peer := fun peers => (ho.delete (s.peers c).pid.toText).forIn peers
  have honClose : onClose s c = writeAll c (.offline (s.peers c).pid.toText) (s.forget c)
      ((s.forget c).peerObjects.forIn (s.forget c).peers) := by
    simp [onClose, ho.hasOwnProperty, h, hsid, State.forget]
  rw [honClose, hpeers, writeAll_peers]

theorem send_plain (c : SockId) (words : List JsString) :
    send s c words = s ∨ ∃ pid remotePeer, (s.peers c).pid = .string pid ∧
      s.peerObjects.find (JsValue.word words 1).toText = some remotePeer ∧
      send s c words = s.write c remotePeer (.message pid (words.drop 2)) := by
  rcases send_cases s c words with h | h | h
  · exact .inl h
  · unfold send at h ⊢
    rcases hpid : (s.peers c).pid with _ | _ | pid
    · simp
    · simp
    · rcases hfind : s.peerObjects.find (JsValue.word words 1).toText with _ | remotePeer
      · simp [ho.hasOwnProperty, hfind]
      · simp [ho.hasOwnProperty, hfind]
  · exact .inr h

end Plain

/-! ### What every handler keeps -/

/-- A relayed message: the name under which it goes out is the `pid` of the connection that sent it. -/
structure MessageFrom (s : State) (c : SockId) (w : Write) : Prop where
  frame : ∃ pid words, (s.peers c).pid = .string pid ∧ w.frame = .message pid words
  sock : ∃ k, s.peerObjects.find k = some w.sock
  cause : w.cause = c
  registry : w.registry = s.peerObjects

theorem onlineWrites_noticeFrom {s s' : State} {c : SockId} {owners : List SockId} :
    ∀ w ∈ onlineWrites s c owners, NoticeFrom s' c w := by
  intro w hw
  obtain ⟨d, -, rfl⟩ := List.mem_map.mp hw
  exact ⟨rfl, .inl rfl⟩

theorem allWrites_noticeFrom {s : State} (s' : State) {c cause : SockId} {frame : Frame} (hf : frame.isNotice = true)
    (ho : s'.peerObjects = s.peerObjects) :
    ∀ w ∈ allWrites s cause frame (s.peerObjects.ownInOrder.map Prod.snd), NoticeFrom s' c w := by
  intro w hw
  obtain ⟨d, hd, rfl⟩ := List.mem_map.mp hw
  obtain ⟨e, he, rfl⟩ := List.mem_map.mp hd
  refine ⟨hf, .inr ⟨e.1, ?_⟩⟩
  rw [ho]
  exact PeerObjects.find_eq_some_iff.mpr (s.peerObjects.ownInOrder_perm.subset he)

theorem login_written {s : State} (hs : s.crashed = false) (c : SockId) (v : JsValue) :
    ∃ ws, (login s c v).written = s.written ++ ws ∧ ∀ w ∈ ws, NoticeFrom s c w := by
  rcases login_cases hs c v with ⟨ws, hws, h⟩ | ⟨owner, -, h⟩ | ⟨-, h⟩
  · exact ⟨ws, by rw [h]; rfl, hws⟩
  · exact ⟨[], by rw [h]; simp, by simp⟩
  · refine ⟨_, by rw [h]; rfl, fun w hw => ?_⟩
    rcases List.mem_append.mp hw with hw | hw
    · exact onlineWrites_noticeFrom w hw
    · exact allWrites_noticeFrom s rfl rfl w hw

/-- The writes of a dialog: notices, or one relayed message if the frame is no login. -/
theorem processDialog_written {s : State} (hs : s.crashed = false) (c : SockId) :
    ∃ ws, (processDialog s c).written = s.written ++ ws ∧
      ∀ w ∈ ws, NoticeFrom s c w ∨ ¬ s.sentLogin c ∧ MessageFrom s c w := by
  by_cases hlogin : s.sentLogin c
  · rw [processDialog_login hlogin]
    obtain ⟨ws, h, hws⟩ := login_written hs c (.word (s.words c) 1)
    exact ⟨ws, h, fun w hw => .inl (hws w hw)⟩
  · rcases relay_cases hlogin with h | h | ⟨pid, remotePeer, hpid, hfind, h⟩
    · exact ⟨[], by simp [h], by simp⟩
    · exact ⟨[], by simp [h], by simp⟩
    · refine ⟨_, by rw [h]; rfl, fun w hw => .inr ⟨hlogin, ?_⟩⟩
      obtain rfl := List.mem_singleton.mp hw
      exact ⟨⟨pid, _, hpid, rfl⟩, ⟨_, hfind⟩, rfl, rfl⟩

/-- The writes of a close are notices. -/
theorem onClose_written (s : State) (c : SockId) :
    ∃ ws, (onClose s c).written = s.written ++ ws ∧ ∀ w ∈ ws, NoticeFrom s c w := by
  have hforget : ∀ w, NoticeFrom (s.forget c) c w → NoticeFrom s c w := by
    refine fun w hw => ⟨hw.isNotice, hw.sock.imp id fun ⟨k, hk⟩ => ⟨k, ?_⟩⟩
    rw [PeerObjects.find_eq_some_iff] at hk ⊢
    exact (PeerObjects.mem_own_delete.mp hk).1
  rcases onClose_cases s c with ⟨-, h⟩ | h | ⟨owner, -, -, ⟨ws, hws, h⟩ | h⟩
  · exact ⟨[], by simp [h], by simp⟩
  · exact ⟨[], by simp [h], by simp⟩
  · exact ⟨ws, by rw [h]; rfl, fun w hw => hforget w (hws w hw)⟩
  · exact ⟨_, by rw [h]; rfl, fun w hw => hforget w (allWrites_noticeFrom (s.forget c) rfl rfl w hw)⟩

theorem live_endSock (s : State) (c d : SockId) : (s.endSock c).live d = s.live d := by
  unfold State.live
  by_cases h : d = c
  · subst h
    simp
  · simp [h]

/-- A dialog opens and closes no connection. -/
theorem socks_processDialog {s : State} (hs : s.crashed = false) (c d : SockId) :
    ((processDialog s c).socks d).accepted = (s.socks d).accepted ∧
      ((processDialog s c).socks d).closed = (s.socks d).closed := by
  by_cases hlogin : s.sentLogin c
  · rw [processDialog_login hlogin]
    rcases login_cases hs c (.word (s.words c) 1) with ⟨ws, -, h⟩ | ⟨owner, -, h⟩ | ⟨-, h⟩
    · rw [h]
      exact ⟨rfl, rfl⟩
    · rw [h]
      by_cases hd : d = c
      · subst hd
        simp
      · simp [hd]
    · rw [h]
      exact ⟨rfl, rfl⟩
  · rcases relay_cases hlogin with h | h | ⟨pid, remotePeer, -, -, h⟩
    · rw [h]
      exact ⟨rfl, rfl⟩
    · rw [h]
      exact ⟨rfl, rfl⟩
    · rw [h]
      exact ⟨rfl, rfl⟩

theorem live_processDialog {s : State} (hs : s.crashed = false) (c d : SockId) :
    (processDialog s c).live d = s.live d := by
  obtain ⟨ha, hc⟩ := socks_processDialog hs c d
  rw [State.live, ha, hc, State.live]

theorem socks_onClose (s : State) (c : SockId) : (onClose s c).socks = s.socks := by
  rcases onClose_cases s c with ⟨-, h⟩ | h | ⟨owner, -, -, ⟨ws, -, h⟩ | h⟩ <;> rw [h] <;> rfl

theorem peers_onClose (s : State) (c : SockId) : (onClose s c).peers = s.peers := by
  rcases onClose_cases s c with ⟨-, h⟩ | h | ⟨owner, -, -, ⟨ws, -, h⟩ | h⟩ <;> rw [h] <;> rfl

/-! ### Runs -/

/-- A call of a handler for a connection. -/
inductive Call where
  | accept (c : SockId) (remoteAddress : JsString) (remotePort : Nat)
  | dialog (c : SockId)
  | close (c : SockId)
deriving DecidableEq

/-- The calls of `processDialog` while the text `d` is handled, each with the state it starts in. -/
def dataCalls (c : SockId) : State → JsString → List (State × Call)
  | _, [] => []
  | s, ch :: d =>
    let s := s.setXmlWord c ((s.peers c).xmlWord ++ [ch])
    if ch = '>' then
      (s, .dialog c) ::
        if (processDialog s c).crashed then [] else dataCalls c ((processDialog s c).setXmlWord c []) d
    else dataCalls c s d

/-- The calls of the handlers in one event. -/
def eventCalls (s : State) : Event → List (State × Call)
  | .connection c a p => [(s, .accept c a p)]
  | .data c bytes =>
    dataCalls c (s.setPending c (Utf8.write (s.socks c).pending bytes).1) (Utf8.write (s.socks c).pending bytes).2
  | .close c => [(s.closeSock c, .close c)]

/-- The calls of the handlers in a run, in order. -/
def calls : State → List Event → List (State × Call)
  | _, [] => []
  | s, e :: es =>
    match step s e with
    | none => []
    | some s' => eventCalls s e ++ calls s' es

/-- What every step of the server keeps, when `past` are the calls made before and `all` is what is known
    about the calls of the whole run. -/
structure Kept (all : List (State × Call)) (P : List (State × Call) → State → Prop) : Prop where
  accept : ∀ past s c a p, P past s → s.crashed = false → (s.socks c).accepted = false →
    past ++ [(s, .accept c a p)] <+: all → P (past ++ [(s, .accept c a p)]) (onAccept s c a p)
  pending : ∀ past s c p, P past s → P past (s.setPending c p)
  xmlWord : ∀ past s c w, P past s → P past (s.setXmlWord c w)
  dialog : ∀ past s c, P past s → s.crashed = false → s.live c = true → past ++ [(s, .dialog c)] <+: all →
    P (past ++ [(s, .dialog c)]) (processDialog s c)
  close : ∀ past s c, P past s → s.crashed = false → s.live c = true → past ++ [(s.closeSock c, .close c)] <+: all →
    P (past ++ [(s.closeSock c, .close c)]) (onClose (s.closeSock c) c)

section Rule
variable {all : List (State × Call)} {P : List (State × Call) → State → Prop} (hP : Kept all P)
include hP

theorem Kept.data {past : List (State × Call)} {s : State} {c : SockId} (h : P past s) (hs : s.crashed = false)
    (hc : s.live c = true) (d : JsString) (hall : past ++ dataCalls c s d <+: all) :
    P (past ++ dataCalls c s d) (onData c s d) := by
  induction d generalizing past s with
  | nil => simpa [dataCalls, onData] using h
  | cons ch d ih =>
    have hword := hP.xmlWord past s c ((s.peers c).xmlWord ++ [ch]) h
    by_cases hch : ch = '>'
    · subst hch
      simp only [dataCalls, onData, if_true] at hall ⊢
      set s₁ := s.setXmlWord c ((s.peers c).xmlWord ++ ['>'])
      have hdialog : P (past ++ [(s₁, .dialog c)]) (processDialog s₁ c) :=
        hP.dialog past s₁ c hword hs hc (List.IsPrefix.trans (by simp) hall)
      by_cases hcrash : (processDialog s₁ c).crashed
      · simpa [hcrash] using hdialog
      · simp only [hcrash, Bool.false_eq_true, if_false] at hall ⊢
        rw [List.append_cons] at hall ⊢
        refine ih (hP.xmlWord _ _ c [] hdialog) (by simpa using hcrash) ?_ hall
        exact (live_processDialog (s := s₁) hs c c).trans hc
    · simp only [dataCalls, onData, hch, if_false] at hall ⊢
      exact ih hword hs hc hall

theorem Kept.event {past : List (State × Call)} {s s' : State} {e : Event} (h : P past s) (he : step s e = some s')
    (hall : past ++ eventCalls s e <+: all) : P (past ++ eventCalls s e) s' := by
  cases e with
  | connection c a p =>
    simp only [step, Option.ite_none_left_eq_some, not_or] at he
    obtain ⟨⟨hs, hc⟩, he⟩ := he
    obtain rfl := Option.some.inj he
    exact hP.accept past s c a p h (by simpa using hs) (by simpa using hc) hall
  | data c bytes =>
    simp only [step, Option.ite_none_left_eq_some, not_or, not_not] at he
    obtain ⟨⟨hs, hc⟩, he⟩ := he
    obtain rfl := Option.some.inj he
    exact hP.data (hP.pending past s c _ h) (by simpa using hs) (by simpa [State.live] using hc) _ hall
  | close c =>
    simp only [step, Option.ite_none_left_eq_some, not_or, not_not] at he
    obtain ⟨⟨hs, hc⟩, he⟩ := he
    obtain rfl := Option.some.inj he
    exact hP.close past s c h (by simpa using hs) hc hall

/-- What every step keeps holds after a run. -/
theorem Kept.run {past : List (State × Call)} {s t : State} {es : List Event} (h : P past s)
    (hrun : DialogServer.run s es = some t) (hall : past ++ calls s es <+: all) : P (past ++ calls s es) t := by
  induction es generalizing past s with
  | nil =>
    obtain rfl := Option.some.inj hrun
    simpa [calls] using h
  | cons e es ih =>
    obtain ⟨s', he, hrun⟩ := Option.bind_eq_some_iff.mp hrun
    simp only [calls, he] at hall ⊢
    rw [← List.append_assoc] at hall ⊢
    exact ih (hP.event h he ((List.prefix_append _ _).trans hall)) hrun hall

end Rule

theorem run_append {s : State} {es₁ es₂ : List Event} {t : State} (h : run s (es₁ ++ es₂) = some t) :
    ∃ s', run s es₁ = some s' ∧ run s' es₂ = some t := by
  induction es₁ generalizing s with
  | nil => exact ⟨s, rfl, h⟩
  | cons e es₁ ih =>
    obtain ⟨u, hu, h⟩ := Option.bind_eq_some_iff.mp h
    obtain ⟨s', h₁, h₂⟩ := ih h
    exact ⟨s', by rw [run, hu]; exact h₁, h₂⟩

theorem calls_append {s s' : State} {es₁ : List Event} (h : run s es₁ = some s') (es₂ : List Event) :
    calls s (es₁ ++ es₂) = calls s es₁ ++ calls s' es₂ := by
  induction es₁ generalizing s with
  | nil =>
    obtain rfl := Option.some.inj h
    rfl
  | cons e es₁ ih =>
    obtain ⟨u, hu, h⟩ := Option.bind_eq_some_iff.mp h
    simp [calls, hu, ih h]

/-- The state after a list of events that can all happen. -/
def after (es : List Event) : State := (run State.init es).getD State.init

theorem run_after (es : List Event) (h : (run State.init es).isSome) : run State.init es = some (after es) := by
  obtain ⟨s, hs⟩ := Option.isSome_iff_exists.mp h
  simp [after, hs]

/-- What every step keeps and holds at first holds after every run. -/
theorem run_rule {P : List (State × Call) → State → Prop} {es : List Event} {t : State}
    (hP : Kept (calls State.init es) P) (h : P [] State.init) (hrun : run State.init es = some t) :
    P (calls State.init es) t := by
  simpa using hP.run h hrun (by simp)

end ProbICE.DialogServer
