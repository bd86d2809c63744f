import Mathlib.Data.List.Induction
import ProbICE.Theorems.Handlers

/-! # What the clients know of each other

A client that is told `online:p` or `login:p` counts `p` as present, and one that is told `offline:p`
stops counting it. When every connection logs in once, under a name that is no property name of the
language, each registered client counts exactly the other registered names. Of two registered clients,
the one that came first was told `login` and the other one `online`. -/

namespace ProbICE.DialogServer

/-! ### Views -/

/-- The frames written to a connection, oldest first. -/
def framesTo (ws : List Write) (c : SockId) : List Frame := (ws.filter fun w => w.sock = c).map Write.frame

/-- What a client counts as present after one more frame: `none` if the frame adds a name that is
    present or removes one that is not. -/
def notice (view : List JsString) : Frame → Option (List JsString)
  | .online p | .login p => if p ∈ view then none else some (view ++ [p])
  | .offline p => if p ∈ view then some (view.filter (· ≠ p)) else none
  | .message _ _ => some view

/-- What a client counts as present after a list of frames. -/
def viewOf (fs : List Frame) : Option (List JsString) := fs.foldlM notice []

/-- The latest frame that adds the name. -/
def lastAdding (p : JsString) (fs : List Frame) : Option Frame :=
  (fs.filter fun f => f = .online p ∨ f = .login p).getLast?

@[simp] theorem framesTo_nil (c : SockId) : framesTo [] c = [] := rfl

@[simp] theorem framesTo_append (ws vs : List Write) (c : SockId) :
    framesTo (ws ++ vs) c = framesTo ws c ++ framesTo vs c := by
  simp [framesTo]

theorem framesTo_onlineWrites_self (s : State) (c : SockId) (owners : List SockId) :
    framesTo (onlineWrites s c owners) c = owners.map fun d => .online (s.peers d).pid.toText := by
  simp [framesTo, onlineWrites, List.filter_map, Function.comp_def]

theorem framesTo_onlineWrites_of_ne (s : State) {c d : SockId} (h : d ≠ c) (owners : List SockId) :
    framesTo (onlineWrites s c owners) d = [] := by
  simp [framesTo, onlineWrites, List.filter_map, Function.comp_def, Ne.symm h]

theorem framesTo_allWrites_of_mem (s : State) (cause : SockId) (frame : Frame) {owners : List SockId} {d : SockId}
    (hn : owners.Nodup) (h : d ∈ owners) : framesTo (allWrites s cause frame owners) d = [frame] := by
  have hfilter : owners.filter (fun e => decide (e = d)) = [d] := by
    simpa [List.count_eq_one_of_mem hn h] using List.filter_eq (l := owners) d
  simp [framesTo, allWrites, List.filter_map, Function.comp_def, hfilter]

theorem framesTo_allWrites_of_not_mem (s : State) (cause : SockId) (frame : Frame) {owners : List SockId} {d : SockId}
    (h : d ∉ owners) : framesTo (allWrites s cause frame owners) d = [] := by
  simp only [framesTo, allWrites, List.filter_map, List.map_map, List.map_eq_nil_iff, List.filter_eq_nil_iff,
    Function.comp_apply, decide_eq_true_eq]
  rintro e he rfl
  exact h he

theorem viewOf_append {fs : List Frame} {v : List JsString} (h : viewOf fs = some v) (f : Frame) :
    viewOf (fs ++ [f]) = notice v f := by
  have hfold : fs.foldlM notice [] = some v := h
  simp [viewOf, List.foldlM_append, hfold]

/-- A list of distinct names that are online. -/
theorem viewOf_online {ps : List JsString} (h : ps.Nodup) : viewOf (ps.map .online) = some ps := by
  induction ps using List.reverseRecOn with
  | nil => rfl
  | append_singleton ps p ih =>
    rw [List.nodup_append] at h
    have hp : p ∉ ps := fun hmem => h.2.2 p hmem p (by simp) rfl
    rw [List.map_append, List.map_singleton, viewOf_append (ih h.1)]
    simp [notice, hp]

theorem lastAdding_append_of_ne {p : JsString} {f : Frame} (hf : f ≠ .online p ∧ f ≠ .login p) (fs : List Frame) :
    lastAdding p (fs ++ [f]) = lastAdding p fs := by
  simp [lastAdding, hf]

theorem lastAdding_append_login (p : JsString) (fs : List Frame) :
    lastAdding p (fs ++ [.login p]) = some (.login p) := by
  simp [lastAdding]

theorem lastAdding_online {p : JsString} {ps : List JsString} (h : p ∈ ps) :
    lastAdding p (ps.map .online) = some (.online p) := by
  have hall : ∀ f ∈ (ps.map Frame.online).filter (fun f => decide (f = .online p ∨ f = .login p)), f = .online p := by
    intro f hf
    obtain ⟨hf, hp⟩ := List.mem_filter.mp hf
    obtain ⟨q, -, rfl⟩ := List.mem_map.mp hf
    simpa using hp
  have hne : (ps.map Frame.online).filter (fun f => decide (f = .online p ∨ f = .login p)) ≠ [] := by
    refine List.ne_nil_of_mem (a := .online p) (List.mem_filter.mpr ⟨List.mem_map_of_mem h, by simp⟩)
  rw [lastAdding, List.getLast?_eq_some_getLast hne, hall _ (List.getLast_mem hne)]

/-! ### Who is registered -/

/-- The connection whose login frame a call handles. -/
def loginOf : State × Call → Option SockId
  | (s, .dialog c) => if s.sentLogin c then some c else none
  | _ => none

/-- The `sid` that a call gives to a connection. -/
def sidOf : State × Call → Option JsString
  | (_, .accept _ a p) => some (a ++ Nat.toDigits 10 p)
  | _ => none

/-- A login asks for a name that objects do not have by themselves. -/
def NameAllowed : State × Call → Prop
  | (s, .dialog c) => s.sentLogin c → (JsValue.word (s.words c) 1).toText ∉ builtinNames
  | _ => True

instance : DecidablePred NameAllowed
  | (s, .dialog c) => inferInstanceAs (Decidable (s.sentLogin c → (JsValue.word (s.words c) 1).toText ∉ builtinNames))
  | (_, .accept _ _ _) | (_, .close _) => inferInstanceAs (Decidable True)

/-- A run in which each connection logs in at most once, under an allowed name, and no two connections
    have the same `sid`. -/
structure Orderly (all : List (State × Call)) : Prop where
  logins : (all.filterMap loginOf).Nodup
  names : ∀ k ∈ all, NameAllowed k
  sids : (all.filterMap sidOf).Nodup

/-- The registry after orderly calls. -/
structure Members (past : List (State × Call)) (s : State) : Prop where
  alive : s.crashed = false
  plain : s.peerObjects.Plain
  fresh : ∀ c, (s.socks c).accepted = false → (s.peers c).pid = .null
  login : ∀ c, (s.peers c).pid ≠ .null → c ∈ past.filterMap loginOf
  sid : ∀ c, (s.socks c).accepted = true → (s.peers c).sid ∈ past.filterMap sidOf
  sid_inj : ∀ c d, (s.socks c).accepted = true → (s.socks d).accepted = true → (s.peers c).sid = (s.peers d).sid → c = d
  name : ∀ k c, s.peerObjects.find k = some c → (s.peers c).pid.toText = k
  named : ∀ k c, s.peerObjects.find k = some c → (s.peers c).pid ≠ .null
  accepted : ∀ k c, s.peerObjects.find k = some c → (s.socks c).accepted = true

/-- What the registered clients have been told. -/
structure Views (s : State) : Prop where
  unknown : ∀ c, (s.peers c).pid = .null → framesTo s.written c = []
  view : ∀ k c, s.peerObjects.find k = some c →
    ∃ v, viewOf (framesTo s.written c) = some v ∧ ∀ p, p ∈ v ↔ (s.peerObjects.find p).isSome ∧ p ≠ k
  order : s.peerObjects.own.Pairwise fun e f =>
    lastAdding f.1 (framesTo s.written e.2) = some (.login f.1) ∧
      lastAdding e.1 (framesTo s.written f.2) = some (.online e.1)

theorem Members.init : Members [] State.init := by
  constructor <;> try intro c
  all_goals simp [State.init, PeerObjects.empty, PeerObjects.find]
  constructor <;> rfl

theorem Views.init : Views State.init := by
  constructor
  · intro c _
    rfl
  · intro k c h
    simp [State.init, PeerObjects.empty, PeerObjects.find] at h
  · exact List.Pairwise.nil

theorem mem_owners {o : PeerObjects} {d : SockId} : d ∈ o.ownInOrder.map Prod.snd ↔ ∃ k, o.find k = some d := by
  rw [(o.ownInOrder_perm.map Prod.snd).mem_iff]
  simp [PeerObjects.find_eq_some_iff]

section Step
variable {past : List (State × Call)} {s : State} (h : Members past s)
include h

/-- A connection that has not logged in is not registered. -/
theorem Members.find_ne {c : SockId} (hc : (s.peers c).pid = .null) (k : JsString) : s.peerObjects.find k ≠ some c :=
  fun hk => h.named k c hk hc

theorem Members.owners_nodup : (s.peerObjects.ownInOrder.map Prod.snd).Nodup := by
  have hown : (s.peerObjects.own.map Prod.snd).Nodup := by
    refine List.Nodup.map_on ?_ (List.Nodup.of_map _ s.peerObjects.keys_nodup)
    rintro ⟨j, c⟩ hj ⟨k, d⟩ hk (rfl : c = d)
    have hj := h.name j c (PeerObjects.find_eq_some_iff.mpr hj)
    have hk := h.name k c (PeerObjects.find_eq_some_iff.mpr hk)
    rw [← hj, ← hk]
  exact ((s.peerObjects.ownInOrder_perm.map Prod.snd).nodup_iff).mpr hown

theorem Members.onAccept {c : SockId} (hc : (s.socks c).accepted = false) {a : JsString} {p : Nat}
    (hsid : a ++ Nat.toDigits 10 p ∉ past.filterMap sidOf) :
    Members (past ++ [(s, .accept c a p)]) (onAccept s c a p) := by
  have hne : ∀ d, (s.socks d).accepted = true → d ≠ c := by
    rintro d hd rfl
    simp [hc] at hd
  constructor
  · exact h.alive
  · exact h.plain
  · intro d hd
    by_cases hdc : d = c
    · simp [hdc, DialogServer.onAccept]
    · simpa [DialogServer.onAccept, hdc] using h.fresh d (by simpa [DialogServer.onAccept, hdc] using hd)
  · intro d hd
    by_cases hdc : d = c
    · simp [hdc, DialogServer.onAccept] at hd
    · simpa [loginOf] using h.login d (by simpa [DialogServer.onAccept, hdc] using hd)
  · intro d hd
    by_cases hdc : d = c
    · simp [hdc, DialogServer.onAccept, sidOf]
    · have := h.sid d (by simpa [DialogServer.onAccept, hdc] using hd)
      simp only [List.filterMap_append, List.mem_append]
      exact .inl (by simpa [DialogServer.onAccept, hdc] using this)
  · intro d e hd he heq
    by_cases hdc : d = c <;> by_cases hec : e = c
    · rw [hdc, hec]
    · have := h.sid e (by simpa [DialogServer.onAccept, hec] using he)
      simp only [DialogServer.onAccept, State.setPeer_peers, hdc, Function.update_self, State.setSock_peers,
        Function.update_of_ne hec] at heq
      exact absurd (heq ▸ this) hsid
    · have := h.sid d (by simpa [DialogServer.onAccept, hdc] using hd)
      simp only [DialogServer.onAccept, State.setPeer_peers, hec, Function.update_self, State.setSock_peers,
        Function.update_of_ne hdc] at heq
      exact absurd (heq ▸ this) hsid
    · exact h.sid_inj d e (by simpa [DialogServer.onAccept, hdc] using hd)
        (by simpa [DialogServer.onAccept, hec] using he) (by simpa [DialogServer.onAccept, hdc, hec] using heq)
  · intro k d hd
    simpa [DialogServer.onAccept, hne d (h.accepted k d hd)] using h.name k d hd
  · intro k d hd
    simpa [DialogServer.onAccept, hne d (h.accepted k d hd)] using h.named k d hd
  · intro k d hd
    simpa [DialogServer.onAccept, hne d (h.accepted k d hd)] using h.accepted k d hd

/-- A step that changes nothing of what `Members` reads, except that names may go. -/
theorem Members.mono (s' : State) (ks : List (State × Call)) (halive : s'.crashed = false)
    (hplain : s'.peerObjects.Plain)
    (hfind : ∀ k c, s'.peerObjects.find k = some c → s.peerObjects.find k = some c)
    (haccepted : ∀ c, (s'.socks c).accepted = (s.socks c).accepted)
    (hpeers : ∀ c, (s'.peers c).pid = (s.peers c).pid ∧ (s'.peers c).sid = (s.peers c).sid) :
    Members (past ++ ks) s' where
  alive := halive
  plain := hplain
  fresh c hc := by
    rw [(hpeers c).1]
    exact h.fresh c (haccepted c ▸ hc)
  login c hc := by
    rw [(hpeers c).1] at hc
    rw [List.filterMap_append]
    exact List.mem_append_left _ (h.login c hc)
  sid c hc := by
    rw [(hpeers c).2, List.filterMap_append]
    exact List.mem_append_left _ (h.sid c (haccepted c ▸ hc))
  sid_inj c d hc hd heq := by
    rw [(hpeers c).2, (hpeers d).2] at heq
    exact h.sid_inj c d (haccepted c ▸ hc) (haccepted d ▸ hd) heq
  name k c hk := by
    rw [(hpeers c).1]
    exact h.name k c (hfind k c hk)
  named k c hk := by
    rw [(hpeers c).1]
    exact h.named k c (hfind k c hk)
  accepted k c hk := by
    rw [haccepted c]
    exact h.accepted k c (hfind k c hk)

/-- The login frame of a connection sets its `pid` for the first time. -/
theorem Members.setPid {c : SockId} (hc : (s.peers c).pid = .null) (haccepted : (s.socks c).accepted = true)
    (v : JsValue) (hlogin : s.sentLogin c) : Members (past ++ [(s, .dialog c)]) (s.setPid c v) := by
  have hne : ∀ k d, s.peerObjects.find k = some d → d ≠ c := by
    rintro k d hd rfl
    exact h.find_ne hc k hd
  have hpid : ∀ d, d ≠ c → ((s.setPid c v).peers d).pid = (s.peers d).pid := fun d hd => by simp [hd]
  have hsid : ∀ d, ((s.setPid c v).peers d).sid = (s.peers d).sid := by
    intro d
    by_cases hd : d = c
    · simp [hd]
    · simp [hd]
  constructor
  · exact h.alive
  · exact h.plain
  · intro d hd
    have hdc : d ≠ c := by
      rintro rfl
      simp [haccepted] at hd
    rw [hpid d hdc]
    exact h.fresh d hd
  · intro d hd
    rw [List.filterMap_append, List.mem_append]
    by_cases hdc : d = c
    · exact .inr (by simp [loginOf, hlogin, hdc])
    · exact .inl (h.login d (hpid d hdc ▸ hd))
  · intro d hd
    rw [hsid, List.filterMap_append]
    exact List.mem_append_left _ (h.sid d hd)
  · intro d e hd he heq
    rw [hsid, hsid] at heq
    exact h.sid_inj d e hd he heq
  · intro k d hd
    rw [hpid d (hne k d hd)]
    exact h.name k d hd
  · intro k d hd
    rw [hpid d (hne k d hd)]
    exact h.named k d hd
  · exact h.accepted

end Step

section Admit
variable {past : List (State × Call)} {s : State}

/-- The registry after a login that is admitted: `c` has a free and allowed name. -/
theorem Members.enlisted {c : SockId} (h : Members past s) (hnew : ∀ k, s.peerObjects.find k ≠ some c)
    (hpid : (s.peers c).pid ≠ .null) (haccepted : (s.socks c).accepted = true)
    (hfree : s.peerObjects.find (s.peers c).pid.toText = none) (hname : (s.peers c).pid.toText ∉ builtinNames) :
    Members past (enlisted s c) := by
  have hproto : (s.peers c).pid.toText ≠ protoName := by
    intro heq
    exact hname (by simp [heq, builtinNames])
  have hfind : ∀ k d, (DialogServer.enlisted s c).peerObjects.find k = some d →
      s.peerObjects.find k = some d ∨ k = (s.peers c).pid.toText ∧ d = c := by
    intro k d hd
    rw [PeerObjects.find_eq_some_iff] at hd
    simpa [DialogServer.enlisted, PeerObjects.own_assign hproto hfree, PeerObjects.find_eq_some_iff] using hd
  constructor
  · exact h.alive
  · exact h.plain.assign hname hfree c
  · exact h.fresh
  · exact h.login
  · exact h.sid
  · exact h.sid_inj
  · intro k d hd
    rcases hfind k d hd with hd | ⟨rfl, rfl⟩
    · exact h.name k d hd
    · rfl
  · intro k d hd
    rcases hfind k d hd with hd | ⟨rfl, rfl⟩
    · exact h.named k d hd
    · exact hpid
  · intro k d hd
    rcases hfind k d hd with hd | ⟨rfl, rfl⟩
    · exact h.accepted k d hd
    · exact haccepted

/-- The frames that a login adds: the online list for `c`, and one notice for every peer. -/
theorem framesTo_enlistWrites_self (h : Members past s) {c : SockId} (hnew : ∀ k, s.peerObjects.find k ≠ some c) :
    framesTo (enlistWrites s c (s.peerObjects.ownInOrder.map Prod.snd)) c =
      (s.peerObjects.ownInOrder.map Prod.fst).map .online := by
  have hc : c ∉ s.peerObjects.ownInOrder.map Prod.snd := fun hmem => (mem_owners.mp hmem).elim hnew
  rw [enlistWrites, framesTo_append, framesTo_onlineWrites_self, framesTo_allWrites_of_not_mem _ _ _ hc,
    List.append_nil, List.map_map, List.map_map]
  refine List.map_congr_left fun e he => ?_
  have hfind := PeerObjects.find_eq_some_iff.mpr (s.peerObjects.ownInOrder_perm.subset he)
  simp [h.name e.1 e.2 hfind]

theorem framesTo_enlistWrites_of_ne {c d : SockId} (hd : d ≠ c) (owners : List SockId) :
    framesTo (enlistWrites s c owners) d = framesTo (allWrites s c (.login (s.peers c).pid.toText) owners) d := by
  rw [enlistWrites, framesTo_append, framesTo_onlineWrites_of_ne s hd, List.nil_append]

theorem Views.enlisted {c : SockId} (hv : Views s) (h : Members past s)
    (hnew : ∀ k, s.peerObjects.find k ≠ some c) (hpid : (s.peers c).pid ≠ .null)
    (hnone : framesTo s.written c = []) (hfree : s.peerObjects.find (s.peers c).pid.toText = none)
    (hname : (s.peers c).pid.toText ∉ builtinNames) : Views (enlisted s c) := by
  have hproto : (s.peers c).pid.toText ≠ protoName := by
    intro heq
    exact hname (by simp [heq, builtinNames])
  set k := (s.peers c).pid.toText with hk
  set owners := s.peerObjects.ownInOrder.map Prod.snd with howners
  have hown : (DialogServer.enlisted s c).peerObjects.own = s.peerObjects.own ++ [(k, c)] :=
    PeerObjects.own_assign hproto hfree c
  have hwritten : (DialogServer.enlisted s c).written = s.written ++ enlistWrites s c owners := rfl
  have hfind : ∀ j d, (DialogServer.enlisted s c).peerObjects.find j = some d ↔
      s.peerObjects.find j = some d ∨ j = k ∧ d = c := by
    intro j d
    simp [PeerObjects.find_eq_some_iff, hown]
  have hisSome : ∀ j, ((DialogServer.enlisted s c).peerObjects.find j).isSome ↔
      (s.peerObjects.find j).isSome ∨ j = k := by
    intro j
    simp only [Option.isSome_iff_exists, hfind]
    constructor
    · rintro ⟨d, hd | ⟨hj, -⟩⟩
      · exact .inl ⟨d, hd⟩
      · exact .inr hj
    · rintro (⟨d, hd⟩ | hj)
      · exact ⟨d, .inl hd⟩
      · exact ⟨c, .inr ⟨hj, rfl⟩⟩
  -- the frames of `c`, of the peers, and of the others
  have hself : framesTo (DialogServer.enlisted s c).written c = (s.peerObjects.ownInOrder.map Prod.fst).map .online := by
    rw [hwritten, framesTo_append, hnone, framesTo_enlistWrites_self h hnew, List.nil_append]
  have hpeer : ∀ j d, s.peerObjects.find j = some d →
      framesTo (DialogServer.enlisted s c).written d = framesTo s.written d ++ [.login k] := by
    intro j d hd
    have hne : d ≠ c := fun e => hnew j (e ▸ hd)
    rw [hwritten, framesTo_append, framesTo_enlistWrites_of_ne hne,
      framesTo_allWrites_of_mem _ _ _ h.owners_nodup (mem_owners.mpr ⟨j, hd⟩)]
  have hkeys : ∀ p, p ∈ s.peerObjects.ownInOrder.map Prod.fst ↔ (s.peerObjects.find p).isSome := by
    intro p
    rw [(s.peerObjects.ownInOrder_perm.map Prod.fst).mem_iff, Option.isSome_iff_exists]
    simp [PeerObjects.find_eq_some_iff]
  constructor
  · intro d hd
    have hdc : d ≠ c := by
      rintro rfl
      exact hpid hd
    have hnot : d ∉ owners := fun hmem => (mem_owners.mp hmem).elim (h.find_ne hd)
    rw [hwritten, framesTo_append, framesTo_enlistWrites_of_ne hdc, framesTo_allWrites_of_not_mem _ _ _ hnot,
      List.append_nil]
    exact hv.unknown d hd
  · intro j d hd
    rcases (hfind j d).mp hd with hd | ⟨rfl, rfl⟩
    · obtain ⟨v, hview, hmem⟩ := hv.view j d hd
      have hkv : k ∉ v := fun hkv => by simpa [hfree] using ((hmem k).mp hkv).1
      have hkj : k ≠ j := by
        rintro rfl
        simp [hfree] at hd
      refine ⟨v ++ [k], ?_, fun p => ?_⟩
      · rw [hpeer j d hd, viewOf_append hview]
        simp [notice, hkv]
      · rw [List.mem_append, hmem, hisSome, List.mem_singleton]
        by_cases hp : p = k
        · simp [hp, hkj]
        · simp [hp]
    · refine ⟨s.peerObjects.ownInOrder.map Prod.fst, ?_, fun p => ?_⟩
      · rw [hself]
        exact viewOf_online (((s.peerObjects.ownInOrder_perm.map Prod.fst).nodup_iff).mpr s.peerObjects.keys_nodup)
      · rw [hkeys, hisSome]
        by_cases hp : p = k
        · simp [hp, hfree]
        · simp [hp]
  · rw [hown, List.pairwise_append]
    refine ⟨hv.order.imp_of_mem ?_, List.pairwise_singleton _ _, ?_⟩
    · rintro e f he hf ⟨hlogin, honline⟩
      have he := PeerObjects.find_eq_some_iff.mpr he
      have hf := PeerObjects.find_eq_some_iff.mpr hf
      have hek : k ≠ e.1 := fun heq => by simp [← heq, hfree] at he
      have hfk : k ≠ f.1 := fun heq => by simp [← heq, hfree] at hf
      rw [hpeer _ _ he, hpeer _ _ hf, lastAdding_append_of_ne (by simp [hfk]), lastAdding_append_of_ne (by simp [hek])]
      exact ⟨hlogin, honline⟩
    · intro e he f hf
      obtain rfl := List.mem_singleton.mp hf
      have he := PeerObjects.find_eq_some_iff.mpr he
      rw [hpeer _ _ he, hself]
      exact ⟨lastAdding_append_login _ _, lastAdding_online ((hkeys _).mpr (by simp [he]))⟩

end Admit

section Other
variable {past : List (State × Call)} {s : State}

/-- A step that writes nothing and leaves the registry. -/
theorem Views.congr (hv : Views s) {s' : State} (hwritten : s'.written = s.written)
    (hregistry : s'.peerObjects = s.peerObjects) (hpid : ∀ c, (s'.peers c).pid = .null → (s.peers c).pid = .null) :
    Views s' where
  unknown c hc := by
    rw [hwritten]
    exact hv.unknown c (hpid c hc)
  view := by
    rw [hwritten, hregistry]
    exact hv.view
  order := by
    rw [hwritten, hregistry]
    exact hv.order

/-- A relayed message changes no view. -/
theorem Views.message (hv : Views s) (h : Members past s) {cause d : SockId} {k : JsString}
    (hd : s.peerObjects.find k = some d) (pid : JsString) (words : List JsString) :
    Views (s.write cause d (.message pid words)) := by
  have hother : ∀ e, e ≠ d → framesTo (s.write cause d (.message pid words)).written e = framesTo s.written e := by
    intro e he
    simp [State.write, framesTo, Ne.symm he]
  have hself : framesTo (s.write cause d (.message pid words)).written d =
      framesTo s.written d ++ [.message pid words] := by
    simp [State.write, framesTo]
  have hlast : ∀ p e, lastAdding p (framesTo (s.write cause d (.message pid words)).written e) =
      lastAdding p (framesTo s.written e) := by
    intro p e
    by_cases he : e = d
    · rw [he, hself, lastAdding_append_of_ne (by simp)]
    · rw [hother e he]
  constructor
  · intro e he
    have hed : e ≠ d := by
      rintro rfl
      exact h.find_ne he k hd
    rw [hother e hed]
    exact hv.unknown e he
  · intro j e he
    obtain ⟨v, hview, hmem⟩ := hv.view j e he
    refine ⟨v, ?_, hmem⟩
    by_cases hed : e = d
    · subst hed
      rw [hself, viewOf_append hview]
      rfl
    · rwa [hother e hed]
  · refine hv.order.imp ?_
    intro e f hef
    rwa [hlast, hlast]

/-- When a registered connection closes, its name goes, and the others are told. -/
theorem Views.forget (hv : Views s) (h : Members past s) {c : SockId}
    (hc : s.peerObjects.find (s.peers c).pid.toText = some c) :
    Views ((s.forget c).log (allWrites (s.forget c) c (.offline (s.peers c).pid.toText)
      ((s.forget c).peerObjects.ownInOrder.map Prod.snd))) := by
  set k := (s.peers c).pid.toText with hk
  set s' := (s.forget c).log (allWrites (s.forget c) c (.offline k) ((s.forget c).peerObjects.ownInOrder.map Prod.snd))
    with hs'
  have hforget : Members (past ++ []) (s.forget c) :=
    h.mono (s.forget c) [] h.alive (h.plain.delete k)
      (fun j d hd => PeerObjects.find_eq_some_iff.mpr (PeerObjects.mem_own_delete.mp (PeerObjects.find_eq_some_iff.mp hd)).1)
      (fun _ => rfl) (fun _ => ⟨rfl, rfl⟩)
  have hfind : ∀ j d, s'.peerObjects.find j = some d ↔ s.peerObjects.find j = some d ∧ j ≠ k := by
    intro j d
    simp only [PeerObjects.find_eq_some_iff]
    exact PeerObjects.mem_own_delete
  have hisSome : ∀ j, (s'.peerObjects.find j).isSome ↔ (s.peerObjects.find j).isSome ∧ j ≠ k := by
    intro j
    simp only [Option.isSome_iff_exists, hfind]
    exact ⟨fun ⟨d, hd⟩ => ⟨⟨d, hd.1⟩, hd.2⟩, fun ⟨⟨d, hd⟩, hj⟩ => ⟨d, hd, hj⟩⟩
  have hpeer : ∀ j d, s'.peerObjects.find j = some d → framesTo s'.written d = framesTo s.written d ++ [.offline k] := by
    intro j d hd
    have hframes := framesTo_allWrites_of_mem (s.forget c) c (.offline k) hforget.owners_nodup (mem_owners.mpr ⟨j, hd⟩)
    rw [hs', State.log_written, framesTo_append, hframes]
    rfl
  constructor
  · intro d hd
    have hnot : d ∉ (s.forget c).peerObjects.ownInOrder.map Prod.snd :=
      fun hmem => (mem_owners.mp hmem).elim (hforget.find_ne hd)
    rw [hs', State.log_written, framesTo_append, framesTo_allWrites_of_not_mem _ _ _ hnot, List.append_nil]
    exact hv.unknown d hd
  · intro j d hd
    have hjk := (hfind j d).mp hd
    obtain ⟨v, hview, hmem⟩ := hv.view j d hjk.1
    have hkv : k ∈ v := (hmem k).mpr ⟨by simp [hc], Ne.symm hjk.2⟩
    refine ⟨v.filter (· ≠ k), ?_, fun p => ?_⟩
    · rw [hpeer j d hd, viewOf_append hview]
      simp [notice, hkv]
    · rw [List.mem_filter, hmem, hisSome, decide_eq_true_eq]
      tauto
  · have hown : s'.peerObjects.own = s.peerObjects.own.filter fun e => e.1 ≠ k := rfl
    rw [hown]
    refine (hv.order.filter _).imp_of_mem ?_
    intro e f he hf hef
    have hmem : ∀ e ∈ s.peerObjects.own.filter (fun e => decide (e.1 ≠ k)), s'.peerObjects.find e.1 = some e.2 :=
      fun e he => PeerObjects.find_eq_some_iff.mpr (hown ▸ he)
    rw [hpeer _ _ (hmem e he), hpeer _ _ (hmem f hf), lastAdding_append_of_ne (by simp),
      lastAdding_append_of_ne (by simp)]
    exact hef

end Other

/-! ### Runs -/

/-- What an orderly run keeps. -/
def Present (past : List (State × Call)) (s : State) : Prop := Members past s ∧ Views s

section Handler
variable {past all : List (State × Call)} {s : State} (hall : Orderly all)
include hall

/-- At its login frame a connection has no name yet. -/
theorem Orderly.pid_eq_null (h : Members past s) {c : SockId} (hpast : past ++ [(s, .dialog c)] <+: all)
    (hlogin : s.sentLogin c) : (s.peers c).pid = .null := by
  by_contra hne
  have hnodup := (hpast.sublist.filterMap loginOf).nodup hall.logins
  have hlast : [(s, Call.dialog c)].filterMap loginOf = [c] := by simp [loginOf, hlogin]
  rw [List.filterMap_append, hlast, List.nodup_append] at hnodup
  exact hnodup.2.2 c (h.login c hne) c (by simp) rfl

theorem Present.login (h : Present past s) {c : SockId} (hc : s.live c = true)
    (hpast : past ++ [(s, .dialog c)] <+: all) (hlogin : s.sentLogin c) :
    Present (past ++ [(s, .dialog c)]) (processDialog s c) := by
  obtain ⟨hm, hv⟩ := h
  simp only [State.live, Bool.and_eq_true] at hc
  rw [processDialog_login hlogin]
  set v := JsValue.word (s.words c) 1 with hv'
  have hnull := hall.pid_eq_null hm hpast hlogin
  have hname : v.toText ∉ builtinNames := hall.names (s, .dialog c) (hpast.subset (by simp)) hlogin
  have hvnull : v ≠ .null := by
    unfold JsValue.word at hv'
    split at hv' <;> simp [hv']
  have hset := hm.setPid hnull hc.1 v hlogin
  have hpid : ((s.setPid c v).peers c).pid = v := by simp
  have hpids : ∀ d, ((s.setPid c v).peers d).pid = .null → (s.peers d).pid = .null := by
    intro d hd
    by_cases hdc : d = c
    · subst hdc
      exact hnull
    · simpa [hdc] using hd
  have hvset : Views (s.setPid c v) := hv.congr rfl rfl hpids
  rcases hfind : s.peerObjects.find v.toText with _ | owner
  · rw [login_free hm.plain hm.alive hfind]
    have hnew : ∀ k, (s.setPid c v).peerObjects.find k ≠ some c := hm.find_ne hnull
    refine ⟨hset.enlisted hnew (by rwa [hpid]) hc.1 (by rwa [hpid]) (by rwa [hpid]), ?_⟩
    exact hvset.enlisted hset hnew (by rwa [hpid]) (hv.unknown c hnull) (by rwa [hpid]) (by rwa [hpid])
  · rw [login_taken hm.plain (by simp [hfind])]
    refine ⟨?_, hvset.congr rfl rfl fun _ hd => hd⟩
    have := hset.mono ((s.setPid c v).endSock c) [] hset.alive hset.plain (fun _ _ hd => hd) ?_
      fun _ => ⟨rfl, rfl⟩
    · simpa using this
    · intro d
      by_cases hdc : d = c <;> simp [hdc]

theorem Present.dialog (h : Present past s) {c : SockId} (hc : s.live c = true)
    (hpast : past ++ [(s, .dialog c)] <+: all) : Present (past ++ [(s, .dialog c)]) (processDialog s c) := by
  by_cases hlogin : s.sentLogin c
  · exact h.login hall hc hpast hlogin
  · obtain ⟨hm, hv⟩ := h
    have hsame : Members (past ++ [(s, .dialog c)]) s :=
      hm.mono _ _ hm.alive hm.plain (fun _ _ hd => hd) (fun _ => rfl) fun _ => ⟨rfl, rfl⟩
    rcases processDialog_cases hlogin with he | he
    · rw [he]
      exact ⟨hsame, hv⟩
    · rw [he]
      rcases send_plain hm.plain c (s.words c) with he | ⟨pid, remotePeer, -, hfind, he⟩
      · rw [he]
        exact ⟨hsame, hv⟩
      · rw [he]
        refine ⟨?_, hv.message hm hfind _ _⟩
        exact hm.mono _ _ hm.alive hm.plain (fun _ _ hd => hd) (fun _ => rfl) fun _ => ⟨rfl, rfl⟩

omit hall in
theorem Present.close (h : Present past s) {c : SockId} (hc : s.live c = true) (k : State × Call) :
    Present (past ++ [k]) (onClose (s.closeSock c) c) := by
  obtain ⟨hm, hv⟩ := h
  simp only [State.live, Bool.and_eq_true] at hc
  have haccepted : ∀ d, ((s.closeSock c).socks d).accepted = (s.socks d).accepted := by
    intro d
    by_cases hdc : d = c <;> simp [hdc]
  have hclose : Members (past ++ [k]) (s.closeSock c) :=
    hm.mono _ _ hm.alive hm.plain (fun _ _ hd => hd) haccepted fun _ => ⟨rfl, rfl⟩
  have hvclose : Views (s.closeSock c) := hv.congr rfl rfl fun _ hd => hd
  rcases hfind : (s.closeSock c).peerObjects.find ((s.closeSock c).peers c).pid.toText with _ | owner
  · rw [onClose_free hclose.plain hfind]
    exact ⟨hclose, hvclose⟩
  · by_cases hsid : ((s.closeSock c).peers c).sid = ((s.closeSock c).peers owner).sid
    · -- connections with different `sid`s are different, so the owner is `c` itself
      have howner : c = owner := hclose.sid_inj c owner ((haccepted c).trans hc.1) (hclose.accepted _ _ hfind) hsid
      rw [← howner] at hfind
      rw [onClose_same hclose.plain hfind rfl]
      refine ⟨?_, hvclose.forget hclose hfind⟩
      exact hm.mono _ _ hm.alive (hm.plain.delete _)
        (fun j d hd => PeerObjects.find_eq_some_iff.mpr (PeerObjects.mem_own_delete.mp (PeerObjects.find_eq_some_iff.mp hd)).1)
        haccepted fun _ => ⟨rfl, rfl⟩
    · rw [onClose_other hclose.plain hfind hsid]
      exact ⟨hclose, hvclose⟩

theorem kept_present : Kept all Present where
  accept past s c a p h _ hc hpast := by
    refine ⟨h.1.onAccept hc ?_, h.2.congr rfl rfl fun d hd => ?_⟩
    · have hnodup := (hpast.sublist.filterMap sidOf).nodup hall.sids
      rw [List.filterMap_append, List.nodup_append] at hnodup
      intro hmem
      exact hnodup.2.2 _ hmem _ (by simp [sidOf]) rfl
    · by_cases hdc : d = c
      · exact h.1.fresh d (hdc ▸ hc)
      · simpa [onAccept, hdc] using hd
  pending past s c p h := by
    refine ⟨?_, h.2.congr rfl rfl fun _ hd => hd⟩
    have := h.1.mono (s.setPending c p) [] h.1.alive h.1.plain (fun _ _ hd => hd) ?_ fun _ => ⟨rfl, rfl⟩
    · simpa using this
    · intro d
      by_cases hdc : d = c <;> simp [hdc]
  xmlWord past s c w h := by
    have hpeer : ∀ d, ((s.setXmlWord c w).peers d).pid = (s.peers d).pid ∧
        ((s.setXmlWord c w).peers d).sid = (s.peers d).sid := by
      intro d
      by_cases hdc : d = c <;> simp [hdc]
    refine ⟨?_, h.2.congr rfl rfl fun d hd => (hpeer d).1 ▸ hd⟩
    have := h.1.mono (s.setXmlWord c w) [] h.1.alive h.1.plain (fun _ _ hd => hd) (fun _ => rfl) hpeer
    simpa using this
  dialog _ _ _ h _ hc hpast := h.dialog hall hc hpast
  close _ _ _ h _ hc _ := h.close hc _

end Handler

/-- Presence views are exact. After an orderly run each registered client `c` with name `k` counts the
    other registered names and no others, and has never been told to add a name twice or to remove one
    that was not there. Of two registered clients, the earlier one was last told `login` of the other,
    and the later one `online`. -/
theorem presence_exact {es : List Event} {t : State} (hrun : run State.init es = some t)
    (hall : Orderly (calls State.init es)) :
    (∀ k c, t.peerObjects.find k = some c →
      ∃ v, viewOf (framesTo t.written c) = some v ∧ ∀ p, p ∈ v ↔ (t.peerObjects.find p).isSome ∧ p ≠ k) ∧
    t.peerObjects.own.Pairwise fun e f =>
      lastAdding f.1 (framesTo t.written e.2) = some (.login f.1) ∧
        lastAdding e.1 (framesTo t.written f.2) = some (.online e.1) := by
  have h := run_rule (P := Present) (kept_present hall) ⟨Members.init, Views.init⟩ hrun
  exact ⟨h.2.view, h.2.order⟩

/-- Three clients, of which the second one leaves and the third one comes as `b` again. -/
def comeAndGo : List Event :=
  [.connection 1 "10.0.0.1".toList 4001, .connection 2 "10.0.0.2".toList 4002, .connection 3 "10.0.0.3".toList 4003,
    .data 2 (cstr "<login:b>"), .data 1 (cstr "<login:a>"), .close 2, .data 3 (cstr "<login:b>")]

theorem presence_exact_comeAndGo :
    run State.init comeAndGo = some (after comeAndGo) ∧
      (∃ v, viewOf (framesTo (after comeAndGo).written 1) = some v ∧
        ∀ p, p ∈ v ↔ ((after comeAndGo).peerObjects.find p).isSome ∧ p ≠ "a".toList) := by
  have hrun := run_after comeAndGo (by decide)
  exact ⟨hrun, (presence_exact hrun ⟨by decide, by decide, by decide⟩).1 _ 1 (by decide)⟩

end ProbICE.DialogServer
