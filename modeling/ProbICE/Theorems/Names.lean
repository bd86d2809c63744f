import Mathlib.Logic.Function.Basic
import ProbICE.Lib.Journal
import ProbICE.Theorems.Registry

/-! # Names that the server survives

`peerObjects` works as a finite map from names to connections until somebody asks for one of two names. An entry
called `hasOwnProperty` hides the method that every handler looks names up with, and `__proto__` is no entry at all
but the prototype of the object. -/

namespace ProbICE.DialogServer

/-- `peerObjects` works as a map. A lookup tells whether the name is registered, and a loop meets each registered
    peer, and nothing else, once. -/
structure PeerObjects.IsMap (o : PeerObjects) : Prop where
  lookup : ∀ k, o.hasOwnProperty k = some (o.find k).isSome
  loop : ∀ peers, ∃ es : List (JsString × SockId), es.Perm o.own ∧ o.forIn peers = es.map fun e => .peer e.2

theorem PeerObjects.Plain.isMap {o : PeerObjects} (h : o.Plain) : o.IsMap where
  lookup := h.hasOwnProperty
  loop peers := ⟨o.ownInOrder, o.ownInOrder_perm, by rw [h.forIn, List.map_map]; rfl⟩

/-- Who is registered under which name after a call, if `peerObjects` were a map. -/
def registeredAfter (s : State) : Call → JsString → Option SockId
  | .accept _ _ _ => s.peerObjects.find
  | .dialog c =>
    if s.sentLogin c ∧ s.peerObjects.find (s.sentName c).toText = none then
      Function.update s.peerObjects.find (s.sentName c).toText (some c)
    else s.peerObjects.find
  | .close c =>
    if (s.peerObjects.find (s.peers c).pid.toText).any fun owner => (s.peers c).sid = (s.peers owner).sid then
      Function.update s.peerObjects.find (s.peers c).pid.toText none
    else s.peerObjects.find

/-- The state after a call. -/
def resultOf : State × Call → State
  | (s, .accept c a p) => onAccept s c a p
  | (s, .dialog c) => processDialog s c
  | (s, .close c) => onClose s c

/-- The handler has come back without an exception, and `peerObjects` has worked as a map and still does. -/
structure ServedAsMap (x : State × Call) : Prop where
  alive : (resultOf x).crashed = false
  isMap : (resultOf x).peerObjects.IsMap
  find : (resultOf x).peerObjects.find = registeredAfter x.1 x.2

/-- A login asks neither for the name of the lookup method nor for the name of the prototype. -/
def NameSafe : State × Call → Prop
  | (s, .dialog c) =>
    s.sentLogin c → (s.sentName c).toText ≠ hasOwnPropertyName ∧ (s.sentName c).toText ≠ protoName
  | _ => True

instance : DecidablePred NameSafe
  | (s, .dialog c) => inferInstanceAs (Decidable
      (s.sentLogin c → (s.sentName c).toText ≠ hasOwnPropertyName ∧ (s.sentName c).toText ≠ protoName))
  | (_, .accept _ _ _) | (_, .close _) => inferInstanceAs (Decidable True)

/-! ### One call -/

theorem find_assign_eq {o : PeerObjects} {k : JsString} (hk : k ≠ protoName) (h : o.find k = none) (c : SockId) :
    (o.assign k c).find = Function.update o.find k (some c) := by
  funext j
  refine Option.ext fun d => ?_
  rw [find_assign hk h]
  by_cases hj : j = k
  · subst hj
    simp [h, eq_comm]
  · simp [hj]

theorem find_delete_eq (o : PeerObjects) (k : JsString) : (o.delete k).find = Function.update o.find k none := by
  funext j
  refine Option.ext fun d => ?_
  rw [PeerObjects.find_eq_some_iff, PeerObjects.mem_own_delete, ← PeerObjects.find_eq_some_iff]
  by_cases hj : j = k
  · simp [hj]
  · simp [hj]

section call
variable {s : State} (hplain : s.peerObjects.Plain) (hs : s.crashed = false)
include hplain hs

theorem served_login {c : SockId} (hlogin : s.sentLogin c)
    (hname : (s.sentName c).toText ≠ hasOwnPropertyName ∧ (s.sentName c).toText ≠ protoName) :
    (processDialog s c).crashed = false ∧ (processDialog s c).peerObjects.Plain ∧
      (processDialog s c).peerObjects.find = registeredAfter s (.dialog c) := by
  rw [processDialog_login hlogin]
  rcases hfind : s.peerObjects.find (s.sentName c).toText with _ | owner
  · have hassign : (enlisted (s.setPid c (s.sentName c)) c).peerObjects = s.peerObjects.assign (s.sentName c).toText c := by
      simp [enlisted]
    have hfree : login s c (s.sentName c) = enlisted (s.setPid c (s.sentName c)) c := login_free hplain hs hfind
    rw [show JsValue.word (s.words c) 1 = s.sentName c from rfl, hfree, hassign]
    refine ⟨hs, hplain.assign_of_ne hname.2 hname.1 hfind c, ?_⟩
    rw [find_assign_eq hname.2 hfind, registeredAfter, if_pos ⟨hlogin, hfind⟩]
  · have htaken : login s c (s.sentName c) = (s.setPid c (s.sentName c)).endSock c :=
      login_taken hplain (by rw [hfind]; rfl)
    rw [show JsValue.word (s.words c) 1 = s.sentName c from rfl, htaken]
    refine ⟨hs, hplain, ?_⟩
    rw [registeredAfter, if_neg (by simp [hfind])]
    rfl

theorem served_other {c : SockId} (hlogin : ¬ s.sentLogin c) :
    (processDialog s c).crashed = false ∧ (processDialog s c).peerObjects = s.peerObjects := by
  rcases processDialog_cases hlogin with h | h
  · rw [h]
    exact ⟨hs, rfl⟩
  · rw [h]
    rcases send_plain hplain c (s.words c) with h | ⟨pid, remotePeer, -, -, h⟩
    · rw [h]
      exact ⟨hs, rfl⟩
    · rw [h]
      exact ⟨hs, rfl⟩

theorem served_close (c : SockId) :
    (onClose s c).crashed = false ∧ (onClose s c).peerObjects.Plain ∧
      (onClose s c).peerObjects.find = registeredAfter s (.close c) := by
  rcases hfind : s.peerObjects.find (s.peers c).pid.toText with _ | owner
  · rw [onClose_free hplain hfind]
    exact ⟨hs, hplain, by simp [registeredAfter, hfind]⟩
  · by_cases hsid : (s.peers c).sid = (s.peers owner).sid
    · rw [onClose_same hplain hfind hsid]
      refine ⟨hs, hplain.delete _, ?_⟩
      show (s.peerObjects.delete (s.peers c).pid.toText).find = _
      rw [find_delete_eq, registeredAfter, if_pos (by simpa [hfind] using hsid)]
    · rw [onClose_other hplain hfind hsid]
      exact ⟨hs, hplain, by simp [registeredAfter, hfind, hsid]⟩

/-- A call with a safe name. -/
theorem served_of_nameSafe {k : Call} (hsafe : NameSafe (s, k)) :
    (resultOf (s, k)).crashed = false ∧ (resultOf (s, k)).peerObjects.Plain ∧
      (resultOf (s, k)).peerObjects.find = registeredAfter s k := by
  cases k with
  | accept c a p => exact ⟨hs, hplain, rfl⟩
  | dialog c =>
    by_cases hlogin : s.sentLogin c
    · exact served_login hplain hs hlogin (hsafe hlogin)
    · obtain ⟨halive, hsame⟩ := served_other hplain hs hlogin
      refine ⟨halive, ?_, ?_⟩
      · show (processDialog s c).peerObjects.Plain
        rwa [hsame]
      · show (processDialog s c).peerObjects.find = _
        rw [hsame, registeredAfter, if_neg (by simp [hlogin])]
  | close c => exact served_close hplain hs c

/-- Where the name is not safe, `peerObjects` stops being a map. -/
theorem nameSafe_of_served {k : Call} (h : ServedAsMap (s, k)) : NameSafe (s, k) := by
  cases k with
  | accept c a p => trivial
  | close c => trivial
  | dialog c =>
    intro hlogin
    have hresult : ∀ name, (s.sentName c).toText = name → s.peerObjects.find name = none →
        resultOf (s, .dialog c) = enlisted (s.setPid c (s.sentName c)) c := by
      rintro name rfl hfree
      exact (processDialog_login hlogin).trans (login_free hplain hs hfree)
    have hassign : (enlisted (s.setPid c (s.sentName c)) c).peerObjects = s.peerObjects.assign (s.sentName c).toText c := by
      simp [enlisted]
    constructor
    · intro hname
      have hlookup := h.isMap.lookup hasOwnPropertyName
      have hfind : (s.peerObjects.assign hasOwnPropertyName c).find hasOwnPropertyName = some c := by
        rw [find_assign_eq (by decide) hplain.hasOwn, Function.update_self]
      rw [hresult _ hname hplain.hasOwn, hassign, hname, PeerObjects.hasOwnProperty, hfind] at hlookup
      cases hlookup
    · intro hname
      have hfree : s.peerObjects.find protoName = none := PeerObjects.find_eq_none_iff.mpr s.peerObjects.proto_not_own
      have hfind := congrFun h.find protoName
      rw [hresult _ hname hfree, hassign, hname, find_assign_protoName, hfree, registeredAfter,
        if_pos ⟨hlogin, hname ▸ hfree⟩, hname, Function.update_self] at hfind
      cases hfind

theorem servedAsMap_iff {k : Call} : ServedAsMap (s, k) ↔ NameSafe (s, k) := by
  refine ⟨nameSafe_of_served hplain hs, fun hsafe => ?_⟩
  obtain ⟨halive, hplain', hfind⟩ := served_of_nameSafe hplain hs hsafe
  exact ⟨halive, hplain'.isMap, hfind⟩

end call

/-! ### Runs -/

/-- As long as all names were safe, a call is served if and only if its name is. -/
def ServedWhileSafe (past : List (State × Call)) (x : State × Call) : Prop :=
  (∀ y ∈ past, NameSafe y) → (ServedAsMap x ↔ NameSafe x)

theorem kept_names {all : List (State × Call)} :
    Kept all fun past s => Journal.Valid ServedWhileSafe past ∧
      ((∀ y ∈ past, NameSafe y) → s.peerObjects.Plain ∧ s.crashed = false) := by
  have hstep : ∀ (past : List (State × Call)) (s : State) (k : Call),
      Journal.Valid ServedWhileSafe past ∧ ((∀ y ∈ past, NameSafe y) → s.peerObjects.Plain ∧ s.crashed = false) →
      Journal.Valid ServedWhileSafe (past ++ [(s, k)]) ∧
        ((∀ y ∈ past ++ [(s, k)], NameSafe y) →
          (resultOf (s, k)).peerObjects.Plain ∧ (resultOf (s, k)).crashed = false) := by
    rintro past s k ⟨hvalid, hplain⟩
    refine ⟨Journal.valid_concat_iff.mpr ⟨hvalid, fun hpast => ?_⟩, fun hall => ?_⟩
    · obtain ⟨ho, hs⟩ := hplain hpast
      exact servedAsMap_iff ho hs
    · obtain ⟨ho, hs⟩ := hplain fun y hy => hall y (List.mem_append_left _ hy)
      obtain ⟨halive, ho', -⟩ := served_of_nameSafe ho hs (hall (s, k) (by simp))
      exact ⟨ho', halive⟩
  constructor
  · exact fun past s c a p h _ _ _ => hstep past s (.accept c a p) h
  · exact fun _ _ _ _ h => h
  · exact fun _ _ _ _ h => h
  · exact fun past s c h _ _ _ => hstep past s (.dialog c) h
  · exact fun past s c h _ _ _ => hstep past (s.closeSock c) (.close c) h

/-- Entries that are right as long as the others are right before them. -/
theorem forall_iff_of_valid {log : List (State × Call)} (h : Journal.Valid ServedWhileSafe log) :
    (∀ x ∈ log, ServedAsMap x) ↔ ∀ x ∈ log, NameSafe x := by
  induction log using List.reverseRecOn with
  | nil => simp
  | append_singleton log x ih =>
    obtain ⟨hlog, hlast⟩ := Journal.valid_concat_iff.mp h
    constructor
    · intro hall y hy
      have hbefore := (ih hlog).mp fun z hz => hall z (List.mem_append_left _ hz)
      rcases List.mem_append.mp hy with hy | hy
      · exact hbefore y hy
      · obtain rfl := List.mem_singleton.mp hy
        exact (hlast hbefore).mp (hall y (by simp))
    · intro hall y hy
      have hbefore : ∀ z ∈ log, NameSafe z := fun z hz => hall z (List.mem_append_left _ hz)
      rcases List.mem_append.mp hy with hy | hy
      · exact (ih hlog).mpr hbefore y hy
      · obtain rfl := List.mem_singleton.mp hy
        exact (hlast hbefore).mpr (hall y (by simp))

/-- Names of other methods are names like others. -/
def methodNames : List Event :=
  [.connection 1 "10.0.0.1".toList 4001, .connection 2 "10.0.0.2".toList 4002, .data 1 (cstr "<login:toString>"),
    .data 2 (cstr "<login:valueOf>"), .data 2 (cstr "<send:toString:hi>"), .close 1]

/-- A client called `hasOwnProperty` logs in, and then another one. -/
def lookupHidden : List Event :=
  [.connection 1 "10.0.0.1".toList 4001, .connection 2 "10.0.0.2".toList 4002,
    .data 1 (cstr "<login:hasOwnProperty>"), .data 2 (cstr "<login:b>")]

/-- A client called `__proto__` logs in, and then another one. -/
def prototypeSet : List Event :=
  [.connection 1 "10.0.0.1".toList 4001, .connection 2 "10.0.0.2".toList 4002, .data 1 (cstr "<login:__proto__>"),
    .data 2 (cstr "<login:b>")]

end ProbICE.DialogServer
