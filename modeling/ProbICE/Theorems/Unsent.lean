import ProbICE.Theorems.Batches
import ProbICE.Theorems.Probers
import ProbICE.Theorems.Sending

/-! # Candidates that wait to be sent

The functions that send candidates always report success, and the buffer of a proxy is cleared behind them. Nothing on
the way to the socket reports that a frame has not gone out, so candidates are lost unless the peer is online on a
connected socket that takes every frame whole. -/

namespace ProbICE

/-! ### Calls of SendMessage -/

namespace Peer

/-- The frame of a call goes onto the stream as a whole. -/
def PutsWhole (p : Peer) (f : CString × List CString) : Prop :=
  (p.SendMessage f.1 f.2).1.outgoing = p.outgoing ++ msgPayload f.1 f.2

/-- Among the calls `fs`, made one after the other, is the call `f`, and its frame goes onto the stream as a whole. -/
def PutOnStream (p : Peer) (fs : List (CString × List CString)) (f : CString × List CString) : Prop :=
  ∃ before after, fs = before ++ f :: after ∧ (p.sendAll before).PutsWhole f

/-- The peer is online on a connected socket that takes each of the frames of the coming calls as a whole. -/
def TakesAll (p : Peer) (fs : List (CString × List CString)) : Prop :=
  fs = [] ∨ p.isOnline = true ∧ ∃ sock, p.sock = some sock ∧ sock.state = .connected ∧
    ∀ x ∈ fs.zip sock.answers, ∃ n, x.2 = some n ∧ (msgPayload x.1.1 x.1.2).length ≤ n

theorem msgPayload_ne_nil (to_ : CString) (msg : List CString) : msgPayload to_ msg ≠ [] := by
  rw [msgPayload_eq]
  exact frame_ne_nil _

theorem SendMessage_connected {p : Peer} {sock : AsyncSocket} (hon : p.isOnline = true) (hsock : p.sock = some sock)
    (hstate : sock.state = .connected) (f : CString × List CString) :
    (p.SendMessage f.1 f.2).1 =
      { p with
        sock := some { sock with
          outgoing := sock.outgoing ++ sock.taken (msgPayload f.1 f.2)
          answers := sock.answers.tail } } := by
  simp [SendMessage, hon, hsock, AsyncSocket.Send_connected hstate]

theorem putsWhole_iff {p : Peer} {f : CString × List CString} :
    p.PutsWhole f ↔ p.isOnline = true ∧ ∃ sock, p.sock = some sock ∧ sock.state = .connected ∧
      sock.TakesWhole (msgPayload f.1 f.2) := by
  have hne := msgPayload_ne_nil f.1 f.2
  constructor
  · intro hputs
    by_cases hon : p.isOnline = true
    · rcases hsock : p.sock with _ | sock
      · simp [PutsWhole, SendMessage, hon, hsock, outgoing, hne] at hputs
      · by_cases hstate : sock.state = .connected
        · rw [PutsWhole, SendMessage_connected hon hsock hstate, outgoing, outgoing, hsock] at hputs
          exact ⟨hon, sock, rfl, hstate, (AsyncSocket.taken_eq_iff hne).mp (List.append_cancel_left hputs)⟩
        · simp [PutsWhole, SendMessage, hon, hsock, outgoing, AsyncSocket.Send, hstate, hne] at hputs
    · simp [PutsWhole, SendMessage, hon, hne] at hputs
  · rintro ⟨hon, sock, hsock, hstate, htakes⟩
    rw [PutsWhole, SendMessage_connected hon hsock hstate, outgoing, outgoing, hsock]
    exact congrArg (sock.outgoing ++ ·) ((AsyncSocket.taken_eq_iff hne).mpr htakes)

theorem takesAll_cons {p : Peer} {f : CString × List CString} {fs : List (CString × List CString)} :
    p.TakesAll (f :: fs) ↔ p.PutsWhole f ∧ (p.SendMessage f.1 f.2).1.TakesAll fs := by
  rw [putsWhole_iff]
  constructor
  · rintro (hnil | ⟨hon, sock, hsock, hstate, hall⟩)
    · cases hnil
    · refine ⟨⟨hon, sock, hsock, hstate, fun answer hanswer => ?_⟩, .inr ?_⟩
      · obtain ⟨answers, hanswers⟩ := List.head?_eq_some_iff.mp hanswer
        exact hall (f, answer) (by rw [hanswers]; exact List.mem_cons_self)
      · rw [SendMessage_connected hon hsock hstate]
        refine ⟨hon, _, rfl, hstate, fun x hx => hall x ?_⟩
        rcases hanswers : sock.answers with _ | ⟨answer, answers⟩
        · simp [hanswers] at hx
        · rw [hanswers] at hx
          exact List.mem_cons_of_mem _ hx
  · rintro ⟨⟨hon, sock, hsock, hstate, htakes⟩, hrest⟩
    refine .inr ⟨hon, sock, hsock, hstate, fun x hx => ?_⟩
    rcases hanswers : sock.answers with _ | ⟨answer, answers⟩
    · simp [hanswers] at hx
    · rw [hanswers, List.zip_cons_cons] at hx
      rcases List.mem_cons.mp hx with rfl | hx
      · exact htakes answer (by rw [hanswers]; rfl)
      · obtain rfl | ⟨-, sock', hsock', -, hall⟩ := hrest
        · simp at hx
        · rw [SendMessage_connected hon hsock hstate] at hsock'
          obtain rfl := Option.some.inj hsock'
          exact hall x (by rw [hanswers]; exact hx)

/-- All calls of a list put their frames onto the stream. -/
theorem takesAll_iff {p : Peer} {fs : List (CString × List CString)} :
    p.TakesAll fs ↔ ∀ before f after, fs = before ++ f :: after → (p.sendAll before).PutsWhole f := by
  induction fs generalizing p with
  | nil => exact iff_of_true (.inl rfl) (by simp)
  | cons f fs ih =>
    rw [takesAll_cons, ih]
    constructor
    · rintro ⟨hf, hfs⟩ before g after heq
      cases before with
      | nil =>
        rw [List.nil_append, List.cons.injEq] at heq
        exact heq.1 ▸ hf
      | cons b before =>
        rw [List.cons_append, List.cons.injEq] at heq
        obtain ⟨rfl, heq⟩ := heq
        exact hfs before g after heq
    · intro hall
      exact ⟨hall [] f fs rfl, fun before g after heq => hall (f :: before) g after (by rw [heq, List.cons_append])⟩

end Peer

/-! ### The session -/

namespace PPSession
variable [Host]

/-! With their results. -/

namespace WithResult

/-- `SendTransportInfoMessage`. -/
def SendTransportInfoMessage (s : PPSession) (content_name : CString) (candidates : List Candidate) : PPSession × Bool :=
  (s.SendTransportInfoMessage content_name candidates, true)

/-- The loop of `SendAllUnsentTransportInfoMessages`. -/
def SendUnsent (s : PPSession) : List CString → PPSession × Bool
  | [] => (s, true)
  | content_name :: rest =>
    match s.GetTransportProxy content_name with
    | none => SendUnsent s rest
    | some p =>
      if p.unsent_candidates.length > 0 then
        match SendTransportInfoMessage s content_name p.unsent_candidates with
        | (s, false) => (s, false)
        | (s, true) => SendUnsent (s.onProxy content_name fun p => (p.ClearUnsentCandidates, [])) rest
      else SendUnsent s rest

/-- `SendAllUnsentTransportInfoMessages`. -/
def SendAllUnsentTransportInfoMessages (s : PPSession) : PPSession × Bool :=
  SendUnsent { s with pending_candidates := false } s.transports.keys

theorem SendUnsent_eq (s : PPSession) (ks : List CString) :
    SendUnsent s ks = (ks.foldl PPSession.SendUnsent s, true) := by
  induction ks generalizing s with
  | nil => rfl
  | cons k ks ih =>
    rw [SendUnsent, List.foldl_cons, PPSession.SendUnsent]
    cases s.GetTransportProxy k with
    | none => exact ih s
    | some p =>
      simp only
      split
      · exact ih _
      · exact ih s

/-- The result is always true. -/
theorem SendAllUnsent_eq (s : PPSession) :
    SendAllUnsentTransportInfoMessages s = (s.SendAllUnsentTransportInfoMessages, true) :=
  SendUnsent_eq _ _

end WithResult

/-- The contents whose candidates wait to be sent, in the order of the loop. -/
def unsentBatches (s : PPSession) : List (CString × List Candidate) :=
  s.transports.keys.filterMap fun k => if s.unsent k = [] then none else some (k, s.unsent k)

theorem unsentMessages_eq (s : PPSession) :
    s.unsentMessages = s.unsentBatches.map fun b => transportInfo b.1 b.2 := by
  rw [unsentMessages, unsentBatches, List.map_filterMap]
  refine List.filterMap_congr fun k _ => ?_
  rcases hp : s.transports[k]? with _ | p
  · simp [unsent, hp]
  · by_cases hunsent : p.unsent_candidates = []
    · simp [unsent, hp, unsentMessage, hunsent]
    · simp [unsent, hp, unsentMessage, hunsent]

theorem mem_unsentBatches {s : PPSession} {b : CString × List Candidate} :
    b ∈ s.unsentBatches ↔ b.2 ≠ [] ∧ b.2 = s.unsent b.1 := by
  rw [unsentBatches, List.mem_filterMap]
  constructor
  · rintro ⟨k, -, hb⟩
    obtain ⟨hne, hb⟩ := Option.ite_none_left_eq_some.mp hb
    obtain rfl := Option.some.inj hb
    exact ⟨hne, rfl⟩
  · rintro ⟨hne, heq⟩
    have hmem : b.1 ∈ s.transports := by
      rw [Std.ExtTreeMap.mem_iff_isSome_getElem?]
      by_contra hnone
      rw [Bool.not_eq_true, Option.isSome_eq_false_iff, Option.isNone_iff_eq_none] at hnone
      exact hne (by rw [heq, unsent, hnone]; rfl)
    exact ⟨b.1, by simpa using hmem, by rw [if_neg (heq ▸ hne), ← heq]⟩

/-- There is one batch for each content. -/
theorem nodup_unsentBatches (s : PPSession) : (s.unsentBatches.map Prod.fst).Nodup := by
  have hsub : ∀ ks : List CString,
      ((ks.filterMap fun k => if s.unsent k = [] then none else some (k, s.unsent k)).map Prod.fst).Sublist ks := by
    intro ks
    induction ks with
    | nil => exact List.Sublist.slnil
    | cons k ks ih =>
      rw [List.filterMap_cons]
      split
      · exact ih.cons _
      · rename_i b hb
        obtain ⟨-, hb⟩ := Option.ite_none_left_eq_some.mp hb
        obtain rfl := Option.some.inj hb
        exact ih.cons_cons k
  exact (hsub _).nodup Std.ExtTreeMap.nodup_keys

theorem unsent_SendAllUnsent (s : PPSession) (k : CString) : s.SendAllUnsentTransportInfoMessages.unsent k = [] := by
  rw [unsent, transports_SendAllUnsent]
  cases s.transports[k]? <;> rfl

theorem unsent_OnSignalingReady (s : PPSession) (k : CString) : s.OnSignalingReady.unsent k = s.unsent k := by
  rw [unsent, unsent, OnSignalingReady, Std.ExtTreeMap.getElem?_map]
  cases s.transports[k]? <;> rfl

end PPSession

/-! ### The prober -/

namespace IceProber
variable [Host]

/-- `unsent_candidates()` of the proxy of a content. -/
def unsent (p : IceProber) (k : CString) : List Candidate := (p.session.map fun s => s.unsent k).getD []

/-- Of the messages `msgs`, handed to the peer one after the other, one tells of the candidate, and its frame goes onto
    the stream as a whole. -/
def Delivers (p : IceProber) (msgs : List PPMessage) (k : CString) (c : Candidate) : Prop :=
  ∃ cs, c ∈ cs ∧ ∃ f, sent p.remote_name (PPSession.transportInfo k cs) = some f ∧
    p.peer.PutOnStream (msgs.filterMap (sent p.remote_name)) f

/-- When a function of the session leads to `t`, each of the candidates `cs` of a content is delivered or it waits in
    the buffer. -/
def Accounts (p : IceProber) (t : PPSession) (k : CString) (cs : List Candidate) : Prop :=
  ∃ gone, cs.Perm (gone ++ (p.afterSession t).unsent k) ∧ ∀ c ∈ gone, p.Delivers t.messages k c

theorem unsent_afterSession (p : IceProber) (t : PPSession) (k : CString) : (p.afterSession t).unsent k = t.unsent k := by
  obtain ⟨u, hu, hunsent⟩ := session_afterSession (P := fun u => u.unsent k = t.unsent k) t rfl
    (fun u hu => (PPSession.unsent_OnSignalingReady u k).trans hu) p
  rw [unsent, hu]
  exact hunsent

/-- The call of `SendMessage` for a batch of candidates. -/
def callFor (p : IceProber) (b : CString × List Candidate) : CString × List CString :=
  (p.remote_name, cstr "pp_transport" :: b.1 :: b.2.flatMap Candidate.words)

theorem filterMap_sent_transportInfo (p : IceProber) (batches : List (CString × List Candidate)) :
    (batches.map fun b => PPSession.transportInfo b.1 b.2).filterMap (sent p.remote_name) = batches.map p.callFor := by
  rw [List.filterMap_map]
  exact congrFun (List.filterMap_eq_map (f := p.callFor)) batches

/-- All candidates of a list of batches are delivered when the socket takes all frames, and only then. -/
theorem delivers_all_iff (p : IceProber) (batches : List (CString × List Candidate))
    (hkeys : (batches.map Prod.fst).Nodup) (hne : ∀ b ∈ batches, b.2 ≠ []) :
    (∀ b ∈ batches, ∀ c ∈ b.2, p.Delivers (batches.map fun b => PPSession.transportInfo b.1 b.2) b.1 c) ↔
      p.peer.TakesAll (batches.map p.callFor) := by
  have hnodup : ((batches.map p.callFor).map fun f => f.2[1]?).Nodup := by
    rw [List.map_map]
    have hmap : batches.map ((fun f : CString × List CString => f.2[1]?) ∘ p.callFor) =
        (batches.map Prod.fst).map some := by
      rw [List.map_map]
      rfl
    rw [hmap]
    exact hkeys.map (Option.some_injective _)
  rw [Peer.takesAll_iff]
  simp only [Delivers, filterMap_sent_transportInfo]
  constructor
  · intro hall before f after heq
    obtain ⟨bs, bs', rfl, rfl, hbs'⟩ := List.map_eq_append_iff.mp heq
    obtain ⟨b, bs', rfl, rfl, rfl⟩ := List.map_eq_cons_iff.mp hbs'
    have hb : b ∈ bs ++ b :: bs' := List.mem_append_right bs List.mem_cons_self
    obtain ⟨c, hc⟩ := List.exists_mem_of_ne_nil _ (hne b hb)
    obtain ⟨cs, -, f, hf, before, after, heq', hputs⟩ := hall b hb c hc
    obtain rfl := Option.some.inj hf
    obtain ⟨hbefore, hf⟩ := Delimited.split_unique (fun f => f.2[1]?) hnodup heq heq' rfl
    rw [hbefore, hf]
    exact hputs
  · intro hall b hb c hc
    obtain ⟨bs, bs', rfl⟩ := List.append_of_mem hb
    have heq : (bs ++ b :: bs').map p.callFor = bs.map p.callFor ++ p.callFor b :: bs'.map p.callFor := List.map_append
    exact ⟨b.2, hc, p.callFor b, rfl, _, _, heq, hall _ _ _ heq⟩

theorem sendAll_accounts_iff {p : IceProber} {s : PPSession} (hs : p.session = some s) (hout : s.out = []) :
    ((∀ k, p.Accounts (PPSession.WithResult.SendAllUnsentTransportInfoMessages s).1 k (p.unsent k)) ∧
        ((PPSession.WithResult.SendAllUnsentTransportInfoMessages s).2 = true → ∀ k, ∀ c ∈ p.unsent k,
          p.Delivers (PPSession.WithResult.SendAllUnsentTransportInfoMessages s).1.messages k c)) ↔
      p.peer.TakesAll (s.unsentBatches.map p.callFor) := by
  have hunsent : ∀ k, p.unsent k = s.unsent k := fun k => by rw [unsent, hs]; rfl
  have hmessages : s.SendAllUnsentTransportInfoMessages.messages =
      s.unsentBatches.map fun b => PPSession.transportInfo b.1 b.2 := by
    rw [PPSession.messages_of_signals s.SendAllUnsent_frame.1, PPSession.filterMap_message?_outgoing,
      PPSession.messages, hout, PPSession.unsentMessages_eq]
    rfl
  have hall := p.delivers_all_iff _ s.nodup_unsentBatches fun b hb => (PPSession.mem_unsentBatches.mp hb).1
  rw [PPSession.WithResult.SendAllUnsent_eq, ← hall]
  simp only [hunsent, hmessages]
  constructor
  · rintro ⟨-, hsent⟩ b hb c hc
    exact hsent trivial b.1 c ((PPSession.mem_unsentBatches.mp hb).2 ▸ hc)
  · intro hsent
    have hdelivers : ∀ k, ∀ c ∈ s.unsent k,
        p.Delivers (s.unsentBatches.map fun b => PPSession.transportInfo b.1 b.2) k c := fun k c hc =>
      hsent (k, s.unsent k) (PPSession.mem_unsentBatches.mpr ⟨List.ne_nil_of_mem hc, rfl⟩) c hc
    refine ⟨fun k => ⟨s.unsent k, ?_, ?_⟩, fun _ => hdelivers⟩
    · rw [unsent_afterSession, PPSession.unsent_SendAllUnsent, List.append_nil]
    · rw [hmessages]
      exact hdelivers k

theorem candidatesReady_accounts_iff {p : IceProber} {s : PPSession} (hs : p.session = some s) (hout : s.out = [])
    {k : CString} {proxy : TransportProxy} (hproxy : s.GetTransportProxy k = some proxy) (cands : List Candidate) :
    (∀ j, p.Accounts (s.OnTransportCandidatesReady k cands) j (p.unsent j ++ if j = k then cands else [])) ↔
      s.pending_candidates = true ∨ cands = [] ∨ p.peer.TakesAll [p.callFor (k, cands)] := by
  have hunsent : ∀ j, p.unsent j = s.unsent j := fun j => by rw [unsent, hs]; rfl
  have htransport : s.transports[k]? = some proxy := hproxy
  simp only [hunsent]
  by_cases hpending : s.pending_candidates = true
  · refine iff_of_true (fun j => ⟨[], ?_, by simp⟩) (.inl hpending)
    have hadded : (s.OnTransportCandidatesReady k cands).unsent j = s.unsent j ++ if j = k then cands else [] := by
      rw [PPSession.OnTransportCandidatesReady, hproxy]
      simp only [hpending, if_true]
      rw [PPSession.unsent, PPSession.transports_onProxy, PPSession.unsent]
      by_cases hj : j = k
      · subst hj
        simp [htransport, TransportProxy.AddUnsentCandidates]
      · simp [hj]
    rw [unsent_afterSession, hadded, List.nil_append]
  · have hready : s.OnTransportCandidatesReady k cands = s.SendTransportInfoMessage k cands := by
      rw [PPSession.OnTransportCandidatesReady, hproxy]
      simp [hpending]
    have hmessages : (s.SendTransportInfoMessage k cands).messages = [PPSession.transportInfo k cands] := by
      rw [PPSession.messages, PPSession.SendTransportInfoMessage, PPSession.emit, hout]
      rfl
    have hsame : ∀ j, (s.SendTransportInfoMessage k cands).unsent j = s.unsent j := fun _ => rfl
    rw [hready]
    by_cases hcands : cands = []
    · exact iff_of_true (fun j => ⟨[], by simp [unsent_afterSession, hcands, hcands ▸ hsame j], by simp⟩) (.inr (.inl hcands))
    · have hone := p.delivers_all_iff [(k, cands)] (by simp) (by simpa using hcands)
      simp only [List.mem_singleton, forall_eq, List.map_cons, List.map_nil] at hone
      simp only [hpending, Bool.false_eq_true, hcands, false_or, Accounts, hmessages, unsent_afterSession, hsame, ← hone]
      constructor
      · intro hall c hc
        obtain ⟨gone, hperm, hgone⟩ := hall k
        rw [if_pos rfl] at hperm
        have hcancel : cands.Perm gone := (List.perm_append_left_iff _).mp (hperm.trans List.perm_append_comm)
        exact hgone c (hcancel.mem_iff.mp hc)
      · intro hall j
        by_cases hj : j = k
        · subst hj
          exact ⟨cands, by rw [if_pos rfl]; exact List.perm_append_comm, hall⟩
        · exact ⟨[], by simp [hj], by simp⟩

/-- The candidates that wait to be sent are sent or kept, and the function tells whether they were sent, exactly when
    nothing waits or the peer is online on a connected socket that takes every frame whole. So it is with a new batch of
    candidates, unless it is kept back. -/
theorem candidates_kept_or_sent {p : IceProber} {s : PPSession} (hs : p.session = some s) (hout : s.out = []) :
    (((∀ k, p.Accounts (PPSession.WithResult.SendAllUnsentTransportInfoMessages s).1 k (p.unsent k)) ∧
        ((PPSession.WithResult.SendAllUnsentTransportInfoMessages s).2 = true → ∀ k, ∀ c ∈ p.unsent k,
          p.Delivers (PPSession.WithResult.SendAllUnsentTransportInfoMessages s).1.messages k c)) ↔
      p.peer.TakesAll (s.unsentBatches.map p.callFor)) ∧
    ∀ k proxy cands, s.GetTransportProxy k = some proxy →
      ((∀ j, p.Accounts (s.OnTransportCandidatesReady k cands) j (p.unsent j ++ if j = k then cands else [])) ↔
        s.pending_candidates = true ∨ cands = [] ∨ p.peer.TakesAll [p.callFor (k, cands)]) :=
  ⟨sendAll_accounts_iff hs hout, fun _ _ cands hproxy => candidatesReady_accounts_iff hs hout hproxy cands⟩

end IceProber

section
attribute [local instance] Host.plain

namespace IceProber

/-- A candidate of a local port. -/
def unsentOffer : Candidate where
  name := cstr "prober"
  protocol := cstr "udp"
  address := .ofIP (.v4 0x0A000001) 40000
  preference := (1 : Nat)
  username := cstr "user"
  password := cstr "password"
  type := cstr "local"
  network_name := cstr "eth0"
  generation := 0

/-- A session that has sent an initiate message, with a candidate that waits for the answer. -/
def initiated : PPSession :=
  { ((((PPSession.new true).CreateChannel (cstr "data") (cstr "prober")).Initiate id (cstr "data")).1.OnTransportCandidatesReady
    (cstr "data") [unsentOffer]) with out := [] }

/-- The prober of that session. `answers` is what its socket will answer. -/
def awaiting (answers : List (Option Nat)) : IceProber :=
  { Login true (cstr "a") (cstr "b") with
    session := some initiated
    peer := {
      id := cstr "a", isOnline := true, sock := some { state := .connected, outgoing := [], answers }, xmlBuffer := [] } }

/-- A socket that takes everything. -/
theorem candidates_kept_or_sent_connected :
    (∀ k, (awaiting []).Accounts (PPSession.WithResult.SendAllUnsentTransportInfoMessages initiated).1 k
      ((awaiting []).unsent k)) ∧
    ((PPSession.WithResult.SendAllUnsentTransportInfoMessages initiated).2 = true → ∀ k, ∀ c ∈ (awaiting []).unsent k,
      (awaiting []).Delivers (PPSession.WithResult.SendAllUnsentTransportInfoMessages initiated).1.messages k c) :=
  (candidates_kept_or_sent rfl rfl).1.mpr (.inr ⟨rfl, _, rfl, rfl, by simp⟩)

/-- The send buffer of the socket is full: the candidate is gone, and no frame has been put on the stream. -/
theorem would_block_drops :
    ¬ ((∀ k, (awaiting [none]).Accounts (PPSession.WithResult.SendAllUnsentTransportInfoMessages initiated).1 k
        ((awaiting [none]).unsent k)) ∧
      ((PPSession.WithResult.SendAllUnsentTransportInfoMessages initiated).2 = true →
        ∀ k, ∀ c ∈ (awaiting [none]).unsent k, (awaiting [none]).Delivers
          (PPSession.WithResult.SendAllUnsentTransportInfoMessages initiated).1.messages k c)) := by
  have hwaits : (cstr "data", [unsentOffer]) ∈ initiated.unsentBatches :=
    PPSession.mem_unsentBatches.mpr ⟨by simp, rfl⟩
  rw [sendAll_accounts_iff rfl rfl]
  rcases hbatches : initiated.unsentBatches with _ | ⟨b, bs⟩
  · rw [hbatches] at hwaits
    cases hwaits
  · rintro (hnil | ⟨-, sock, hsock, -, hall⟩)
    · cases hnil
    · obtain rfl := Option.some.inj hsock
      obtain ⟨n, hn, -⟩ := hall ((awaiting [none]).callFor b, none) List.mem_cons_self
      cases hn

end IceProber

end

end ProbICE
