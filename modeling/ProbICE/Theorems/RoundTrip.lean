import ProbICE.Theorems.Logins

/-! # Every message arrives once

When the clients are registered under distinct texts and nobody disconnects, each message goes through three codecs:
`SendMessage` writes a frame, the server takes it apart and writes another one, and the client that it is for takes
that one apart. Whatever the pieces in which the streams are read and whatever the order in which the clients send,
the server relays the messages of each client in order and each client hears those that are for it. -/

namespace ProbICE
open Delimited
open DialogServer (SockId framesTo)

/-- The message that a signal tells of. -/
def Signal.message? : Signal → Option (CString × List CString)
  | remoteMessage remote msgBody => some (remote, msgBody)
  | _ => none

/-- The messages that a client has been told of, each with the name of its sender. -/
def messages (sigs : List Signal) : List (CString × List CString) := sigs.filterMap Signal.message?

theorem messages_heard (sigs : List Signal) : messages (heard sigs) = messages sigs := by
  rw [messages, heard, List.filterMap_filter, messages]
  refine List.filterMap_congr fun sig _ => ?_
  cases sig <;> rfl

namespace DialogServer

/-- The write relays a message of `c`. -/
def Write.isMessageOf (c : SockId) (w : Write) : Bool := w.cause = c && !w.frame.isNotice

theorem relayed_append (o : PeerObjects) (c : SockId) (pid : JsString) (fs gs : List (CString × List CString)) :
    relayed o c pid (fs ++ gs) = relayed o c pid fs ++ relayed o c pid gs :=
  List.flatMap_append

theorem mem_relayed {o : PeerObjects} {c : SockId} {pid : JsString} {fs : List (CString × List CString)} {w : Write}
    (h : w ∈ relayed o c pid fs) : w.cause = c ∧ ∃ words, w.frame = .message pid words := by
  obtain ⟨f, -, hw⟩ := List.mem_flatMap.mp h
  unfold messageWrites at hw
  split at hw
  · cases hw
  · obtain rfl := List.mem_singleton.mp hw
    exact ⟨rfl, _, rfl⟩

theorem filter_relayed_self (o : PeerObjects) (c : SockId) (pid : JsString) (fs : List (CString × List CString)) :
    (relayed o c pid fs).filter (Write.isMessageOf c) = relayed o c pid fs := by
  refine List.filter_eq_self.mpr fun w hw => ?_
  obtain ⟨hcause, words, hframe⟩ := mem_relayed hw
  simp [Write.isMessageOf, hcause, hframe, Frame.isNotice]

theorem filter_relayed_of_ne (o : PeerObjects) {c d : SockId} (hd : d ≠ c) (pid : JsString)
    (fs : List (CString × List CString)) : (relayed o c pid fs).filter (Write.isMessageOf d) = [] := by
  refine List.filter_eq_nil_iff.mpr fun w hw => ?_
  simp [Write.isMessageOf, (mem_relayed hw).1, Ne.symm hd]

end DialogServer

namespace Network

/-- No client starts any more, and what the clients `cs` send is text without delimiters. -/
def Event.Talks (cs : List SockId) : Event → Prop
  | start _ => False
  | send c to_ msg => c ∈ cs ∧ CleanMessage (to_, msg) ∧ Utf8.Valid to_ ∧ ∀ w ∈ msg, Utf8.Valid w
  | _ => True

/-- The registered client `c` has sent messages: the server has relayed `done`, and `pending` is under way. -/
structure Talker (w : CString) (n : Network) (c : SockId) (done pending : List (CString × List CString))
    (outgoing kept : List UInt8) : Prop where
  opened : (n.clients c).Open outgoing
  read : n.server.HasRead c kept
  carries : Carries greater kept outgoing (pending.map sendBody)
  clean : ∀ f ∈ pending, CleanMessage f
  live : n.server.live c = true
  pid : (n.server.peers c).pid = .string (Utf8.lossy w)
  relayed : n.server.written.filter (DialogServer.Write.isMessageOf c) =
    DialogServer.relayed n.server.peerObjects c (Utf8.lossy w) done

/-- A step that leaves a client, its connection and its messages. -/
theorem Talker.frame {w : CString} {n n' : Network} {c : SockId} {done pending : List (CString × List CString)}
    {outgoing kept : List UInt8} (h : Talker w n c done pending outgoing kept)
    (hsame : (n'.clients c).isOnline = (n.clients c).isOnline ∧ (n'.clients c).sock = (n.clients c).sock)
    (hsocks : n'.server.socks c = n.server.socks c) (hpeers : n'.server.peers c = n.server.peers c)
    (hregistry : n'.server.peerObjects = n.server.peerObjects)
    (hwritten : n'.server.written.filter (DialogServer.Write.isMessageOf c) =
      n.server.written.filter (DialogServer.Write.isMessageOf c)) : Talker w n' c done pending outgoing kept where
  opened := ⟨hsame.1.trans h.opened.isOnline, hsame.2.trans h.opened.sock⟩
  read := by
    rw [DialogServer.State.HasRead, hsocks, hpeers]
    exact h.read
  carries := h.carries
  clean := h.clean
  live := by
    rw [DialogServer.State.live, hsocks]
    exact h.live
  pid := hpeers ▸ h.pid
  relayed := by rw [hwritten, hregistry, h.relayed]

/-- While the registered clients `cs` send, and `said` is what they have sent so far. -/
structure Talking (name : SockId → CString) (cs : List SockId) (o : DialogServer.PeerObjects)
    (said : SockId → List (CString × List CString)) (n : Network) : Prop where
  running : n.server.crashed = false
  plain : o.Plain
  registry : n.server.peerObjects = o
  talker : ∀ c ∈ cs, ∃ done pending outgoing kept, said c = done ++ pending ∧
    Talker (name c) n c done pending outgoing kept
  silent : ∀ c, c ∉ cs → (n.clients c).sock = none
  cause : ∀ w ∈ n.server.written, w.frame.isNotice = false → w.cause ∈ cs

section Talking
variable {name : SockId → CString} {cs : List SockId} {o : DialogServer.PeerObjects}
  {said : SockId → List (CString × List CString)} {n n' : Network}

/-- When the clients are registered, they can talk. -/
theorem Joining.talking (h : Joining name cs n)
    (hall : ∀ c ∈ cs, n.server.peerObjects.find (Utf8.lossy (name c)) = some c) :
    Talking name cs n.server.peerObjects (sends []) n where
  running := h.running
  plain := h.plain
  registry := rfl
  talker c hc := by
    obtain ⟨-, -, -, hnull⟩ := h.owner _ c (hall c hc)
    have hstage := h.stage c
    have hnone : n.server.written.filter (DialogServer.Write.isMessageOf c) = [] := by
      refine List.filter_eq_nil_iff.mpr fun w hw => ?_
      simp [DialogServer.Write.isMessageOf, h.quiet w hw]
    generalize hsock : (n.clients c).sock = sock at hstage
    cases hstage with
    | registered hread hlive hpid =>
      exact ⟨[], [], [], [], rfl, ⟨(h.named c).2, hsock⟩, hread, .nil, by simp, hlive, hpid, hnone⟩
    | unstarted _ _ hpid => exact absurd hpid hnull
    | connecting _ hpid => exact absurd hpid hnull
    | waiting _ _ _ hpid => exact absurd hpid hnull
  silent c hc := by
    by_contra hsome
    exact hc (h.member c (Option.isSome_iff_ne_none.mpr hsome))
  cause w hw hframe := by simp [h.quiet w hw] at hframe

/-- The client `c` sends a message. -/
theorem Talking.send (h : Talking name cs o said n) {c : SockId} (hc : c ∈ cs) {f : CString × List CString}
    (hclean : CleanMessage f) :
    Talking name cs o (Function.update said c (said c ++ [f]))
      (n.setClient c (((n.clients c).SendMessage f.1 f.2).1, ((n.clients c).SendMessage f.1 f.2).2.1)) where
  running := h.running
  plain := h.plain
  registry := h.registry
  talker d hd := by
    obtain ⟨done, pending, outgoing, kept, hsaid, ht⟩ := h.talker d hd
    by_cases hdc : d = c
    · subst hdc
      refine ⟨done, pending ++ [f], outgoing ++ stream greater [sendBody f], kept, ?_, ?_, ht.read, ?_, ?_, ht.live, ht.pid,
        ht.relayed⟩
      · rw [Function.update_self, hsaid, List.append_assoc]
      · simp only [Network.setClient, Function.update_self, Peer.SendMessage_open ht.opened]
        exact ⟨ht.opened.isOnline, by simp⟩
      · rw [List.map_append]
        exact ht.carries.push fun v hv => by
          obtain rfl := List.mem_singleton.mp hv
          exact greater_not_mem_sendBody hclean
      · intro g hg
        rcases List.mem_append.mp hg with hg | hg
        · exact ht.clean g hg
        · obtain rfl := List.mem_singleton.mp hg
          exact hclean
    · refine ⟨done, pending, outgoing, kept, by rwa [Function.update_of_ne hdc], ht.frame ?_ rfl rfl rfl rfl⟩
      simp [Network.setClient, hdc]
  silent d hd := by
    have hdc : d ≠ c := by
      rintro rfl
      exact hd hc
    simpa [Network.setClient, hdc] using h.silent d hd
  cause := h.cause

/-- The server reads a piece of what `c` has sent. -/
theorem Talking.upload (h : Talking name cs o said n) {c : SockId} {bytes : List UInt8} (hne : bytes ≠ [])
    (hbytes : bytes <+: (n.clients c).outgoing)
    (he : { n with clients := Function.update n.clients c ((n.clients c).leave bytes.length) }.serverStep
      (.data c bytes) = some n') : Talking name cs o said n' := by
  obtain ⟨rest, hrest⟩ := hbytes
  obtain ⟨s, hs, rfl⟩ := Option.map_eq_some_iff.mp he
  by_cases hc : c ∈ cs
  · obtain ⟨done, pending, outgoing, kept, hsaid, ht⟩ := h.talker c hc
    have hout : (n.clients c).outgoing = outgoing := by rw [Peer.outgoing, ht.opened.sock]; rfl
    obtain rfl : bytes ++ rest = outgoing := hrest.trans hout
    have hplain : n.server.peerObjects.Plain := h.registry ▸ h.plain
    obtain ⟨done', pending', kept', rfl, hcarries, hstep⟩ :=
      DialogServer.step_sends h.running hplain ht.live ht.pid ht.read ht.clean ht.carries
    obtain rfl := Option.some.inj (hs.symm.trans hstep)
    have hwritten : ((n.server.setRead c kept').log
        (DialogServer.relayed n.server.peerObjects c (Utf8.lossy (name c)) done')).written =
        n.server.written ++ DialogServer.relayed n.server.peerObjects c (Utf8.lossy (name c)) done' := rfl
    refine ⟨h.running, h.plain, h.registry, fun d hd => ?_, fun d hd => ?_, fun w hw hframe => ?_⟩
    · by_cases hdc : d = c
      · subst hdc
        refine ⟨done ++ done', pending', rest, kept', by rw [hsaid, List.append_assoc], ?_, DialogServer.hasRead_setRead _ _ _,
          hcarries, fun f hf => ht.clean f (List.mem_append_right _ hf), ?_, ?_, ?_⟩
        · simp only [Function.update_self]
          exact ⟨ht.opened.isOnline, by simp [Peer.leave, ht.opened.sock]⟩
        · simpa [DialogServer.State.live, DialogServer.State.setRead] using ht.live
        · simpa [DialogServer.State.setRead] using ht.pid
        · rw [hwritten, List.filter_append, ht.relayed, DialogServer.filter_relayed_self]
          exact (DialogServer.relayed_append _ _ _ _ _).symm
      · obtain ⟨done₁, pending₁, outgoing₁, kept₁, hsaid₁, ht₁⟩ := h.talker d hd
        refine ⟨done₁, pending₁, outgoing₁, kept₁, hsaid₁, ht₁.frame ?_ ?_ ?_ rfl ?_⟩
        · simp [hdc]
        · simp [DialogServer.State.setRead, hdc]
        · simp [DialogServer.State.setRead, hdc]
        · rw [hwritten, List.filter_append, DialogServer.filter_relayed_of_ne _ hdc, List.append_nil]
    · have hdc : d ≠ c := by
        rintro rfl
        exact hd hc
      simpa [hdc] using h.silent d hd
    · rcases List.mem_append.mp hw with hw | hw
      · exact h.cause w hw hframe
      · rw [(DialogServer.mem_relayed hw).1]
        exact hc
  · simp [Peer.outgoing, h.silent c hc, hne] at hrest

/-- Every event keeps the messages on their way. -/
theorem Talking.step {past : List Event} (h : Talking name cs o (sends past) n) {e : Event} (htalk : e.Talks cs)
    (he : n.step e = some n') : Talking name cs o (sends (past ++ [e])) n' := by
  have hsame : (∀ c to_ msg, e ≠ .send c to_ msg) → sends (past ++ [e]) = sends past := by
    intro hno
    funext c
    rw [sends, List.filterMap_append, ← sends]
    cases e with
    | send d to_ msg => exact absurd rfl (hno d to_ msg)
    | _ => exact List.append_nil _
  cases e with
  | start c => exact htalk.elim
  | accept c a p =>
    obtain ⟨hsock, he⟩ := Option.ite_none_right_eq_some.mp he
    obtain ⟨s, hs, -⟩ := Option.map_eq_some_iff.mp he
    simp only [DialogServer.step, Option.ite_none_left_eq_some, not_or, Bool.not_eq_true] at hs
    obtain ⟨⟨-, hnew⟩, -⟩ := hs
    -- the connections of all clients have been accepted
    by_cases hc : c ∈ cs
    · obtain ⟨done, pending, outgoing, kept, -, ht⟩ := h.talker c hc
      have hlive := ht.live
      simp [DialogServer.State.live, hnew] at hlive
    · simp [h.silent c hc] at hsock
  | connected c =>
    obtain ⟨hstate, he⟩ := Option.ite_none_right_eq_some.mp he
    by_cases hc : c ∈ cs
    · obtain ⟨done, pending, outgoing, kept, -, ht⟩ := h.talker c hc
      simp [ht.opened.sock] at hstate
    · simp [h.silent c hc] at hstate
  | send c to_ msg =>
    obtain ⟨-, he⟩ := Option.ite_none_right_eq_some.mp he
    obtain rfl := Option.some.inj he
    obtain ⟨hc, hclean, -⟩ := htalk
    have hsaid : sends (past ++ [.send c to_ msg]) = Function.update (sends past) c (sends past c ++ [(to_, msg)]) := by
      funext d
      rw [sends, List.filterMap_append, ← sends]
      by_cases hd : d = c
      · subst hd
        simp [Event.sends?]
      · simp [Event.sends?, hd, Ne.symm hd]
    rw [hsaid]
    exact h.send hc hclean
  | upload c bytes =>
    obtain ⟨⟨hne, hbytes⟩, he⟩ := Option.ite_none_right_eq_some.mp he
    rw [hsame fun _ _ _ => Event.noConfusion]
    exact h.upload hne hbytes he
  | download c temp =>
    obtain ⟨⟨hne, -, -, hsock⟩, he⟩ := Option.ite_none_right_eq_some.mp he
    obtain rfl := Option.some.inj he
    rw [hsame fun _ _ _ => Event.noConfusion, Peer.onReadEvent_eq hsock hne]
    refine ⟨h.running, h.plain, h.registry, fun d hd => ?_, fun d hd => ?_, h.cause⟩
    · obtain ⟨done, pending, outgoing, kept, hsaid, ht⟩ := h.talker d hd
      refine ⟨done, pending, outgoing, kept, hsaid, ht.frame ?_ rfl rfl rfl rfl⟩
      by_cases hdc : d = c
      · subst hdc
        simp [Network.setClient]
      · simp [Network.setClient, hdc]
    · have hdc : d ≠ c := by
        rintro rfl
        simp [h.silent d hd] at hsock
      simpa [Network.setClient, hdc] using h.silent d hd

/-- When the server has read everything, it has relayed what the clients have sent. -/
theorem Talking.relayed_all (h : Talking name cs o said n) {c : SockId} (hc : c ∈ cs) (hout : (n.clients c).outgoing = []) :
    n.server.written.filter (DialogServer.Write.isMessageOf c) =
      DialogServer.relayed o c (Utf8.lossy (name c)) (said c) := by
  obtain ⟨done, pending, outgoing, kept, hsaid, ht⟩ := h.talker c hc
  obtain rfl : outgoing = [] := by
    rw [← hout, Peer.outgoing, ht.opened.sock]
    rfl
  have hcarries := ht.carries
  have hkept := hcarries.kept_eq_nil
  rw [hkept] at hcarries
  rw [ht.relayed, h.registry, hsaid, List.map_eq_nil_iff.mp hcarries.eq_nil, List.append_nil]

end Talking

/-! ### Everything has been delivered -/

/-- Nothing is under way from or to the clients `cs`. -/
structure Delivered (cs : List SockId) (n : Network) : Prop where
  up : ∀ c ∈ cs, (n.clients c).outgoing = []
  down : ∀ c ∈ cs, n.down c = []

/-- What a write tells the client of `d`. -/
def told (d : SockId) (w : DialogServer.Write) : Option (CString × List CString) :=
  if w.sock = d then w.frame.signal.message? else none

/-- A client to which nothing is under way has been told what the server has written to it. -/
theorem Delivering.messages_eq {n : Network} (h : Delivering n) {d : SockId} (hdown : n.down d = []) :
    messages (n.signals d) = n.server.written.filterMap (told d) := by
  rw [← messages_heard, h.heard_eq hdown, messages, framesTo, List.map_map, List.filterMap_map, List.filterMap_filter]
  refine List.filterMap_congr fun w _ => ?_
  by_cases hw : w.sock = d <;> simp [told, hw]

/-- What the messages of `c` tell the client of `d`, whose name is `w`. -/
theorem filterMap_told {o : DialogServer.PeerObjects} {c d : SockId} {v w : CString} (hv : Utf8.Valid v)
    {fs : List (CString × List CString)} (hto : ∀ f ∈ fs, o.find (Utf8.lossy f.1) = some d ↔ f.1 = w)
    (htext : ∀ f ∈ fs, ∀ x ∈ f.2, Utf8.Valid x) :
    (DialogServer.relayed o c (Utf8.lossy v) fs).filterMap (told d) =
      (fs.filter fun f => f.1 = w).map fun f => (v, f.2) := by
  induction fs with
  | nil => rfl
  | cons f fs ih =>
    have hrest := ih (fun g hg => hto g (List.mem_cons_of_mem _ hg)) fun g hg => htext g (List.mem_cons_of_mem _ hg)
    have hwords : (f.2.map Utf8.lossy).map Utf8.encode = f.2 := by
      rw [List.map_map]
      exact (List.map_congr_left fun x hx => Utf8.scrub_eq_self_iff.mpr (htext f List.mem_cons_self x hx)).trans
        (List.map_id f.2)
    have hname : Utf8.encode (Utf8.lossy v) = v := Utf8.scrub_eq_self_iff.mpr hv
    rw [DialogServer.relayed] at hrest ⊢
    rw [List.flatMap_cons, List.filterMap_append, hrest, DialogServer.messageWrites]
    by_cases hf : f.1 = w
    · rw [(hto f List.mem_cons_self).mpr hf, List.filter_cons_of_pos (by simpa using hf)]
      simp [told, DialogServer.Frame.signal, Signal.message?, hwords, hname]
    · rw [List.filter_cons_of_neg (by simpa using hf)]
      rcases hfind : o.find (Utf8.lossy f.1) with _ | e
      · rfl
      · have he : e ≠ d := by
          rintro rfl
          exact hf ((hto f List.mem_cons_self).mp hfind)
        simp [told, he]

/-- What is told of a message bears the name of the client that has sent it. -/
theorem Talking.sender {name : SockId → CString} {cs : List SockId} {o : DialogServer.PeerObjects}
    {said : SockId → List (CString × List CString)} {n : Network} (h : Talking name cs o said n) (hnames : Names name cs)
    (hout : ∀ c ∈ cs, (n.clients c).outgoing = []) {d : SockId} {w : DialogServer.Write} (hw : w ∈ n.server.written)
    {f : CString × List CString} (htold : told d w = some f) :
    w.cause ∈ cs ∧ f.1 = name w.cause ∧ w.frame.isNotice = false := by
  have hframe : w.frame.isNotice = false := by
    unfold told at htold
    split at htold
    · rcases hf : w.frame with _ | _ | _ | _ <;> simp [hf, DialogServer.Frame.signal, Signal.message?] at htold ⊢
      rfl
    · cases htold
  have hcause := h.cause w hw hframe
  have hmem : w ∈ n.server.written.filter (DialogServer.Write.isMessageOf w.cause) :=
    List.mem_filter.mpr ⟨hw, by simp [DialogServer.Write.isMessageOf, hframe]⟩
  rw [h.relayed_all hcause (hout _ hcause)] at hmem
  obtain ⟨-, words, hmessage⟩ := DialogServer.mem_relayed hmem
  refine ⟨hcause, ?_, hframe⟩
  unfold told at htold
  split at htold
  · rw [hmessage] at htold
    obtain rfl := Option.some.inj htold
    exact Utf8.scrub_eq_self_iff.mpr (hnames.valid _ hcause)
  · cases htold

/-- The relay round trip. Clients log in under distinct names that are texts without delimiters and that no object has
    by itself. When all of them are registered they send messages, whose words are texts without delimiters. When
    everything has been delivered, each client has been told, once and in order, of the messages that each client has
    sent to it, with the name of the sender and the words as they were, and of no others. -/
theorem relay_round_trip {name : SockId → CString} {es₁ es₂ : List Event} {m n : Network}
    (hnames : Names name (clientsOf es₁)) (hquiet : ∀ c, sends es₁ c = []) (hlogins : run (init name) es₁ = some m)
    (hall : ∀ c ∈ clientsOf es₁, m.server.peerObjects.find (Utf8.lossy (name c)) = some c)
    (htalk : ∀ e ∈ es₂, e.Talks (clientsOf es₁)) (hrun : run m es₂ = some n) (hdelivered : Delivered (clientsOf es₁) n) :
    ∀ d ∈ clientsOf es₁,
      (∀ c ∈ clientsOf es₁, (messages (n.signals d)).filter (fun f => f.1 = name c) =
        ((sends es₂ c).filter fun f => f.1 = name d).map fun f => (name c, f.2)) ∧
      ∀ f ∈ messages (n.signals d), ∃ c ∈ clientsOf es₁, f.1 = name c := by
  have hjoined := joining_of_run hnames hquiet hlogins
  have htalking : Talking name (clientsOf es₁) m.server.peerObjects (sends es₂) n := by
    have := Machine.run_keeps_past (J := fun past => Talking name (clientsOf es₁) m.server.peerObjects (sends past))
      (fun past s t e he h hstep => h.step (htalk e he) hstep) [] (hjoined.talking hall) hrun
    simpa using this
  have hdelivering : Delivering n :=
    Machine.run_keeps (fun _ _ _ _ h he => h.step he) (delivering_of_run hlogins) hrun
  have htext : ∀ c, ∀ f ∈ sends es₂ c, Utf8.Valid f.1 ∧ ∀ x ∈ f.2, Utf8.Valid x := by
    intro c f hf
    obtain ⟨e, he, hsend⟩ := List.mem_filterMap.mp hf
    cases e with
    | send c' to_ msg =>
      obtain ⟨-, hf⟩ := Option.ite_none_right_eq_some.mp hsend
      obtain rfl := Option.some.inj hf
      exact (htalk _ he).2.2
    | _ => cases hsend
  intro d hd
  have hmessages := hdelivering.messages_eq (hdelivered.down d hd)
  refine ⟨fun c hc => ?_, fun f hf => ?_⟩
  · -- what is told under the name of `c` is what the messages of `c` tell
    have hcongr : ∀ w ∈ n.server.written, (told d w).filter (fun f => f.1 = name c) =
        if DialogServer.Write.isMessageOf c w then told d w else none := by
      intro w hw
      rcases htold : told d w with _ | f
      · simp
      · obtain ⟨hcause, hname, hframe⟩ := htalking.sender hnames hdelivered.up hw htold
        by_cases hwc : w.cause = c
        · subst hwc
          simp [hname, DialogServer.Write.isMessageOf, hframe]
        · have hne : name w.cause ≠ name c := fun heq => hwc (hnames.distinct _ hcause c hc heq)
          simp [hname, DialogServer.Write.isMessageOf, hwc, hne]
    rw [hmessages, List.filter_filterMap, List.filterMap_congr hcongr, ← List.filterMap_filter,
      htalking.relayed_all hc (hdelivered.up c hc)]
    refine filterMap_told (hnames.valid c hc) (fun f hf => ?_) fun f hf => (htext c f hf).2
    constructor
    · intro hfind
      obtain ⟨-, hname, -⟩ := hjoined.owner _ d hfind
      exact lossy_injective (htext c f hf).1 (hnames.valid d hd) hname
    · intro heq
      rw [heq]
      exact hall d hd
  · rw [hmessages] at hf
    obtain ⟨w, hw, htold⟩ := List.mem_filterMap.mp hf
    obtain ⟨hcause, hname, -⟩ := htalking.sender hnames hdelivered.up hw htold
    exact ⟨w.cause, hcause, hname⟩

/-- The state after a list of events that can all happen. -/
def after (name : SockId → CString) (es : List Event) : Network := (run (init name) es).getD (init name)

theorem run_after {name : SockId → CString} {es : List Event} (h : (run (init name) es).isSome) :
    run (init name) es = some (after name es) := by
  obtain ⟨n, hn⟩ := Option.isSome_iff_exists.mp h
  simp [after, hn]

theorem run_after_append {name : SockId → CString} {es₁ es₂ : List Event} (h : (run (init name) (es₁ ++ es₂)).isSome) :
    run (init name) es₁ = some (after name es₁) ∧ run (after name es₁) es₂ = some (after name (es₁ ++ es₂)) := by
  have hrun := run_after h
  rw [run, Machine.run_append] at hrun
  obtain ⟨m, hm, hrun⟩ := Option.bind_eq_some_iff.mp hrun
  have hafter := run_after (Option.isSome_iff_exists.mpr ⟨m, hm⟩)
  obtain rfl := Option.some.inj (hm.symm.trans hafter)
  exact ⟨hafter, hrun⟩

/-- Two clients and their names. -/
def pairNames : SockId → CString := fun c => if c = 1 then cstr "a" else cstr "b"

/-- The clients log in. -/
def pairLogins : List Event :=
  [.start 1, .start 2, .accept 1 "10.0.0.1".toList 4001, .connected 1, .connected 2, .accept 2 "10.0.0.2".toList 4002,
    .upload 1 (cstr "<login:a>"), .upload 2 (cstr "<log"), .upload 2 (cstr "in:b>")]

/-- Each of them sends a message to the other one. -/
def pairTalk : List Event :=
  [.send 1 (cstr "b") [cstr "hi", []], .send 2 (cstr "a") [], .upload 1 (cstr "<send:b:h"), .download 2 (cstr "<online:a>"),
    .upload 2 (cstr "<send:a>"), .upload 1 (cstr "i:>"), .download 1 (cstr "<login:b><mess"), .download 1 (cstr "age:b>"),
    .download 2 (cstr "<message:a:hi:>")]

theorem Event.talks_send {cs : List SockId} {c : SockId} (hc : c ∈ cs) {to_ : CString} {msg : List CString}
    (h : ∀ w ∈ to_ :: msg, PlainText w) : (Event.send c to_ msg).Talks cs :=
  ⟨hc, ⟨(h _ List.mem_cons_self).clean, fun w hw => (h w (List.mem_cons_of_mem _ hw)).clean⟩, (h _ List.mem_cons_self).valid,
    fun w hw => (h w (List.mem_cons_of_mem _ hw)).valid⟩

theorem names_pair : Names pairNames [1, 2] where
  clean c hc := by
    rcases List.mem_pair.mp hc with rfl | rfl <;> exact PlainText.clean (by decide)
  valid c hc := by
    rcases List.mem_pair.mp hc with rfl | rfl <;> exact PlainText.valid (by decide)
  allowed := by decide
  distinct := by decide

theorem talks_pair : ∀ e ∈ pairTalk, e.Talks [1, 2] := by
  have hfirst : (Event.send 1 (cstr "b") [cstr "hi", []]).Talks [1, 2] := Event.talks_send (by decide) (by decide)
  have hsecond : (Event.send 2 (cstr "a") []).Talks [1, 2] := Event.talks_send (by decide) (by decide)
  simp only [pairTalk, List.forall_mem_cons]
  exact ⟨hfirst, hsecond, trivial, trivial, trivial, trivial, trivial, trivial, trivial, by simp⟩

theorem relay_round_trip_pair :
    (messages ((after pairNames (pairLogins ++ pairTalk)).signals 2)).filter (fun f => f.1 = pairNames 1) =
        ((sends pairTalk 1).filter fun f => f.1 = pairNames 2).map (fun f => (pairNames 1, f.2)) ∧
      (messages ((after pairNames (pairLogins ++ pairTalk)).signals 1)).filter (fun f => f.1 = pairNames 2) =
        ((sends pairTalk 2).filter fun f => f.1 = pairNames 1).map fun f => (pairNames 2, f.2) := by
  have hruns := @run_after_append pairNames pairLogins pairTalk (by decide +kernel)
  have hall := relay_round_trip names_pair (fun _ => rfl) hruns.1 (by decide +kernel) talks_pair hruns.2
    ⟨by decide +kernel, by decide +kernel⟩
  have hfirst : 1 ∈ clientsOf pairLogins := by decide
  have hsecond : 2 ∈ clientsOf pairLogins := by decide
  exact ⟨(hall 2 hsecond).1 1 hfirst, (hall 1 hfirst).1 2 hsecond⟩

/-- The id of the first client is no text. -/
def oddNames : SockId → CString := fun c => if c = 1 then [0xFF] else cstr "b"

def oddLogins : List Event :=
  [.start 1, .start 2, .accept 1 "10.0.0.1".toList 4001, .accept 2 "10.0.0.2".toList 4002, .connected 1, .connected 2,
    .upload 2 (cstr "<login:b>"), .upload 1 (cstr "<login:" ++ [0xFF, 0x3E]), .download 1 (cstr "<online:b>")]

def oddTalk : List Event :=
  [.send 1 (cstr "b") [cstr "hi"], .upload 1 (cstr "<send:b:hi>"),
    .download 2 (cstr "<login:" ++ [0xEF, 0xBF, 0xBD, 0x3E] ++ cstr "<message:" ++ [0xEF, 0xBF, 0xBD] ++ cstr ":hi>")]

/-- The names are distinct and hold no delimiter, both clients are registered, and everything has been delivered. The
    first client has sent one message to `b`, and `b` has been told of none under the id of the first client. -/
theorem relay_renames :
    (∀ c ∈ [1, 2], colon ∉ oddNames c ∧ greater ∉ oddNames c ∧ Utf8.lossy (oddNames c) ∉ DialogServer.builtinNames) ∧
      oddNames 1 ≠ oddNames 2 ∧ clientsOf oddLogins = [1, 2] ∧
      run (init oddNames) oddLogins = some (after oddNames oddLogins) ∧
      (∀ c ∈ [1, 2], (after oddNames oddLogins).server.peerObjects.find (Utf8.lossy (oddNames c)) = some c) ∧
      run (after oddNames oddLogins) oddTalk = some (after oddNames (oddLogins ++ oddTalk)) ∧
      Delivered [1, 2] (after oddNames (oddLogins ++ oddTalk)) ∧
      sends oddTalk 1 = [(cstr "b", [cstr "hi"])] ∧
      messages ((after oddNames (oddLogins ++ oddTalk)).signals 2) = [([0xEF, 0xBF, 0xBD], [cstr "hi"])] ∧
      (messages ((after oddNames (oddLogins ++ oddTalk)).signals 2)).filter (fun f => f.1 = oddNames 1) ≠
        ((sends oddTalk 1).filter fun f => f.1 = oddNames 2).map fun f => (oddNames 1, f.2) := by
  have hruns := @run_after_append oddNames oddLogins oddTalk (by decide +kernel)
  exact ⟨by decide, by decide, rfl, hruns.1, by decide +kernel, hruns.2, ⟨by decide +kernel, by decide +kernel⟩, rfl,
    by decide +kernel, by decide +kernel⟩

end Network

end ProbICE
