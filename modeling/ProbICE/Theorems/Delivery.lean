import ProbICE.Handshake
import ProbICE.Theorems.Batches

/-! # Candidates arrive once and in order

Each side is untouched, or it waits for the other one, or it talks. The messages on their way follow from how far the
two sides are. Across every step the candidates that a transport has signalled are the ones that have been handed on by
the other side, then the ones in messages, and then the ones that are kept back. -/

namespace ProbICE

section
variable [Host]

namespace PPSession

/-- A session that has its channels and has heard of nothing. -/
structure Idle (s : PPSession) : Prop where
  state : s.state = .init
  proxies : ∀ (k : CString) p, s.transports[k]? = some p → p.Sound ∧ p.state = .init ∧ p.transport.handed = [] ∧
    p.unsent_candidates = [] ∧ p.transport.connect_requested = false
  untroubled : ∀ msg, .errorMessage msg ∉ s.out

theorem Idle.sound {s : PPSession} (h : s.Idle) : s.Sound := fun k p hp => (h.proxies k p hp).1

theorem Idle.handed {s : PPSession} (h : s.Idle) (k : CString) : s.handed k = [] := by
  rcases hp : s.transports[k]? with _ | p
  · rw [PPSession.handed, hp]
    rfl
  · rw [PPSession.handed, hp]
    exact (h.proxies k p hp).2.2.1

theorem Idle.unsent {s : PPSession} (h : s.Idle) (k : CString) : s.unsent k = [] := by
  rcases hp : s.transports[k]? with _ | p
  · rw [PPSession.unsent, hp]
    rfl
  · rw [PPSession.unsent, hp]
    exact (h.proxies k p hp).2.2.2.1

theorem errorMessage_mem_out {s : PPSession} {msg : PPMessage} : .errorMessage msg ∈ s.out ↔ .errorMessage msg ∈ s.signals := by
  simp [signals, SessionEffect.isSignal]

/-- Before the negotiation a channel is only noted. -/
theorem Idle.CreateChannel {s : PPSession} (h : s.Idle) (content_name channel_name : CString) :
    (s.CreateChannel content_name channel_name).Idle := by
  have hcreated : (s.GetOrCreateTransportProxy content_name).Idle := by
    refine ⟨(s.sameBut_GetOrCreateTransportProxy content_name).state.trans h.state, fun k p hp => ?_, ?_⟩
    · have hsound := (h.sound.turns_created content_name).sound k p hp
      rw [transports_GetOrCreateTransportProxy, proxyOrNew] at hp
      split at hp
      · rcases hq : s.transports[content_name]? with _ | q
        · rw [hq] at hp
          obtain rfl := Option.some.inj hp
          exact ⟨hsound, rfl, rfl, rfl, rfl⟩
        · rw [hq] at hp
          obtain rfl := Option.some.inj hp
          exact h.proxies content_name q hq
      · exact h.proxies k p hp
    · rw [out_GetOrCreateTransportProxy]
      exact h.untroubled
  refine ⟨?_, fun k p hp => ?_, fun msg hmem => ?_⟩
  · unfold PPSession.CreateChannel onProxy
    split <;> exact hcreated.state
  · rw [PPSession.CreateChannel, transports_onProxy] at hp
    split at hp
    · obtain ⟨q, hq, rfl⟩ := Option.map_eq_some_iff.mp hp
      obtain ⟨hsound, hstate, hrest⟩ := hcreated.proxies content_name q hq
      have hcreate : (q.CreateChannel channel_name).1 = { q with channels := q.channels.insert channel_name { impl := false } } := by
        simp [TransportProxy.CreateChannel, Emit.andThen, hstate]
      rw [hcreate]
      refine ⟨⟨fun hwaiting name => ?_, fun hnegotiated => ?_, hsound.alive⟩, hstate, hrest⟩
      · have hbefore := hsound.waiting hwaiting name
        rw [TransportProxy.GetChannel] at hbefore ⊢
        rw [Std.ExtTreeMap.getElem?_insert]
        split
        · rfl
        · exact hbefore
      · rw [hstate] at hnegotiated
        cases hnegotiated
    · exact hcreated.proxies k p hp
  · refine hcreated.untroubled msg ?_
    rcases hp : (s.GetOrCreateTransportProxy content_name).transports[content_name]? with _ | p
    · rwa [PPSession.CreateChannel, onProxy_of_none _ _ hp] at hmem
    · rw [PPSession.CreateChannel, onProxy_of_some _ _ hp] at hmem
      refine (List.mem_append.mp hmem).resolve_right fun hmem => ?_
      obtain ⟨e, -, he⟩ := List.mem_map.mp hmem
      cases e <;> cases he

theorem idle_create (allow_local_ips : Bool) (channels : List (CString × CString)) : (create allow_local_ips channels).Idle := by
  have hfold : ∀ s : PPSession, s.Idle →
      (channels.foldl (fun s channel => s.CreateChannel channel.1 channel.2) s).Idle := by
    induction channels with
    | nil => exact fun _ h => h
    | cons channel channels ih => exact fun s h => ih _ (h.CreateChannel channel.1 channel.2)
  refine hfold _ ⟨rfl, fun k p hp => ?_, by simp [new, set_allow_local_ips]⟩
  simp [new, set_allow_local_ips] at hp

end PPSession

namespace Side

/-- The state of a side that waits for the accept. -/
def asking : Side → SessionState
  | initiator => .sentInitiate
  | responder => .receivedInitiate

/-- The state of a side behind the accept. -/
def answered : Side → SessionState
  | initiator => .receivedAccept
  | responder => .sentAccept

end Side

namespace Handshake
open PPSession

/-! ### What has become of the candidates -/

/-- The books of a side `a` that began as `s₀ a`: its session has kept its channels, and the candidates that it has
    signalled are either handed on by the other side, or in messages on their way, or unsent. -/
structure Books (s₀ : Side → PPSession) (h : Handshake) (a : Side) : Prop where
  keeps : (s₀ a).Keeps (h.session a)
  sound : (h.session a).Sound
  untroubled : ∀ msg, .errorMessage msg ∉ (h.session a).out
  account : ∀ k, ∃ landed flying, h.signalled a k = landed ++ flying ++ (h.session a).unsent k ∧
    (h.session a.other).handed k = landed.map Candidate.reread ∧ inFlight (h.flight a) k = flying.map Candidate.reread
  signalled : ∀ k, ∀ cand ∈ h.signalled a k, (s₀ a.other).Takes k cand
  loads : ∀ msg ∈ h.flight a, msg.type = .transportInfo →
    ∃ k cs, msg = transportInfo k cs ∧ cs ≠ [] ∧ ∀ cand ∈ cs, (s₀ a.other).Takes k cand

section books
variable {s₀ : Side → PPSession} {h h' : Handshake} {a : Side}

theorem books_init (hidle : ∀ a, (s₀ a).Idle) (a : Side) : Books s₀ (init s₀) a where
  keeps k p hp := ⟨p, hp, .refl p⟩
  sound := (hidle a).sound
  untroubled := (hidle a).untroubled
  account k := ⟨[], [], ((hidle a).unsent k).symm, (hidle a.other).handed k, rfl⟩
  signalled k cand hcand := by cases hcand
  loads msg hmsg := by cases hmsg

/-- A function of the session of `a` has returned. It has been called with the messages `popped` of the other side, and
    the candidates `added` have been signalled to it. -/
theorem Books.act (hbooks : ∀ b, Books s₀ h b) {t : PPSession} {ms popped : List PPMessage}
    {added : CString → List Candidate} (hmoves : (h.session a).Moves t ms (inFlight popped) added)
    (hsession : h'.session = Function.update h.session a t) (hflight : h'.flight a = h.flight a ++ ms)
    (hpopped : h.flight a.other = popped ++ h'.flight a.other)
    (hsignalled : ∀ k, h'.signalled a k = h.signalled a k ++ added k)
    (hother : h'.signalled a.other = h.signalled a.other)
    (htakes : ∀ k, ∀ cand ∈ added k, (s₀ a.other).Takes k cand) (b : Side) : Books s₀ h' b := by
  obtain ⟨gone, hturns, hgone⟩ := hmoves.turns
  have hne : a.other ≠ a := by cases a <;> decide
  have hself : h'.session a = t := by rw [hsession, Function.update_self]
  have hpeer : h'.session a.other = h.session a.other := by rw [hsession, Function.update_of_ne hne]
  have hunsent : ∀ k, ∀ cand ∈ (h.session a).unsent k, cand ∈ h.signalled a k := by
    intro k cand hcand
    obtain ⟨landed, flying, hall, -⟩ := (hbooks a).account k
    rw [hall]
    exact List.mem_append_right _ hcand
  rcases a.eq_or_other b with rfl | rfl
  · refine ⟨?_, hself ▸ hturns.sound, ?_, fun k => ?_, fun k cand hcand => ?_, fun msg hmsg htype => ?_⟩
    · rw [hself]
      intro k p hp
      obtain ⟨p', hp', hsame⟩ := (hbooks b).keeps k p hp
      obtain ⟨p'', hp'', hsame'⟩ := hturns.keeps k p' hp'
      exact ⟨p'', hp'', hsame.trans hsame'⟩
    · obtain ⟨es, hes, -, hno⟩ := hmoves.signals
      intro msg hmem
      rw [hself, errorMessage_mem_out, hes] at hmem
      refine (List.mem_append.mp hmem).elim (fun hmem => ?_) (hno msg)
      exact (hbooks b).untroubled msg (errorMessage_mem_out.mpr hmem)
    · obtain ⟨landed, flying, hall, hlanded, hflying⟩ := (hbooks b).account k
      refine ⟨landed, flying ++ gone k, ?_, ?_, ?_⟩
      · rw [hself, hsignalled, hall, List.append_assoc, hturns.unsent]
        simp only [List.append_assoc]
      · rw [hpeer, hlanded]
      · rw [hflight, inFlight_append, hflying, hgone, List.map_append]
    · rw [hsignalled] at hcand
      exact (List.mem_append.mp hcand).elim ((hbooks b).signalled k cand) (htakes k cand)
    · rw [hflight] at hmsg
      rcases List.mem_append.mp hmsg with hmsg | hmsg
      · exact (hbooks b).loads msg hmsg htype
      · obtain ⟨k, cs, rfl, hcs, hall⟩ := hmoves.loads msg hmsg htype
        refine ⟨k, cs, rfl, hcs, fun cand hcand => ?_⟩
        exact (List.mem_append.mp (hall cand hcand)).elim
          (fun hcand => (hbooks b).signalled k cand (hunsent k cand hcand)) (htakes k cand)
  · have hback := hbooks a.other
    refine ⟨by rw [hpeer]; exact hback.keeps, hpeer ▸ hback.sound, by rw [hpeer]; exact hback.untroubled, fun k => ?_, ?_, ?_⟩
    · obtain ⟨landed, flying, hall, hlanded, hflying⟩ := hback.account k
      rw [hpopped, inFlight_append] at hflying
      obtain ⟨flown, flying, rfl, hflown, hflying⟩ := List.map_eq_append_iff.mp hflying.symm
      refine ⟨landed ++ flown, flying, ?_, ?_, hflying.symm⟩
      · rw [hother, hpeer, hall]
        simp only [List.append_assoc]
      · rw [Side.other_other] at hlanded ⊢
        rw [hself, hturns.handed, hlanded, ← hflown, List.map_append]
    · rw [hother]
      exact hback.signalled
    · intro msg hmsg
      exact hback.loads msg (hpopped ▸ List.mem_append_right _ hmsg)

end books

/-! ### How far the two sides are -/

inductive Mode where
  | untouched
  /-- The side waits for the accept of a content. -/
  | waiting (content : CString)
  | talking

/-- The session of a side that began as `s₀`. -/
def Mode.Holds (a : Side) (s₀ s : PPSession) : Mode → Prop
  | untouched => s = s₀
  | waiting content => s.state = a.asking ∧ s.content_name = content ∧ s.pending_candidates = true ∧
      (s.transports[content]?).isSome = true
  | talking => (s.state = a.answered ∨ s.state = .inProgress) ∧ s.pending_candidates = false ∧ ∀ k, s.unsent k = []

/-- The messages of the two sides that are on their way. -/
inductive OnTheWay : Mode → Mode → List PPMessage → List PPMessage → Prop
  | fresh : OnTheWay .untouched .untouched [] []
  | invited (content : CString) :
      OnTheWay (.waiting content) .untouched [initiation content] []
  | asked (content : CString) : OnTheWay (.waiting content) (.waiting content) [] []
  | answered (content : CString) {ms : List PPMessage} (hms : ∀ msg ∈ ms, msg.type = .transportInfo) :
      OnTheWay (.waiting content) .talking [] (acceptance content :: ms)
  | talking {ms ms' : List PPMessage} (hms : ∀ msg ∈ ms, msg.type = .transportInfo)
      (hms' : ∀ msg ∈ ms', msg.type = .transportInfo) : OnTheWay .talking .talking ms ms'

/-- The books of both sides are right, and what is on its way fits to how far they are. -/
structure Inv (s₀ : Side → PPSession) (h : Handshake) : Prop where
  books : ∀ a, Books s₀ h a
  stage : ∃ mode : Side → Mode, (∀ a, (mode a).Holds a (s₀ a) (h.session a)) ∧
    OnTheWay (mode .initiator) (mode .responder) (h.flight .initiator) (h.flight .responder)

omit [Host] in
/-- A talking side may send transport messages. -/
theorem OnTheWay.send {mode : Side → Mode} {flight flight' : Side → List PPMessage}
    (h : OnTheWay (mode .initiator) (mode .responder) (flight .initiator) (flight .responder)) {a : Side}
    (ha : mode a = .talking) {ms : List PPMessage} (hms : ∀ msg ∈ ms, msg.type = .transportInfo)
    (hflight : flight' a = flight a ++ ms) (hother : flight' a.other = flight a.other) :
    OnTheWay (mode .initiator) (mode .responder) (flight' .initiator) (flight' .responder) := by
  have hall : ∀ {ms' : List PPMessage}, (∀ msg ∈ ms', msg.type = .transportInfo) → ∀ msg ∈ ms' ++ ms, msg.type = .transportInfo :=
    fun hms' msg hmsg => (List.mem_append.mp hmsg).elim (hms' msg) (hms msg)
  cases a with
  | initiator =>
    rw [show flight' .responder = flight .responder from hother, hflight]
    rw [ha] at h ⊢
    generalize mode .responder = m, flight .initiator = f, flight .responder = f' at h ⊢
    cases h with
    | talking h₁ h₂ => exact .talking (hall h₁) h₂
  | responder =>
    rw [show flight' .initiator = flight .initiator from hother, hflight]
    rw [ha] at h ⊢
    generalize mode .initiator = m, flight .initiator = f, flight .responder = f' at h ⊢
    cases h with
    | answered content h₁ => exact .answered content (hall h₁)
    | talking h₁ h₂ => exact .talking h₁ (hall h₂)

section step
variable {s₀ : Side → PPSession} {h h' : Handshake} {a : Side} {mode : Side → Mode}

theorem act_flight (h : Handshake) {t : PPSession} {ms : List PPMessage} {taken added : CString → List Candidate}
    (hmoves : (h.session a).Moves t ms taken added) : (h.act a t).flight = Function.update h.flight a (h.flight a ++ ms) := by
  rw [act, hmoves.messages, List.drop_left]

/-- A call that leaves the session as it is changes nothing. -/
theorem act_self (h : Handshake) (a : Side) : h.act a (h.session a) = h := by
  rw [act, List.drop_length, List.append_nil, Function.update_eq_self, Function.update_eq_self]

/-- A function of the session of `a` has returned, and what it has emitted is on its way. -/
theorem Inv.act (hbooks : ∀ b, Books s₀ h b) (hholds : ∀ b, (mode b).Holds b (s₀ b) (h.session b))
    {popped rest : List PPMessage} (hpopped : h.flight a.other = popped ++ rest) {signalled : Side → CString → List Candidate}
    {added : CString → List Candidate} (hsignalled : ∀ k, signalled a k = h.signalled a k ++ added k)
    (hother : signalled a.other = h.signalled a.other) (htakes : ∀ k, ∀ cand ∈ added k, (s₀ a.other).Takes k cand)
    {t : PPSession} {ms : List PPMessage} (hmoves : (h.session a).Moves t ms (inFlight popped) added) {m : Mode}
    (hm : m.Holds a (s₀ a) t)
    (hway : OnTheWay (Function.update mode a m .initiator) (Function.update mode a m .responder)
      (Function.update (Function.update h.flight a.other rest) a (h.flight a ++ ms) .initiator)
      (Function.update (Function.update h.flight a.other rest) a (h.flight a ++ ms) .responder)) :
    Inv s₀ ({ h with flight := Function.update h.flight a.other rest, signalled }.act a t) := by
  have hne : a.other ≠ a := by cases a <;> decide
  have hflight : ({ h with flight := Function.update h.flight a.other rest, signalled }.act a t).flight =
      Function.update (Function.update h.flight a.other rest) a (h.flight a ++ ms) := by
    refine (act_flight { h with flight := Function.update h.flight a.other rest, signalled } hmoves).trans ?_
    show Function.update (Function.update h.flight a.other rest) a (Function.update h.flight a.other rest a ++ ms) = _
    rw [Function.update_of_ne hne.symm]
  refine ⟨Books.act hbooks hmoves rfl ?_ ?_ hsignalled hother htakes, Function.update mode a m, fun b => ?_, hflight ▸ hway⟩
  · rw [hflight, Function.update_self]
  · rw [hflight, Function.update_of_ne hne, Function.update_self, hpopped]
  · show (Function.update mode a m b).Holds b (s₀ b) (Function.update h.session a t b)
    rcases a.eq_or_other b with rfl | rfl
    · rwa [Function.update_self, Function.update_self]
    · rw [Function.update_of_ne hne, Function.update_of_ne hne]
      exact hholds _

/-- A call without a message and without candidates. -/
theorem Inv.call (hbooks : ∀ b, Books s₀ h b) (hholds : ∀ b, (mode b).Holds b (s₀ b) (h.session b)) {t : PPSession}
    {ms : List PPMessage} (hmoves : (h.session a).Moves t ms (fun _ => []) fun _ => []) {m : Mode}
    (hm : m.Holds a (s₀ a) t)
    (hway : OnTheWay (Function.update mode a m .initiator) (Function.update mode a m .responder)
      (Function.update h.flight a (h.flight a ++ ms) .initiator) (Function.update h.flight a (h.flight a ++ ms) .responder)) :
    Inv s₀ (h.act a t) := by
  have hact := @Inv.act _ s₀ h a mode hbooks hholds [] _ rfl h.signalled (fun _ => []) (fun k => (List.append_nil _).symm) rfl
    (by simp) t ms hmoves m hm
  rw [Function.update_eq_self] at hact
  exact hact hway

/-- A call with the oldest message of the other side. -/
theorem Inv.receive (hbooks : ∀ b, Books s₀ h b) (hholds : ∀ b, (mode b).Holds b (s₀ b) (h.session b)) {msg : PPMessage}
    {rest : List PPMessage} (hflight : h.flight a.other = msg :: rest) {t : PPSession} {ms : List PPMessage}
    (hmoves : (h.session a).Moves t ms (inFlight [msg]) fun _ => []) {m : Mode} (hm : m.Holds a (s₀ a) t)
    (hway : OnTheWay (Function.update mode a m .initiator) (Function.update mode a m .responder)
      (Function.update (Function.update h.flight a.other rest) a (h.flight a ++ ms) .initiator)
      (Function.update (Function.update h.flight a.other rest) a (h.flight a ++ ms) .responder)) :
    Inv s₀ ({ h with flight := Function.update h.flight a.other rest }.act a t) :=
  @Inv.act _ s₀ h a mode hbooks hholds [msg] rest hflight h.signalled (fun _ => []) (fun k => (List.append_nil _).symm) rfl
    (by simp) t ms hmoves m hm hway

theorem inv_initiate (hidle : ∀ b, (s₀ b).Idle) (hinv : Inv s₀ h) (content : CString) :
    Inv s₀ (h.act .initiator ((h.session .initiator).Initiate id content).1) := by
  obtain ⟨hbooks, mode, hholds, hway⟩ := hinv
  have hi := hholds .initiator
  by_cases hstate : (h.session .initiator).state = .init
  · generalize hmi : mode .initiator = mi, hmr : mode .responder = mr, hfi : h.flight .initiator = fi,
      hfr : h.flight .responder = fr at hway hi
    have hwaiting : (Mode.waiting content).Holds .initiator (s₀ .initiator) ((h.session .initiator).Initiate id content).1 := by
      obtain ⟨hstate', hname, hpending, -, -, htransports⟩ := (h.session .initiator).Initiate_init hstate content
      refine ⟨hstate', hname, hpending, ?_⟩
      rw [htransports, if_pos rfl]
      rfl
    cases hway with
    | fresh =>
      have hproxies : ∀ (k : CString) p, (h.session .initiator).transports[k]? = some p → p.state = .init := by
        rw [show h.session .initiator = s₀ .initiator from hi]
        exact fun k p hp => ((hidle .initiator).proxies k p hp).2.1
      refine Inv.call hbooks hholds (moves_Initiate (hbooks .initiator).sound hstate hproxies content) hwaiting ?_
      simp only [Function.update, hfi, hmr, hfr, dif_pos, reduceCtorEq, dif_neg, not_false_eq_true, List.nil_append]
      exact .invited content
    | invited | asked | answered =>
      have hasking := hi.1
      rw [hstate] at hasking
      cases hasking
    | talking =>
      have hanswered := hi.1
      rw [hstate] at hanswered
      rcases hanswered with hanswered | hanswered <;> cases hanswered
  · rw [(h.session .initiator).Initiate_refused hstate, act_self]
    exact ⟨hbooks, mode, hholds, hway⟩

theorem inv_accept (hidle : ∀ b, (s₀ b).Idle) (hinv : Inv s₀ h) :
    Inv s₀ (h.act .responder ((h.session .responder).Accept id).1) := by
  obtain ⟨hbooks, mode, hholds, hway⟩ := hinv
  have hr := hholds .responder
  by_cases hstate : (h.session .responder).state = .receivedInitiate
  · generalize hmi : mode .initiator = mi, hmr : mode .responder = mr, hfi : h.flight .initiator = fi,
      hfr : h.flight .responder = fr at hway hr
    cases hway with
    | fresh | invited =>
      rw [show h.session .responder = s₀ .responder from hr, (hidle .responder).state] at hstate
      cases hstate
    | asked content =>
      have htalking : Mode.talking.Holds .responder (s₀ .responder) ((h.session .responder).Accept id).1 := by
        obtain ⟨hstate', -, hpending, -, -, htransports⟩ := (h.session .responder).Accept_receivedInitiate hstate
        refine ⟨.inl hstate', hpending, fun k => ?_⟩
        rw [unsent, htransports, Option.map_map]
        cases (h.session .responder).transports[k]? <;> rfl
      refine Inv.call hbooks hholds (moves_Accept (hbooks .responder).sound hstate) htalking ?_
      simp only [Function.update, hfi, hmi, hfr, dif_pos, reduceCtorEq, dif_neg, not_false_eq_true, List.nil_append]
      rw [hr.2.1]
      exact .answered content fun _ => type_of_mem_unsentMessages
    | answered | talking =>
      have hanswered := hr.1
      rw [hstate] at hanswered
      rcases hanswered with hanswered | hanswered <;> cases hanswered
  · rw [(h.session .responder).Accept_refused hstate, act_self]
    exact ⟨hbooks, mode, hholds, hway⟩

omit [Host] in
/-- A side that stays as far as it is, and emits nothing. -/
theorem OnTheWay.stay {flight : Side → List PPMessage}
    (h : OnTheWay (mode .initiator) (mode .responder) (flight .initiator) (flight .responder)) (a : Side) :
    OnTheWay (Function.update mode a (mode a) .initiator) (Function.update mode a (mode a) .responder)
      (Function.update flight a (flight a ++ []) .initiator) (Function.update flight a (flight a ++ []) .responder) := by
  rwa [List.append_nil, Function.update_eq_self, Function.update_eq_self]

theorem inv_state (hidle : ∀ b, (s₀ b).Idle) (hinv : Inv s₀ h) (a : Side) :
    Inv s₀ (h.act a ((h.session a).OnStateMessage id)) := by
  obtain ⟨hbooks, mode, hholds, hway⟩ := hinv
  have ha := hholds a
  refine Inv.call hbooks hholds (moves_OnStateMessage (hbooks a).sound) (m := mode a) ?_ (hway.stay a)
  have hstay : ∀ state, (h.session a).state = state → state ≠ .sentAccept → state ≠ .receivedAccept →
      (h.session a).OnStateMessage id = h.session a := by
    intro state hstate h₁ h₂
    unfold OnStateMessage
    split
    · rename_i hsent
      exact absurd (hstate.symm.trans hsent) h₁
    · rename_i hreceived
      exact absurd (hstate.symm.trans hreceived) h₂
    · rfl
  generalize mode a = m at ha ⊢
  cases m with
  | untouched =>
    have hstart : h.session a = s₀ a := ha
    rw [hstay .init (hstart ▸ (hidle a).state) (by decide) (by decide)]
    exact ha
  | waiting content =>
    rw [hstay a.asking ha.1 (by cases a <;> decide) (by cases a <;> decide)]
    exact ha
  | talking =>
    obtain ⟨hstate, hpending, hunsent⟩ := ha
    obtain ⟨hframe, htransports, -, hpending', -⟩ := (h.session a).SetState_frame .inProgress
    have hdone : Mode.talking.Holds a (s₀ a) ((h.session a).SetState id .inProgress) :=
      ⟨.inr hframe, hpending'.trans hpending, fun k => by rw [unsent, htransports]; exact hunsent k⟩
    rcases hstate with hstate | hstate
    · have hset : (h.session a).OnStateMessage id = (h.session a).SetState id .inProgress := by
        unfold OnStateMessage
        cases a <;> rw [hstate] <;> rfl
      rwa [hset]
    · rw [hstay .inProgress hstate (by decide) (by decide)]
      exact ⟨.inr hstate, hpending, hunsent⟩

/-- The candidates of a transport that has been told to connect, for which the other side has the channels. -/
theorem inv_candidatesReady (hidle : ∀ b, (s₀ b).Idle) (hinv : Inv s₀ h) {a : Side} {content : CString} {p : TransportProxy}
    (hp : (h.session a).transports[content]? = some p) (hconnect : p.transport.connect_requested = true)
    {candidates : List Candidate} (hne : candidates ≠ []) (htakes : ∀ cand ∈ candidates, (s₀ a.other).Takes content cand) :
    Inv s₀ ({ h with
      signalled := Function.update h.signalled a
        (Function.update (h.signalled a) content (h.signalled a content ++ candidates)) }.act a
      ((h.session a).OnTransportCandidatesReady content candidates)) := by
  obtain ⟨hbooks, mode, hholds, hway⟩ := hinv
  have hadded : ∀ k, Function.update h.signalled a
      (Function.update (h.signalled a) content (h.signalled a content ++ candidates)) a k =
        h.signalled a k ++ added content candidates k := by
    intro k
    rw [Function.update_self, added]
    split
    · subst k
      rw [Function.update_self]
    · rename_i hk
      rw [Function.update_of_ne hk, List.append_nil]
  have hother : Function.update h.signalled a
      (Function.update (h.signalled a) content (h.signalled a content ++ candidates)) a.other = h.signalled a.other :=
    Function.update_of_ne (by cases a <;> decide) _ _
  have htaken : ∀ k, ∀ cand ∈ added content candidates k, (s₀ a.other).Takes k cand := by
    intro k cand hcand
    rw [added] at hcand
    split at hcand
    · subst k
      exact htakes cand hcand
    · cases hcand
  have hact := @Inv.act _ s₀ h a mode hbooks hholds [] _ rfl _ _ hadded hother htaken
      ((h.session a).OnTransportCandidatesReady content candidates)
  rw [Function.update_eq_self] at hact
  have ha := hholds a
  cases hm : mode a with
  | untouched =>
    rw [hm] at ha
    have hstart : h.session a = s₀ a := ha
    rw [hstart] at hp
    have hidle' := ((hidle a).proxies content p hp).2.2.2.2
    rw [hconnect] at hidle'
    cases hidle'
  | waiting c =>
    rw [hm] at ha
    obtain ⟨hstate, hname, hpending, hc⟩ := ha
    obtain ⟨hmoves, hsame⟩ := moves_of_pending (hbooks a).sound hpending hp candidates
    obtain ⟨gone, hturns, -⟩ := hmoves.turns
    obtain ⟨q, hq⟩ := Option.isSome_iff_exists.mp hc
    obtain ⟨q', hq', -⟩ := hturns.keeps c q hq
    refine @hact [] hmoves (mode a) ?_ (hway.stay a)
    rw [hm]
    exact ⟨hsame.state.trans hstate, hsame.content_name.trans hname, hsame.pending_candidates.trans hpending, by rw [hq']; rfl⟩
  | talking =>
    rw [hm] at ha
    have hmoves := moves_of_not_pending (hbooks a).sound ha.2.1 hp (ha.2.2 content) hne
    refine @hact [transportInfo content candidates] hmoves (mode a) ?_ ?_
    · rw [hm, (h.session a).OnTransportCandidatesReady_of_some hp, ha.2.1]
      exact ha
    · rw [Function.update_eq_self]
      have hsent : ∀ msg ∈ [transportInfo content candidates], msg.type = .transportInfo := by simp [transportInfo]
      refine hway.send hm hsent (Function.update_self _ _ _) ?_
      exact Function.update_of_ne (by cases a <;> decide) _ _

/-- A talking side takes the candidates of a transport message. -/
theorem talking_transportInfo {s : PPSession} (hsound : s.Sound) (htalking : Mode.talking.Holds a (s₀ a) s) {k : CString}
    {cs : List Candidate} (hne : cs ≠ []) (hcs : ∀ cand ∈ cs, s.Takes k cand) :
    s.Moves (s.OnIncomingMessage id (transportInfo k cs)) [] (inFlight [transportInfo k cs]) (fun _ => []) ∧
      Mode.talking.Holds a (s₀ a) (s.OnIncomingMessage id (transportInfo k cs)) := by
  obtain ⟨hvalid, hsame, hmoves⟩ := moves_OnTransportInfoMessage hsound hne hcs
  have hhandled : s.OnIncomingMessage id (transportInfo k cs) = (s.OnTransportInfoMessage (transportInfo k cs)).1 := by
    rw [s.OnIncomingMessage_eq]
    exact if_pos hvalid
  rw [hhandled]
  obtain ⟨hstate, hpending, hunsent⟩ := htalking
  refine ⟨hmoves, hsame.state ▸ hstate, hsame.pending_candidates.trans hpending, fun j => ?_⟩
  obtain ⟨gone, hturns, -⟩ := hmoves.turns
  have hback := hturns.unsent j
  rw [hunsent, List.append_nil] at hback
  exact (List.append_eq_nil_iff.mp hback.symm).2

/-- The books say what is in a transport message that reaches a talking side. -/
theorem Inv.transport (hbooks : ∀ b, Books s₀ h b) (hholds : ∀ b, (mode b).Holds b (s₀ b) (h.session b))
    (hm : mode a = .talking) {msg : PPMessage} {rest : List PPMessage} (hflight : h.flight a.other = msg :: rest)
    (htype : msg.type = .transportInfo)
    (hway : OnTheWay (mode .initiator) (mode .responder) (Function.update h.flight a.other rest .initiator)
      (Function.update h.flight a.other rest .responder)) :
    Inv s₀ ({ h with flight := Function.update h.flight a.other rest }.act a ((h.session a).OnIncomingMessage id msg)) := by
  obtain ⟨k, cs, rfl, hne, hcs⟩ := (hbooks a.other).loads msg (hflight ▸ List.mem_cons_self) htype
  rw [Side.other_other] at hcs
  have ha := hholds a
  rw [hm] at ha
  obtain ⟨hmoves, htalking⟩ := talking_transportInfo (hbooks a).sound ha hne
    fun cand hcand => (hcs cand hcand).of_keeps (hbooks a).keeps
  refine Inv.receive hbooks hholds hflight hmoves (show (mode a).Holds a (s₀ a) _ from hm ▸ htalking) ?_
  have hself : Function.update h.flight a.other rest a = h.flight a := Function.update_of_ne (by cases a <;> decide) _ _
  rw [List.append_nil, ← hself, Function.update_eq_self, Function.update_eq_self]
  exact hway

theorem inv_toResponder (hidle : ∀ b, (s₀ b).Idle) (hinv : Inv s₀ h) {msg : PPMessage} {rest : List PPMessage}
    (hflight : h.flight .initiator = msg :: rest) :
    Inv s₀ ({ h with flight := Function.update h.flight .initiator rest }.act .responder
      ((h.session .responder).OnIncomingMessage id msg)) := by
  obtain ⟨hbooks, mode, hholds, hway⟩ := hinv
  have hr := hholds .responder
  rw [hflight] at hway
  generalize hmi : mode .initiator = mi, hmr : mode .responder = mr, hfi : msg :: rest = fi,
    hfr : h.flight .responder = fr at hway hr
  cases hway with
  | fresh | asked | answered => cases hfi
  | invited content =>
    obtain ⟨rfl, rfl⟩ := List.cons.inj hfi
    have hstart : h.session .responder = s₀ .responder := hr
    have hstate : (h.session .responder).state = .init := hstart ▸ (hidle .responder).state
    have hmoves := moves_OnInitiateMessage (hbooks .responder).sound hstate content
    obtain ⟨hvalid, hstate', hname, hpending, -, -, htransports⟩ :=
      @OnInitiateMessage_init _ (h.session .responder) hstate (initiation content) content [] rfl
    have hhandled : (h.session .responder).OnIncomingMessage id (initiation content) =
        ((h.session .responder).OnInitiateMessage id (initiation content)).1 := by
      rw [(h.session .responder).OnIncomingMessage_eq]
      exact if_pos hvalid
    rw [hhandled]
    have hwaiting : (Mode.waiting content).Holds .responder (s₀ .responder)
        ((h.session .responder).OnInitiateMessage id (initiation content)).1 :=
      ⟨hstate', hname, hpending, by rw [htransports, if_pos rfl]; rfl⟩
    refine @Inv.receive _ s₀ h .responder mode hbooks hholds _ _ hflight _ _ hmoves _ hwaiting ?_
    simp only [Function.update, Side.other, hmi, hfr, dif_pos, reduceCtorEq, dif_neg, not_false_eq_true, List.append_nil]
    exact .asked content
  | talking hms hms' =>
    subst hfi
    refine @Inv.transport _ s₀ h .responder mode hbooks hholds hmr msg rest hflight (hms msg List.mem_cons_self) ?_
    simp only [Function.update, Side.other, hmi, hmr, hfr, reduceCtorEq, dif_neg, not_false_eq_true]
    exact .talking (fun msg hmsg => hms msg (List.mem_cons_of_mem _ hmsg)) hms'

theorem inv_toInitiator (hinv : Inv s₀ h) {msg : PPMessage} {rest : List PPMessage}
    (hflight : h.flight .responder = msg :: rest) :
    Inv s₀ ({ h with flight := Function.update h.flight .responder rest }.act .initiator
      ((h.session .initiator).OnIncomingMessage id msg)) := by
  obtain ⟨hbooks, mode, hholds, hway⟩ := hinv
  have hi := hholds .initiator
  rw [hflight] at hway
  generalize hmi : mode .initiator = mi, hmr : mode .responder = mr, hfi : h.flight .initiator = fi,
    hfr : msg :: rest = fr at hway hi
  cases hway with
  | fresh | invited | asked => cases hfr
  | answered content hms =>
    obtain ⟨rfl, rfl⟩ := List.cons.inj hfr
    obtain ⟨hstate, -, -, hproxy⟩ := hi
    have hmoves := moves_OnAcceptMessage (hbooks .initiator).sound hstate content
    have hturns := turns_OnAcceptMessage (hbooks .initiator).sound hstate content
    obtain ⟨hvalid, hstate', -, hpending, -⟩ :=
      @OnAcceptMessage_sentInitiate _ (h.session .initiator) hstate (acceptance content) content [] rfl
    have hhandled : (h.session .initiator).OnIncomingMessage id (acceptance content) =
        ((h.session .initiator).OnAcceptMessage id (acceptance content)).1 := by
      rw [(h.session .initiator).OnIncomingMessage_eq]
      exact if_pos (hvalid.trans hproxy)
    have hunsent : ∀ k, ((h.session .initiator).OnAcceptMessage id (acceptance content)).1.unsent k = [] := by
      intro k
      have hback := hturns.unsent k
      rwa [List.append_right_inj, eq_comm] at hback
    have htalking : Mode.talking.Holds .initiator (s₀ .initiator)
        ((h.session .initiator).OnAcceptMessage id (acceptance content)).1 := ⟨.inl hstate', hpending, hunsent⟩
    rw [hhandled]
    refine @Inv.receive _ s₀ h .initiator mode hbooks hholds _ _ hflight _ _ hmoves _ htalking ?_
    simp only [Function.update, Side.other, hmr, hfi, dif_pos, reduceCtorEq, dif_neg, not_false_eq_true, List.nil_append]
    exact .talking (fun _ => type_of_mem_unsentMessages) hms
  | talking hms hms' =>
    subst hfr
    refine @Inv.transport _ s₀ h .initiator mode hbooks hholds hmi msg rest hflight (hms' msg List.mem_cons_self) ?_
    simp only [Function.update, Side.other, hmi, hmr, hfi, reduceCtorEq, dif_neg, not_false_eq_true]
    exact .talking hms fun msg hmsg => hms' msg (List.mem_cons_of_mem _ hmsg)

end step

/-! ### Runs -/

/-- The candidates of an event are for channels of the other side, which began as `s₀`, and their addresses pass its
    `VerifyCandidate`. -/
def Event.Taken (s₀ : Side → PPSession) : Event → Prop
  | candidatesReady a content_name candidates => ∀ cand ∈ candidates, (s₀ a.other).Takes content_name cand
  | _ => True

theorem inv_step {s₀ : Side → PPSession} (hidle : ∀ b, (s₀ b).Idle) {h h' : Handshake} {e : Event} (he : e.Taken s₀)
    (hinv : Inv s₀ h) (hstep : h.step e = some h') : Inv s₀ h' := by
  cases e with
  | initiate content =>
    obtain rfl := Option.some.inj hstep
    exact inv_initiate hidle hinv content
  | accept =>
    obtain rfl := Option.some.inj hstep
    exact inv_accept hidle hinv
  | deliver a =>
    rw [step] at hstep
    split at hstep
    · cases hstep
    · rename_i msg flight hflight
      obtain rfl := Option.some.inj hstep
      cases a with
      | initiator => exact inv_toResponder hidle hinv hflight
      | responder => exact inv_toInitiator hinv hflight
  | candidatesReady a content_name candidates =>
    rw [step] at hstep
    split at hstep
    · rename_i hready
      obtain ⟨hconnect, hne⟩ := hready
      obtain rfl := Option.some.inj hstep
      rw [GetTransport, GetTransportProxy] at hconnect
      rcases hp : (h.session a).transports[content_name]? with _ | p
      · simp [hp] at hconnect
      · exact inv_candidatesReady hidle hinv hp (by simpa [hp] using hconnect) hne he
    · cases hstep
  | state a =>
    obtain rfl := Option.some.inj hstep
    exact inv_state hidle hinv a

theorem inv_run {s₀ : Side → PPSession} (hidle : ∀ b, (s₀ b).Idle) {es : List Event} (hes : ∀ e ∈ es, e.Taken s₀)
    {h : Handshake} (hrun : (init s₀).run es = some h) : Inv s₀ h :=
  Machine.run_keeps (fun _ _ e he hinv hstep => inv_step hidle (hes e he) hinv hstep)
    ⟨books_init hidle, fun _ => .untouched, fun _ => rfl, .fresh⟩ hrun

/-- Candidates arrive once and in order, in every run of two sessions. No message is refused. What a transport has
    signalled has landed, or it is in messages on their way, or it is unsent: the other side has handed on what has
    landed, each candidate as it is read back from its words. Candidates with IPv4 addresses, whose preferences are
    read back as they are printed, agree in every field. -/
theorem candidates_delivered {allow : Side → Bool} {channels : Side → List (CString × CString)} {es : List Event}
    (hes : ∀ e ∈ es, e.Taken fun a => create (allow a) (channels a)) {h : Handshake}
    (hrun : (init fun a => create (allow a) (channels a)).run es = some h) (a : Side) :
    (∀ msg, .errorMessage msg ∉ (h.session a).out) ∧
      ∀ k, ∃ landed flying, h.signalled a k = landed ++ flying ++ (h.session a).unsent k ∧
        (h.session a.other).handed k = landed.map Candidate.reread ∧
        inFlight (h.flight a) k = flying.map Candidate.reread ∧
        ((∀ cand ∈ h.signalled a k,
            cand.address.IsIPv4 ∧ Host.showFloat (Host.readFloat cand.preference_str) = cand.preference_str) →
          (h.signalled a k).map Candidate.row =
            ((h.session a.other).handed k ++ inFlight (h.flight a) k ++ (h.session a).unsent k).map Candidate.row) := by
  have hinv := inv_run (fun b => idle_create (allow b) (channels b)) hes hrun
  refine ⟨(hinv.books a).untroubled, fun k => ?_⟩
  obtain ⟨landed, flying, hall, hlanded, hflying⟩ := (hinv.books a).account k
  refine ⟨landed, flying, hall, hlanded, hflying, fun hplain => ?_⟩
  have hrows : ∀ cs : List Candidate, (∀ cand ∈ cs, cand ∈ h.signalled a k) →
      (cs.map Candidate.reread).map Candidate.row = cs.map Candidate.row := by
    intro cs hcs
    rw [List.map_map]
    exact List.map_congr_left fun cand hcand =>
      Candidate.row_reread (hplain cand (hcs cand hcand)).1 (hplain cand (hcs cand hcand)).2
  rw [hlanded, hflying, List.map_append, List.map_append, hrows landed ?_, hrows flying ?_, hall, List.map_append,
    List.map_append]
  · exact fun cand hcand => hall ▸ List.mem_append_left _ (List.mem_append_right _ hcand)
  · exact fun cand hcand => hall ▸ List.mem_append_left _ (List.mem_append_left _ hcand)

end Handshake

end

/-! ### An exchange -/

namespace Handshake
open PPSession
attribute [local instance] Host.plain

/-- A candidate of a local port for the channel of the content. -/
def offer : Candidate where
  name := cstr "prober"
  protocol := cstr "udp"
  address := .ofIP (.v4 0x0A000001) 40000
  preference := (1 : Nat)
  username := cstr "user"
  password := cstr "password"
  type := cstr "local"
  network_name := cstr "eth0"
  generation := 0

/-- Both sides have candidates before the accept, and the initiator has another one behind it. -/
def exchange : List Event :=
  [.initiate (cstr "data"), .candidatesReady .initiator (cstr "data") [offer], .deliver .initiator,
    .candidatesReady .responder (cstr "data") [offer, offer], .accept, .deliver .responder, .deliver .responder,
    .candidatesReady .initiator (cstr "data") [offer], .state .initiator, .deliver .initiator]

theorem candidates_delivered_exchange :
    ∃ h landed flying, (init fun _ => create true [(cstr "data", cstr "prober")]).run exchange = some h ∧
      h.signalled .initiator (cstr "data") = landed ++ flying ++ (h.session .initiator).unsent (cstr "data") ∧
      (h.session .responder).handed (cstr "data") = landed.map Candidate.reread ∧ landed.length = 1 ∧ flying.length = 1 := by
  have hcounts : ((init fun _ => create true [(cstr "data", cstr "prober")]).run exchange).map (fun h =>
      (((h.session .responder).handed (cstr "data")).length, (inFlight (h.flight .initiator) (cstr "data")).length)) =
        some (1, 1) := by decide
  obtain ⟨h, hrun, hcounts⟩ := Option.map_eq_some_iff.mp hcounts
  have htakes : (create true [(cstr "data", cstr "prober")]).Takes (cstr "data") offer :=
    ⟨_, rfl, (TransportProxy.takes_reread _ (SocketAddress.isIPv4_ofIP _ _)).mpr ⟨by decide, by decide⟩⟩
  have hes : ∀ e ∈ exchange, e.Taken fun _ => create true [(cstr "data", cstr "prober")] := by
    simp [exchange, Event.Taken, htakes]
  obtain ⟨-, hall⟩ := @candidates_delivered _ (fun _ => true) (fun _ => [(cstr "data", cstr "prober")]) exchange hes h hrun
    .initiator
  obtain ⟨landed, flying, hsignalled, hlanded, hflying, -⟩ := hall (cstr "data")
  refine ⟨h, landed, flying, hrun, hsignalled, hlanded, ?_, ?_⟩
  · have hlength := congrArg Prod.fst hcounts
    rwa [show (h.session .responder).handed (cstr "data") = _ from hlanded, List.length_map] at hlength
  · have hlength := congrArg Prod.snd hcounts
    rwa [hflying, List.length_map] at hlength

end Handshake

end ProbICE
