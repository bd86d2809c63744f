import ProbICE.Threads

/-! # The steps of threads that send to each other

What a step of a thread does is said once, and then which messages are still to be answered after it, and which calls of
`Send` still wait for them. -/

namespace ProbICE.TalkBase

/-- The call of `Send` that a thread is in. -/
def Frame.call? : Frame → Option Nat
  | .sending i _ => some i
  | .waiting i _ => some i
  | _ => none

def Frame.handled? : Frame → Option SendMessage
  | .handling smsg => some smsg
  | _ => none

def Frame.waited : Frame → Bool
  | .sending _ waited => waited
  | .waiting _ waited => waited
  | _ => false

/-- The loop of `Get`. -/
def Frame.base : Frame → Bool
  | .getting => true
  | .received => true
  | .idle => true
  | _ => false

theorem mem_update {β : Type} {f : Nat → List β} {t u : Nat} {l : List β} {x : β} (h : x ∈ Function.update f t l u) :
    (u = t ∧ x ∈ l) ∨ x ∈ f u := by
  rcases eq_or_ne u t with rfl | hne
  · rw [Function.update_self] at h
    exact Or.inl ⟨rfl, h⟩
  · rw [Function.update_of_ne hne] at h
    exact Or.inr h

theorem mem_update_of {β : Type} {f : Nat → List β} {t u : Nat} {l : List β} {x : β} (h : x ∈ f u)
    (hl : u = t → x ∈ l) : x ∈ Function.update f t l u := by
  rcases eq_or_ne u t with rfl | hne
  · rw [Function.update_self]
    exact hl rfl
  · rw [Function.update_of_ne hne]
    exact h

/-- What holds of one value of a function goes on to hold if the change keeps it. -/
theorem update_keeps {β : Type} {P : β → Prop} {f : Nat → β} {t u : Nat} {x : β} (h : P (f u)) (hx : u = t → P (f u) → P x) :
    P (Function.update f t x u) := by
  rcases eq_or_ne u t with rfl | hne
  · rw [Function.update_self]
    exact hx rfl h
  · rwa [Function.update_of_ne hne]

/-- The first of a list goes. -/
theorem update_below {β : Type} {P : List β → Prop} {f : Nat → List β} {t u : Nat} {x : β} {l : List β} (hf : f t = x :: l)
    (hrest : P (x :: l) → P l) (h : P (f u)) : P (Function.update f t l u) :=
  update_keeps h fun heq hp => hrest (hf ▸ heq ▸ hp)

/-- What is left behind the first has been there before. -/
theorem mem_of_mem_tail {β : Type} {f : Nat → List β} {t u : Nat} {x y : β} {l : List β} (hf : f t = y :: l)
    (h : x ∈ Function.update f t l u) : x ∈ f u := by
  rcases mem_update h with ⟨rfl, hin⟩ | hin
  · exact hf ▸ List.mem_cons_of_mem _ hin
  · exact hin

theorem mem_tail_of {β : Type} {f : Nat → List β} {t u : Nat} {x y : β} {l : List β} (hf : f t = y :: l) (h : x ∈ f u)
    (hne : x ≠ y) : x ∈ Function.update f t l u := by
  refine mem_update_of h ?_
  rintro rfl
  rw [hf] at h
  exact (List.mem_cons.mp h).resolve_left hne

/-- A list that has been empty loses nothing. -/
theorem mem_of_nil {β : Type} {f : Nat → List β} {t u : Nat} {x : β} {l : List β} (hf : f t = []) (h : x ∈ f u) :
    x ∈ Function.update f t l u := by
  refine mem_update_of h ?_
  rintro rfl
  rw [hf] at h
  cases h

namespace Threads

variable {s s' : Threads} {t u : Nat} {l l' : List Frame}

/-! ### What a step does -/

/-- The changes of a stack that have nothing to do with other threads. -/
inductive Turn : List Frame → List Frame → Prop
  | receive : Turn [.getting] [.entering, .received]
  | peek : Turn [.getting] [.dispatching, .getting]
  | dispatch : Turn [.received] [.dispatching, .getting]
  | stop : Turn [.received] []
  | wait : Turn [.received] [.idle]
  | timeout : Turn [.idle] [.getting]
  | io : Turn [.idle] [.dispatching, .idle]
  | enter (l : List Frame) : Turn (.entering :: l) (.receiving :: l)
  | finish (l : List Frame) : Turn (.dispatching :: l) l
  | send (l : List Frame) (hl : l ≠ []) : Turn l (.dispatching :: l)

inductive Does (s : Threads) (t : Nat) : Threads → Prop
  | wake (u : Nat) (ts : List Task) (htasks : s.tasks t = .wake u :: ts) : Does s t (s.wake t u ts)
  | reply (smsg : SendMessage) (ts : List Task) (htasks : s.tasks t = .reply smsg :: ts) : Does s t (s.reply t smsg ts)
  | turn (l : List Frame) (h : Turn (s.stack t) l) : Does s t (s.setStack t l)
  | skip (l : List Frame) (hstack : s.stack t = .entering :: l) (hnone : s.has_sends_ t = false) :
    Does s t (s.setStack t l)
  | received (l : List Frame) (hstack : s.stack t = .receiving :: l) (hlist : s.sendlist_ t = []) :
    Does s t (s.received t l)
  | receive (smsg : SendMessage) (rest : List SendMessage) (l : List Frame) (hstack : s.stack t = .receiving :: l)
      (hlist : s.sendlist_ t = smsg :: rest) : Does s t (s.receive t smsg rest l)
  | finish (smsg : SendMessage) (l : List Frame) (htasks : s.tasks t = []) (hstack : s.stack t = .handling smsg :: l) :
    Does s t (s.finish t smsg l)
  | leave (i : Nat) (waited : Bool) (l : List Frame) (htasks : s.tasks t = [])
      (hstack : s.stack t = .sending i waited :: l) (hready : s.ready i) : Does s t (s.leave t i waited l)
  | loop (i : Nat) (waited : Bool) (l : List Frame) (hstack : s.stack t = .sending i waited :: l)
      (hready : s.ready i = false) : Does s t (s.setStack t (.entering :: .waiting i waited :: l))
  | wokenIdle (hstack : s.stack t = [.idle]) : Does s t (s.woken t [.getting])
  | woken (i : Nat) (waited : Bool) (l : List Frame) (hstack : s.stack t = .waiting i waited :: l) :
    Does s t (s.woken t (.sending i true :: l))
  | push (target : Nat) (msg : Message) (htasks : s.tasks t = []) (hstack : s.stack t ≠ []) :
    Does s t (s.push t target msg)
  | clear (target : Nat) (phandler : Option Nat) (id : UInt32) (htasks : s.tasks t = []) :
    Does s t (s.Clear t target phandler id)
  | post (target : Nat) (fStop : Nat → Bool) (htasks : s.tasks t = []) :
    Does s t { s.setTasks t [.wake target] with fStop_ := fStop }
  | stay : Does s t s

theorem does_of_handler {a : Step} (htasks : s.tasks t = []) (hstack : s.stack t ≠ []) (h : s.handler t a = some s') :
    Does s t s' := by
  cases a with
  | send target msg =>
    obtain rfl := Option.some.inj h
    unfold Send
    split
    · exact .stay
    · split
      · exact .turn _ (.send _ hstack)
      · exact .push target msg htasks hstack
  | clear target phandler id =>
    obtain rfl := Option.some.inj h
    exact .clear target phandler id htasks
  | post target =>
    obtain rfl := Option.some.inj h
    exact .post target s.fStop_ htasks
  | quit target =>
    obtain rfl := Option.some.inj h
    exact .post target _ htasks
  | go => cases h
  | finish => cases h
  | dispatch => cases h
  | timeout => cases h

theorem does_of_step {e : ThreadStep} (hstep : s.step e = some s') : Does s e.thread s' := by
  obtain ⟨t, a⟩ := e
  unfold step at hstep
  dsimp only at hstep ⊢
  split at hstep
  · rename_i htasks
    obtain rfl := Option.some.inj hstep
    exact .wake _ _ htasks
  · rename_i htasks
    obtain rfl := Option.some.inj hstep
    exact .reply _ _ htasks
  · rename_i hstack
    obtain rfl := Option.some.inj hstep
    exact .turn _ (hstack ▸ .receive)
  · rename_i hstack
    obtain rfl := Option.some.inj hstep
    exact .turn _ (hstack ▸ .peek)
  · rename_i hstack
    obtain rfl := Option.some.inj hstep
    exact .turn _ (hstack ▸ .dispatch)
  · rename_i hstack
    obtain rfl := Option.some.inj hstep
    refine .turn _ ?_
    rw [hstack]
    split
    · exact .stop
    · exact .wait
  · rename_i hstack
    split at hstep
    · obtain rfl := Option.some.inj hstep
      exact .wokenIdle hstack
    · cases hstep
  · rename_i hstack
    obtain rfl := Option.some.inj hstep
    exact .turn _ (hstack ▸ .timeout)
  · rename_i hstack
    obtain rfl := Option.some.inj hstep
    exact .turn _ (hstack ▸ .io)
  · rename_i l _ hstack
    obtain rfl := Option.some.inj hstep
    split
    · exact .turn _ (hstack ▸ .enter l)
    · rename_i hnone
      exact .skip l hstack (Bool.eq_false_iff.mpr hnone)
  · rename_i hstack
    split at hstep
    · rename_i hlist
      obtain rfl := Option.some.inj hstep
      exact .received _ hstack hlist
    · rename_i hlist
      obtain rfl := Option.some.inj hstep
      exact .receive _ _ _ hstack hlist
  · rename_i htasks hstack
    split at hstep
    · rename_i hready
      obtain rfl := Option.some.inj hstep
      exact .leave _ _ _ htasks hstack hready
    · rename_i hready
      obtain rfl := Option.some.inj hstep
      exact .loop _ _ _ hstack (Bool.eq_false_iff.mpr hready)
  · rename_i hstack
    split at hstep
    · obtain rfl := Option.some.inj hstep
      exact .woken _ _ _ hstack
    · cases hstep
  · rename_i htasks hstack
    obtain rfl := Option.some.inj hstep
    exact .finish _ _ htasks hstack
  · rename_i l htasks hstack
    obtain rfl := Option.some.inj hstep
    exact .turn _ (hstack ▸ .finish l)
  · rename_i htasks hstack _
    exact does_of_handler htasks (hstack ▸ List.cons_ne_nil _ _) hstep
  · rename_i htasks hstack _
    exact does_of_handler htasks (hstack ▸ List.cons_ne_nil _ _) hstep
  · cases hstep

/-! ### Which calls are still to be answered -/

def Pending (s : Threads) (smsg : SendMessage) : Prop :=
  ∃ t, smsg ∈ s.sendlist_ t ∨ .handling smsg ∈ s.stack t ∨ .reply smsg ∈ s.tasks t

/-- A thread is in a call of `Send`. -/
def Calls (s : Threads) (t i : Nat) : Prop := ∃ f ∈ s.stack t, f.call? = some i

theorem Turn.mem_handling (h : Turn l l') (smsg : SendMessage) : .handling smsg ∈ l' ↔ .handling smsg ∈ l := by
  cases h <;> simp

theorem Turn.calls (h : Turn l l') {f : Frame} (hf : f ∈ l') {i : Nat} (hi : f.call? = some i) : f ∈ l := by
  cases h with
  | enter l =>
    rcases List.mem_cons.mp hf with rfl | hf
    · cases hi
    · exact List.mem_cons_of_mem _ hf
  | finish l => exact List.mem_cons_of_mem _ hf
  | send l hne =>
    rcases List.mem_cons.mp hf with rfl | hf
    · cases hi
    · exact hf
  | stop => cases hf
  | wait | timeout =>
    obtain rfl := List.mem_singleton.mp hf
    cases hi
  | receive | peek | dispatch | io => rcases List.mem_pair.mp hf with rfl | rfl <;> cases hi

/-- Only a new call of `Send` leads to a new message. -/
theorem pending_of_step (hdoes : Does s t s') {smsg : SendMessage} (h : s'.Pending smsg) :
    s.Pending smsg ∨ smsg.ready = s.sends ∧ smsg.thread = t ∧ s'.sends = s.sends + 1 := by
  obtain ⟨u, h⟩ := h
  cases hdoes with
  | wake v ts htasks => exact Or.inl ⟨u, h.imp_right (Or.imp_right (mem_of_mem_tail htasks))⟩
  | reply m ts htasks =>
    refine Or.inl ⟨u, h.imp_right (Or.imp_right fun h => ?_)⟩
    rcases mem_update h with ⟨rfl, hin⟩ | hin
    · rcases List.mem_cons.mp hin with hin | hin
      · cases hin
      · exact htasks ▸ List.mem_cons_of_mem _ hin
    · exact hin
  | turn l hturn =>
    refine Or.inl ⟨u, h.imp_right (Or.imp_left fun h => ?_)⟩
    rcases mem_update h with ⟨rfl, hin⟩ | hin
    · exact (hturn.mem_handling smsg).mp hin
    · exact hin
  | skip l hstack hnone => exact Or.inl ⟨u, h.imp_right (Or.imp_left (mem_of_mem_tail hstack))⟩
  | received l hstack hlist => exact Or.inl ⟨u, h.imp_right (Or.imp_left (mem_of_mem_tail hstack))⟩
  | receive m rest l hstack hlist =>
    rcases h with h | h | h
    · refine Or.inl ⟨u, Or.inl ?_⟩
      rcases mem_update h with ⟨rfl, hin⟩ | hin
      · exact hlist ▸ List.mem_cons_of_mem _ hin
      · exact hin
    · rcases mem_update h with ⟨rfl, hin⟩ | hin
      · rcases List.mem_cons.mp hin with hin | hin
        · obtain rfl := Frame.handling.inj hin
          exact Or.inl ⟨u, Or.inl (hlist ▸ List.mem_cons_self)⟩
        · exact Or.inl ⟨u, Or.inr (Or.inl (hstack ▸ hin))⟩
      · exact Or.inl ⟨u, Or.inr (Or.inl hin)⟩
    · exact Or.inl ⟨u, Or.inr (Or.inr h)⟩
  | finish m l htasks hstack =>
    rcases h with h | h | h
    · exact Or.inl ⟨u, Or.inl h⟩
    · exact Or.inl ⟨u, Or.inr (Or.inl (mem_of_mem_tail hstack h))⟩
    · rcases mem_update h with ⟨rfl, hin⟩ | hin
      · obtain rfl := Task.reply.inj (List.mem_singleton.mp hin)
        exact Or.inl ⟨u, Or.inr (Or.inl (hstack ▸ List.mem_cons_self))⟩
      · exact Or.inl ⟨u, Or.inr (Or.inr hin)⟩
  | leave i waited l htasks hstack hready =>
    rcases h with h | h | h
    · exact Or.inl ⟨u, Or.inl h⟩
    · exact Or.inl ⟨u, Or.inr (Or.inl (mem_of_mem_tail hstack h))⟩
    · rcases mem_update h with ⟨rfl, hin⟩ | hin
      · split at hin
        · cases List.mem_singleton.mp hin
        · cases hin
      · exact Or.inl ⟨u, Or.inr (Or.inr hin)⟩
  | loop i waited l hstack hready =>
    refine Or.inl ⟨u, h.imp_right (Or.imp_left fun h => ?_)⟩
    rcases mem_update h with ⟨rfl, hin⟩ | hin
    · rw [hstack]
      simpa using hin
    · exact hin
  | wokenIdle hstack =>
    refine Or.inl ⟨u, h.imp_right (Or.imp_left fun h => ?_)⟩
    rcases mem_update h with ⟨rfl, hin⟩ | hin
    · cases List.mem_singleton.mp hin
    · exact hin
  | woken i waited l hstack =>
    refine Or.inl ⟨u, h.imp_right (Or.imp_left fun h => ?_)⟩
    rcases mem_update h with ⟨rfl, hin⟩ | hin
    · rw [hstack]
      simpa using hin
    · exact hin
  | push target msg htasks =>
    rcases h with h | h | h
    · rcases mem_update h with ⟨rfl, hin⟩ | hin
      · rcases List.mem_append.mp hin with hin | hin
        · exact Or.inl ⟨u, Or.inl hin⟩
        · obtain rfl := List.mem_singleton.mp hin
          exact Or.inr ⟨rfl, rfl, rfl⟩
      · exact Or.inl ⟨u, Or.inl hin⟩
    · refine Or.inl ⟨u, Or.inr (Or.inl ?_)⟩
      rcases mem_update h with ⟨rfl, hin⟩ | hin
      · rcases List.mem_cons.mp hin with hin | hin
        · cases hin
        · exact hin
      · exact hin
    · refine Or.inl ⟨u, Or.inr (Or.inr ?_)⟩
      rcases mem_update h with ⟨rfl, hin⟩ | hin
      · cases List.mem_singleton.mp hin
      · exact hin
  | clear target phandler id htasks =>
    rcases h with h | h | h
    · refine Or.inl ⟨u, Or.inl ?_⟩
      rcases mem_update h with ⟨rfl, hin⟩ | hin
      · exact List.mem_of_mem_filter hin
      · exact hin
    · exact Or.inl ⟨u, Or.inr (Or.inl h)⟩
    · rcases mem_update h with ⟨rfl, hin⟩ | hin
      · obtain ⟨m, hm, hin⟩ := List.mem_map.mp hin
        obtain rfl := Task.reply.inj hin
        exact Or.inl ⟨target, Or.inl (List.mem_of_mem_filter hm)⟩
      · exact Or.inl ⟨u, Or.inr (Or.inr hin)⟩
  | post target fStop htasks =>
    refine Or.inl ⟨u, h.imp_right (Or.imp_right fun h => ?_)⟩
    rcases mem_update h with ⟨rfl, hin⟩ | hin
    · cases List.mem_singleton.mp hin
    · exact hin
  | stay => exact Or.inl ⟨u, h⟩

/-- A message is there until it has been answered. -/
theorem pending_kept (hdoes : Does s t s') {smsg : SendMessage} (h : s.Pending smsg) :
    s'.Pending smsg ∨ s'.ready smsg.ready := by
  obtain ⟨u, h⟩ := h
  cases hdoes with
  | wake v ts htasks =>
    exact Or.inl ⟨u, h.imp_right (Or.imp_right fun h => mem_tail_of htasks h Task.noConfusion)⟩
  | reply m ts htasks =>
    rcases h with h | h | h
    · exact Or.inl ⟨u, Or.inl h⟩
    · exact Or.inl ⟨u, Or.inr (Or.inl h)⟩
    · rcases eq_or_ne u t with rfl | hne
      · rw [htasks] at h
        rcases List.mem_cons.mp h with h | h
        · obtain rfl := Task.reply.inj h
          exact Or.inr (Function.update_self ..)
        · exact Or.inl ⟨u, Or.inr (Or.inr (mem_update_of (htasks ▸ List.mem_cons_of_mem _ h)
            fun _ => List.mem_cons_of_mem _ h))⟩
      · exact Or.inl ⟨u, Or.inr (Or.inr (mem_update_of h fun heq => absurd heq hne))⟩
  | turn l hturn =>
    refine Or.inl ⟨u, h.imp_right (Or.imp_left fun h => mem_update_of h ?_)⟩
    rintro rfl
    exact (hturn.mem_handling smsg).mpr h
  | skip l hstack hnone =>
    exact Or.inl ⟨u, h.imp_right (Or.imp_left fun h => mem_tail_of hstack h Frame.noConfusion)⟩
  | received l hstack hlist =>
    exact Or.inl ⟨u, h.imp_right (Or.imp_left fun h => mem_tail_of hstack h Frame.noConfusion)⟩
  | receive m rest l hstack hlist =>
    rcases h with h | h | h
    · rcases eq_or_ne u t with rfl | hne
      · rw [hlist] at h
        rcases List.mem_cons.mp h with rfl | h
        · refine Or.inl ⟨u, Or.inr (Or.inl ?_)⟩
          change _ ∈ Function.update s.stack u _ u
          rw [Function.update_self]
          exact List.mem_cons_self
        · exact Or.inl ⟨u, Or.inl (mem_update_of (hlist ▸ List.mem_cons_of_mem _ h) fun _ => h)⟩
      · exact Or.inl ⟨u, Or.inl (mem_update_of h fun heq => absurd heq hne)⟩
    · refine Or.inl ⟨u, Or.inr (Or.inl (mem_update_of h ?_))⟩
      rintro rfl
      exact List.mem_cons_of_mem _ (hstack ▸ h)
    · exact Or.inl ⟨u, Or.inr (Or.inr h)⟩
  | finish m l htasks hstack =>
    rcases h with h | h | h
    · exact Or.inl ⟨u, Or.inl h⟩
    · rcases eq_or_ne u t with rfl | hne
      · rw [hstack] at h
        rcases List.mem_cons.mp h with h | h
        · obtain rfl := Frame.handling.inj h
          refine Or.inl ⟨u, Or.inr (Or.inr ?_)⟩
          change _ ∈ Function.update s.tasks u _ u
          rw [Function.update_self]
          exact List.mem_cons_self
        · exact Or.inl ⟨u, Or.inr (Or.inl (mem_update_of (hstack ▸ List.mem_cons_of_mem _ h) fun _ => h))⟩
      · exact Or.inl ⟨u, Or.inr (Or.inl (mem_update_of h fun heq => absurd heq hne))⟩
    · exact Or.inl ⟨u, Or.inr (Or.inr (mem_of_nil htasks h))⟩
  | leave i waited l htasks hstack hready =>
    rcases h with h | h | h
    · exact Or.inl ⟨u, Or.inl h⟩
    · exact Or.inl ⟨u, Or.inr (Or.inl (mem_tail_of hstack h Frame.noConfusion))⟩
    · exact Or.inl ⟨u, Or.inr (Or.inr (mem_of_nil htasks h))⟩
  | loop i waited l hstack hready =>
    refine Or.inl ⟨u, h.imp_right (Or.imp_left fun h => mem_update_of h ?_)⟩
    rintro rfl
    simpa [hstack] using h
  | wokenIdle hstack =>
    refine Or.inl ⟨u, h.imp_right (Or.imp_left fun h => mem_update_of h ?_)⟩
    rintro rfl
    simp [hstack] at h
  | woken i waited l hstack =>
    refine Or.inl ⟨u, h.imp_right (Or.imp_left fun h => mem_update_of h ?_)⟩
    rintro rfl
    simpa [hstack] using h
  | push target msg htasks =>
    rcases h with h | h | h
    · refine Or.inl ⟨u, Or.inl (mem_update_of h ?_)⟩
      rintro rfl
      exact List.mem_append_left _ h
    · refine Or.inl ⟨u, Or.inr (Or.inl (mem_update_of h ?_))⟩
      rintro rfl
      exact List.mem_cons_of_mem _ h
    · exact Or.inl ⟨u, Or.inr (Or.inr (mem_of_nil htasks h))⟩
  | clear target phandler id htasks =>
    rcases h with h | h | h
    · cases hmatch : smsg.msg.Match phandler id with
      | false =>
        refine Or.inl ⟨u, Or.inl (mem_update_of h ?_)⟩
        rintro rfl
        exact List.mem_filter.mpr ⟨h, by rw [hmatch]; rfl⟩
      | true =>
        rcases eq_or_ne u target with rfl | hne
        · refine Or.inl ⟨t, Or.inr (Or.inr ?_)⟩
          change _ ∈ Function.update s.tasks t _ t
          rw [Function.update_self]
          exact List.mem_map_of_mem (List.mem_filter.mpr ⟨h, hmatch⟩)
        · exact Or.inl ⟨u, Or.inl (mem_update_of h fun heq => absurd heq hne)⟩
    · exact Or.inl ⟨u, Or.inr (Or.inl h)⟩
    · exact Or.inl ⟨u, Or.inr (Or.inr (mem_of_nil htasks h))⟩
  | post target fStop htasks =>
    exact Or.inl ⟨u, h.imp_right (Or.imp_right (mem_of_nil htasks))⟩
  | stay => exact Or.inl ⟨u, h⟩

/-- Only a `Send` is a new call. -/
theorem calls_of_step (hdoes : Does s t s') {i : Nat} (h : s'.Calls u i) :
    s.Calls u i ∨ i = s.sends ∧ u = t ∧ s'.sends = s.sends + 1 ∧ ∃ smsg, s'.Pending smsg ∧ smsg.ready = i := by
  obtain ⟨f, hf, hi⟩ := h
  cases hdoes with
  | wake v ts htasks => exact Or.inl ⟨f, hf, hi⟩
  | reply m ts htasks => exact Or.inl ⟨f, hf, hi⟩
  | turn l hturn =>
    rcases mem_update hf with ⟨rfl, hin⟩ | hin
    · exact Or.inl ⟨f, hturn.calls hin hi, hi⟩
    · exact Or.inl ⟨f, hin, hi⟩
  | skip l hstack hnone => exact Or.inl ⟨f, mem_of_mem_tail hstack hf, hi⟩
  | received l hstack hlist => exact Or.inl ⟨f, mem_of_mem_tail hstack hf, hi⟩
  | receive m rest l hstack hlist =>
    rcases mem_update hf with ⟨rfl, hin⟩ | hin
    · rcases List.mem_cons.mp hin with rfl | hin
      · cases hi
      · exact Or.inl ⟨f, hstack ▸ hin, hi⟩
    · exact Or.inl ⟨f, hin, hi⟩
  | finish m l htasks hstack => exact Or.inl ⟨f, mem_of_mem_tail hstack hf, hi⟩
  | leave j waited l htasks hstack hready => exact Or.inl ⟨f, mem_of_mem_tail hstack hf, hi⟩
  | loop j waited l hstack hready =>
    rcases mem_update hf with ⟨rfl, hin⟩ | hin
    · rcases List.mem_cons.mp hin with rfl | hin
      · cases hi
      · rcases List.mem_cons.mp hin with rfl | hin
        · exact Or.inl ⟨.sending j waited, hstack ▸ List.mem_cons_self, hi⟩
        · exact Or.inl ⟨f, hstack ▸ List.mem_cons_of_mem _ hin, hi⟩
    · exact Or.inl ⟨f, hin, hi⟩
  | wokenIdle hstack =>
    rcases mem_update hf with ⟨rfl, hin⟩ | hin
    · obtain rfl := List.mem_singleton.mp hin
      cases hi
    · exact Or.inl ⟨f, hin, hi⟩
  | woken j waited l hstack =>
    rcases mem_update hf with ⟨rfl, hin⟩ | hin
    · rcases List.mem_cons.mp hin with rfl | hin
      · exact Or.inl ⟨.waiting j waited, hstack ▸ List.mem_cons_self, hi⟩
      · exact Or.inl ⟨f, hstack ▸ List.mem_cons_of_mem _ hin, hi⟩
    · exact Or.inl ⟨f, hin, hi⟩
  | push target msg htasks =>
    rcases mem_update hf with ⟨rfl, hin⟩ | hin
    · rcases List.mem_cons.mp hin with rfl | hin
      · obtain rfl := Option.some.inj hi
        refine Or.inr ⟨rfl, rfl, rfl, ⟨u, msg, s.sends⟩, ⟨target, Or.inl ?_⟩, rfl⟩
        change _ ∈ Function.update s.sendlist_ target _ target
        rw [Function.update_self]
        exact List.mem_append_right _ List.mem_cons_self
      · exact Or.inl ⟨f, hin, hi⟩
    · exact Or.inl ⟨f, hin, hi⟩
  | clear target phandler id htasks => exact Or.inl ⟨f, hf, hi⟩
  | post target fStop htasks => exact Or.inl ⟨f, hf, hi⟩
  | stay => exact Or.inl ⟨f, hf, hi⟩

theorem ready_of_step (hdoes : Does s t s') {i : Nat} (hi : i < s.sends) (h : s.ready i) : s'.ready i := by
  cases hdoes with
  | reply m ts htasks =>
    change Function.update s.ready m.ready true i
    rw [Function.update_apply]
    split
    · rfl
    · exact h
  | push target msg htasks =>
    change Function.update s.ready s.sends false i
    rwa [Function.update_of_ne hi.ne]
  | _ => exact h

theorem sends_le (hdoes : Does s t s') : s.sends ≤ s'.sends := by
  cases hdoes with
  | push target msg htasks => exact Nat.le_succ _
  | _ => exact Nat.le_refl _

/-- Each call of `Send` that is not ready has a message that is to be answered, and nobody else has one. -/
structure Answerable (s : Threads) : Prop where
  known : ∀ smsg, s.Pending smsg → smsg.ready < s.sends
  calls : ∀ u i, s.Calls u i → i < s.sends ∧ (s.ready i ∨ ∃ smsg, s.Pending smsg ∧ smsg.ready = i)
  owner : ∀ smsg, s.Pending smsg → ∀ u, s.Calls u smsg.ready → u = smsg.thread

theorem answerable_new : new.Answerable := by
  have hnone : ∀ smsg, ¬ new.Pending smsg := by
    rintro smsg ⟨t, h | h | h⟩
    · cases h
    · cases List.mem_singleton.mp h
    · cases h
  refine ⟨fun smsg h => absurd h (hnone smsg), ?_, fun smsg h => absurd h (hnone smsg)⟩
  rintro u i ⟨f, hf, hi⟩
  obtain rfl := List.mem_singleton.mp hf
  cases hi

theorem Answerable.step (h : s.Answerable) (hdoes : Does s t s') : s'.Answerable where
  known smsg hp := by
    rcases pending_of_step hdoes hp with hp | ⟨hi, -, hsends⟩
    · exact (h.known smsg hp).trans_le (sends_le hdoes)
    · omega
  calls u i hc := by
    rcases calls_of_step hdoes hc with hc | ⟨hi, -, hsends, hp⟩
    · obtain ⟨hi, hready | ⟨smsg, hp, rfl⟩⟩ := h.calls u i hc
      · exact ⟨hi.trans_le (sends_le hdoes), Or.inl (ready_of_step hdoes hi hready)⟩
      · refine ⟨hi.trans_le (sends_le hdoes), ?_⟩
        exact (pending_kept hdoes hp).symm.imp id fun hp => ⟨smsg, hp, rfl⟩
    · exact ⟨by omega, Or.inr hp⟩
  owner smsg hp u hc := by
    rcases pending_of_step hdoes hp with hp | ⟨hi, hthread, -⟩
    · rcases calls_of_step hdoes hc with hc | ⟨hi, -⟩
      · exact h.owner smsg hp u hc
      · exact absurd hi (h.known smsg hp).ne
    · rcases calls_of_step hdoes hc with hc | ⟨-, hu, -⟩
      · exact absurd hi (h.calls u smsg.ready hc).1.ne
      · exact hu.trans hthread.symm

end Threads

end ProbICE.TalkBase
