import ProbICE.Theorems.SendSteps

/-! # Threads that wait for each other

No call for a thread is overheard, although a `Wait` may be woken up for the sake of another call than the one that it
is in. Threads that all wait have therefore nothing left to wait for. -/

namespace ProbICE.TalkBase.Threads

variable {s s' : Threads} {t u : Nat} {l l' : List Frame}

/-! ### No call is overheard -/

/-- A thread has been woken up, or it is about to be. -/
def Noticed (s : Threads) (t : Nat) : Prop := s.fSignaled_ t ∨ ∃ u, .wake t ∈ s.tasks u

/-- Before the thread waits, it looks what has been sent to it, or it wakes itself up. -/
def Looks : List Frame → Prop
  | [] => True
  | .getting :: _ => True
  | .entering :: _ => True
  | .receiving :: _ => True
  | .received :: _ => False
  | .idle :: _ => False
  | .waiting _ _ :: _ => False
  | .sending _ waited :: l => waited ∨ Looks l
  | .dispatching :: l => Looks l
  | .handling _ :: l => Looks l

/-- None of the calls that wait is ready, down to one that will wake up the thread again when it is left. -/
def Attended (ready : Nat → Bool) : List Frame → Prop
  | [] => True
  | f :: l => (∀ i waited, f = .waiting i waited → ready i = false) ∧ (f.waited ∨ Attended ready l)

theorem noticed_of_step (hdoes : Does s t s') (h : s.Noticed u) :
    s'.Noticed u ∨ u = t ∧ (s'.stack u = [.getting] ∨ ∃ i l, s'.stack u = .sending i true :: l) := by
  have hwaits {l : List Frame} (hstack : (s.woken t l).stack = Function.update s.stack t l) :
      (s.woken t l).Noticed u ∨ u = t ∧ (s.woken t l).stack u = l := by
    rcases eq_or_ne u t with rfl | hne
    · exact Or.inr ⟨rfl, by rw [hstack, Function.update_self]⟩
    · refine Or.inl (h.imp_left fun h => ?_)
      change Function.update s.fSignaled_ t false u
      rwa [Function.update_of_ne hne]
  have hkept {ts : List Task} (htasks : ∀ u, .wake u ∈ s.tasks t → .wake u ∈ ts) {s' : Threads}
      (hsignaled : s'.fSignaled_ = s.fSignaled_) (htasks' : s'.tasks = Function.update s.tasks t ts) :
      s'.Noticed u := by
    unfold Noticed
    rw [hsignaled, htasks']
    exact h.imp_right fun ⟨v, hv⟩ => ⟨v, mem_update_of hv fun heq => htasks u (heq ▸ hv)⟩
  have hidle {ts : List Task} (htasks : s.tasks t = []) {s' : Threads} (hsignaled : s'.fSignaled_ = s.fSignaled_)
      (htasks' : s'.tasks = Function.update s.tasks t ts) : s'.Noticed u :=
    hkept (fun v hv => by rw [htasks] at hv; cases hv) hsignaled htasks'
  cases hdoes with
  | wake v ts htasks =>
    refine Or.inl ?_
    rcases h with h | ⟨w, hw⟩
    · refine Or.inl ?_
      change Function.update s.fSignaled_ v true u
      rw [Function.update_apply]
      split
      · rfl
      · exact h
    · rcases eq_or_ne u v with rfl | hne
      · exact Or.inl (Function.update_self ..)
      · refine Or.inr ⟨w, mem_update_of hw ?_⟩
        rintro rfl
        rw [htasks] at hw
        rcases List.mem_cons.mp hw with hw | hw
        · exact absurd (Task.wake.inj hw) hne
        · exact hw
  | reply m ts htasks =>
    refine Or.inl (hkept (fun v hv => ?_) rfl rfl)
    rw [htasks] at hv
    rcases List.mem_cons.mp hv with hv | hv
    · cases hv
    · exact List.mem_cons_of_mem _ hv
  | turn l hturn => exact Or.inl h
  | skip l hstack hnone => exact Or.inl h
  | received l hstack hlist => exact Or.inl h
  | receive m rest l hstack hlist => exact Or.inl h
  | finish m l htasks hstack => exact Or.inl (hidle htasks rfl rfl)
  | leave i waited l htasks hstack hready => exact Or.inl (hidle htasks rfl rfl)
  | loop i waited l hstack hready => exact Or.inl h
  | wokenIdle hstack => exact (hwaits rfl).imp_right fun ⟨hu, hstack⟩ => ⟨hu, Or.inl hstack⟩
  | woken i waited l hstack => exact (hwaits rfl).imp_right fun ⟨hu, hstack⟩ => ⟨hu, Or.inr ⟨i, l, hstack⟩⟩
  | push target msg htasks => exact Or.inl (hidle htasks rfl rfl)
  | clear target phandler id htasks => exact Or.inl (hidle htasks rfl rfl)
  | post target fStop htasks => exact Or.inl (hidle htasks rfl rfl)
  | stay => exact Or.inl h

theorem Turn.looks (h : Turn l l') (hl : Looks l) : Looks l' := by
  cases h <;> first | exact hl | trivial

theorem Turn.attended {ready : Nat → Bool} (h : Turn l l') (hl : Attended ready l) : Attended ready l' := by
  cases h with
  | finish l => exact hl.2.resolve_left Bool.false_ne_true
  | enter l => exact ⟨fun _ _ heq => (by cases heq), hl.2⟩
  | send l hne => exact ⟨fun _ _ heq => (by cases heq), Or.inr hl⟩
  | _ => simp [Attended]

theorem has_sends_of_step (hdoes : Does s t s') (h : ∀ u, s.sendlist_ u ≠ [] → s.has_sends_ u) :
    ∀ u, s'.sendlist_ u ≠ [] → s'.has_sends_ u := by
  intro u hu
  cases hdoes with
  | received l hstack hlist =>
    have hne : u ≠ t := by
      rintro rfl
      exact hu hlist
    change Function.update s.has_sends_ t false u
    rw [Function.update_of_ne hne]
    exact h u hu
  | receive m rest l hstack hlist =>
    refine h u fun hnil => hu ?_
    have hne : u ≠ t := by
      rintro rfl
      cases hlist.symm.trans hnil
    exact (Function.update_of_ne hne ..).trans hnil
  | push target msg htasks =>
    change Function.update s.has_sends_ target true u
    rcases eq_or_ne u target with rfl | hne
    · exact Function.update_self ..
    · rw [Function.update_of_ne hne]
      exact h u fun hnil => hu ((Function.update_of_ne hne ..).trans hnil)
  | clear target phandler id htasks =>
    refine h u fun hnil => hu ?_
    change Function.update s.sendlist_ target _ u = []
    rcases eq_or_ne u target with rfl | hne
    · rw [Function.update_self, hnil]
      rfl
    · rw [Function.update_of_ne hne, hnil]
  | _ => exact h u hu

/-- The step of a thread that has not been woken up. -/
theorem heard_of_step (hdoes : Does s t s') (hsends : ∀ u, s.sendlist_ u ≠ [] → s.has_sends_ u)
    (h : s.sendlist_ u = [] ∨ Looks (s.stack u)) : s'.Noticed u ∨ s'.sendlist_ u = [] ∨ Looks (s'.stack u) := by
  -- The stack of the thread itself is all that most of the steps change.
  have hstack {l : List Frame} (hl : u = t → s.sendlist_ u = [] ∨ Looks (s.stack u) → s.sendlist_ u = [] ∨ Looks l) :
      s.sendlist_ u = [] ∨ Looks (Function.update s.stack t l u) :=
    update_keeps (P := fun stack => s.sendlist_ u = [] ∨ Looks stack) h hl
  cases hdoes with
  | wake v ts htasks => exact Or.inr h
  | reply m ts htasks => exact Or.inr h
  | turn l hturn => exact Or.inr (hstack fun heq => Or.imp_right fun h => hturn.looks (heq ▸ h))
  | skip l hentering hnone =>
    refine Or.inr (hstack fun heq _ => Or.inl (by_contra fun hne => ?_))
    exact Bool.false_ne_true (hnone.symm.trans (hsends t (heq ▸ hne)))
  | received l hreceiving hlist => exact Or.inr (hstack fun heq _ => Or.inl (heq ▸ hlist))
  | receive m rest l hreceiving hlist =>
    rcases eq_or_ne u t with rfl | hne
    · refine Or.inr (Or.inr ?_)
      change Looks (Function.update s.stack u _ u)
      rw [Function.update_self]
      trivial
    · refine Or.inr (h.imp (fun h => ?_) fun h => ?_)
      · exact (Function.update_of_ne hne ..).trans h
      · change Looks (Function.update s.stack t _ u)
        rwa [Function.update_of_ne hne]
  | finish m l htasks hhandling => exact Or.inr (hstack fun heq => Or.imp_right fun h => by rwa [heq, hhandling] at h)
  | leave i waited l htasks hsending hready =>
    cases waited with
    | true =>
      rcases eq_or_ne u t with rfl | hne
      · refine Or.inl (Or.inr ⟨u, ?_⟩)
        change _ ∈ Function.update s.tasks u _ u
        rw [Function.update_self]
        exact List.mem_singleton_self _
      · refine Or.inr (h.imp_right fun h => ?_)
        change Looks (Function.update s.stack t _ u)
        rwa [Function.update_of_ne hne]
    | false =>
      refine Or.inr (hstack fun heq => Or.imp_right fun h => ?_)
      rw [heq, hsending] at h
      exact h.resolve_left Bool.false_ne_true
  | loop i waited l hsending hready =>
    exact Or.inr (hstack (l := .entering :: .waiting i waited :: l) fun _ _ => Or.inr trivial)
  | wokenIdle hidle => exact Or.inr (hstack (l := [.getting]) fun _ _ => Or.inr trivial)
  | woken i waited l hwaiting => exact Or.inr (hstack (l := .sending i true :: l) fun _ _ => Or.inr (Or.inl rfl))
  | push target msg htasks =>
    rcases eq_or_ne u target with rfl | hne
    · refine Or.inl (Or.inr ⟨t, ?_⟩)
      change _ ∈ Function.update s.tasks t _ t
      rw [Function.update_self]
      exact List.mem_singleton_self _
    · have hlist : (s.push t target msg).sendlist_ u = s.sendlist_ u := Function.update_of_ne hne ..
      rw [hlist]
      exact Or.inr (hstack fun heq => Or.imp_right fun h => Or.inr (heq ▸ h))
  | clear target phandler id htasks =>
    refine Or.inr (h.imp_left fun h => ?_)
    change Function.update s.sendlist_ target _ u = []
    rcases eq_or_ne u target with rfl | hne
    · rw [Function.update_self, h]
      rfl
    · rw [Function.update_of_ne hne, h]
  | post target fStop htasks => exact Or.inr h
  | stay => exact Or.inr h

theorem Attended.imp {ready ready' : Nat → Bool}
    (hready : ∀ i, (∃ f ∈ l, f.call? = some i) → ready i = false → ready' i = false) (h : Attended ready l) :
    Attended ready' l := by
  induction l with
  | nil => trivial
  | cons f l ih =>
    obtain ⟨hfirst, hrest⟩ := h
    refine ⟨?_, hrest.imp_right (ih fun i ⟨g, hg, hi⟩ => hready i ⟨g, List.mem_cons_of_mem _ hg, hi⟩)⟩
    rintro i waited rfl
    exact hready i ⟨_, List.mem_cons_self, rfl⟩ (hfirst i waited rfl)

theorem Attended.below {ready : Nat → Bool} {f : Frame} (hwaited : f.waited = false) (h : Attended ready (f :: l)) :
    Attended ready l :=
  h.2.resolve_left (hwaited ▸ Bool.false_ne_true)

theorem attended_of_step (hdoes : Does s t s') (hanswerable : s.Answerable) (h : Attended s.ready (s.stack u)) :
    s'.Noticed u ∨ Attended s'.ready (s'.stack u) := by
  cases hdoes with
  | wake v ts htasks => exact Or.inr h
  | reply m ts htasks =>
    rcases eq_or_ne u m.thread with rfl | hne
    · refine Or.inl (Or.inr ⟨t, ?_⟩)
      change _ ∈ Function.update s.tasks t _ t
      rw [Function.update_self]
      exact List.mem_cons_self
    · refine Or.inr (h.imp fun i hcall hi => ?_)
      have hpending : s.Pending m := ⟨t, Or.inr (Or.inr (htasks ▸ List.mem_cons_self))⟩
      have hother : i ≠ m.ready := by
        rintro rfl
        exact hne (hanswerable.owner m hpending u hcall)
      exact (Function.update_of_ne hother ..).trans hi
  | turn l hturn => exact Or.inr (update_keeps (P := Attended s.ready) h fun heq h => hturn.attended (heq ▸ h))
  | skip l hentering hnone => exact Or.inr (update_below hentering (.below rfl) h)
  | received l hreceiving hlist => exact Or.inr (update_below hreceiving (.below rfl) h)
  | receive m rest l hreceiving hlist =>
    refine Or.inr (update_keeps (P := Attended s.ready) h fun heq h => ⟨fun _ _ heq => (by cases heq), Or.inr ?_⟩)
    rwa [heq, hreceiving] at h
  | finish m l htasks hhandling => exact Or.inr (update_below hhandling (.below rfl) h)
  | leave i waited l htasks hsending hready =>
    cases waited with
    | true =>
      rcases eq_or_ne u t with rfl | hne
      · refine Or.inl (Or.inr ⟨u, ?_⟩)
        change _ ∈ Function.update s.tasks u _ u
        rw [Function.update_self]
        exact List.mem_singleton_self _
      · refine Or.inr ?_
        change Attended s.ready (Function.update s.stack t _ u)
        rwa [Function.update_of_ne hne]
    | false => exact Or.inr (update_below hsending (.below rfl) h)
  | loop i waited l hsending hready =>
    refine Or.inr (update_keeps (P := Attended s.ready) h fun heq h => ⟨fun _ _ heq => (by cases heq), Or.inr ⟨?_, ?_⟩⟩)
    · rintro _ _ ⟨⟩
      exact hready
    · rw [heq, hsending] at h
      exact h.2
  | wokenIdle hidle =>
    exact Or.inr (update_keeps (P := Attended s.ready) h fun _ _ => ⟨fun _ _ heq => (by cases heq), Or.inr trivial⟩)
  | woken i waited l hwaiting =>
    exact Or.inr (update_keeps (P := Attended s.ready) h fun _ _ => ⟨fun _ _ heq => (by cases heq), Or.inl rfl⟩)
  | push target msg htasks =>
    have hpushed := update_keeps (P := Attended s.ready) (t := t) (x := .sending s.sends false :: s.stack t) h
      fun heq h => ⟨fun _ _ heq => (by cases heq), Or.inr (heq ▸ h)⟩
    refine Or.inr (hpushed.imp fun i _ hi => ?_)
    change Function.update s.ready s.sends false i = false
    rw [Function.update_apply]
    split
    · rfl
    · exact hi
  | clear target phandler id htasks => exact Or.inr h
  | post target fStop htasks => exact Or.inr h
  | stay => exact Or.inr h

/-! ### The calls of a thread are younger than what it handles below them -/

/-- What is handled stands below the calls that its handler is in. -/
def Later (f g : Frame) : Prop := ∀ i, f.call? = some i → ∀ smsg, g.handled? = some smsg → smsg.ready < i

theorem Turn.later (h : Turn l l') (hl : l.Pairwise Later) : l'.Pairwise Later := by
  have hquiet {f : Frame} {l : List Frame} (hf : f.call? = none) (hl : l.Pairwise Later) : (f :: l).Pairwise Later :=
    List.pairwise_cons.mpr ⟨fun _ _ i hi => (by rw [hf] at hi; cases hi), hl⟩
  cases h with
  | enter l => exact hquiet rfl hl.of_cons
  | finish l => exact hl.of_cons
  | send l hne => exact hquiet rfl hl
  | stop => exact .nil
  | wait | timeout => exact List.pairwise_singleton _ _
  | receive | peek | dispatch | io => exact hquiet rfl (List.pairwise_singleton _ _)

theorem later_of_step (hdoes : Does s t s') (hanswerable : s.Answerable) (h : ∀ u, (s.stack u).Pairwise Later) :
    ∀ u, (s'.stack u).Pairwise Later := by
  have hquiet {f : Frame} {l : List Frame} (hf : f.call? = none) (hl : l.Pairwise Later) : (f :: l).Pairwise Later :=
    List.pairwise_cons.mpr ⟨fun _ _ i hi => (by rw [hf] at hi; cases hi), hl⟩
  -- The same call stands in front.
  have hsame {f f' : Frame} {l : List Frame} (hf : s.stack t = f :: l) (hcall : f'.call? = f.call?) :
      (f' :: l).Pairwise Later := by
    have hold := h t
    rw [hf] at hold
    obtain ⟨hfirst, hrest⟩ := List.pairwise_cons.mp hold
    exact List.pairwise_cons.mpr ⟨fun g hg i hi => hfirst g hg i (hcall ▸ hi), hrest⟩
  intro u
  cases hdoes with
  | turn l hturn => exact update_keeps (h u) fun _ _ => hturn.later (h t)
  | skip l hentering hnone => exact update_below hentering List.Pairwise.of_cons (h u)
  | received l hreceiving hlist => exact update_below hreceiving List.Pairwise.of_cons (h u)
  | receive m rest l hreceiving hlist => exact update_keeps (h u) fun _ _ => hquiet rfl (hreceiving ▸ h t)
  | finish m l htasks hhandling => exact update_below hhandling List.Pairwise.of_cons (h u)
  | leave i waited l htasks hsending hready => exact update_below hsending List.Pairwise.of_cons (h u)
  | loop i waited l hsending hready => exact update_keeps (h u) fun _ _ => hquiet rfl (hsame hsending rfl)
  | wokenIdle hidle => exact update_keeps (h u) fun _ _ => List.pairwise_singleton _ _
  | woken i waited l hwaiting => exact update_keeps (h u) fun _ _ => hsame hwaiting rfl
  | push target msg htasks =>
    refine update_keeps (h u) fun _ _ => List.pairwise_cons.mpr ⟨fun g hg i hi smsg hhandled => ?_, h t⟩
    obtain rfl := Option.some.inj hi
    have hg' : g = .handling smsg := by
      cases g with
      | handling m => exact congrArg _ (Option.some.inj hhandled)
      | _ => cases hhandled
    exact hanswerable.known smsg ⟨t, Or.inr (Or.inl (hg' ▸ hg))⟩
  | _ => exact h u

/-! ### The stack stands on the loop of the thread -/

inductive Based : List Frame → Prop
  | ended : Based []
  | getting : Based [.getting]
  | received : Based [.received]
  | idle : Based [.idle]
  | call (f : Frame) (l : List Frame) (hf : f.base = false) (hl : l ≠ []) (h : Based l) : Based (f :: l)

theorem Based.rest {f : Frame} (hf : f.base = false) (h : Based (f :: l)) : l ≠ [] ∧ Based l := by
  cases h with
  | call _ _ _ hl h => exact ⟨hl, h⟩
  | getting | received | idle => cases hf

theorem Turn.based (h : Turn l l') (hl : Based l) : Based l' := by
  cases h with
  | receive => exact .call _ _ rfl (List.cons_ne_nil _ _) .received
  | peek | dispatch => exact .call _ _ rfl (List.cons_ne_nil _ _) .getting
  | io => exact .call _ _ rfl (List.cons_ne_nil _ _) .idle
  | stop => exact .ended
  | wait => exact .idle
  | timeout => exact .getting
  | enter l =>
    obtain ⟨hne, hbelow⟩ := hl.rest rfl
    exact .call _ _ rfl hne hbelow
  | finish l => exact (hl.rest rfl).2
  | send l hne => exact .call _ _ rfl hne hl

theorem based_of_step (hdoes : Does s t s') (h : ∀ u, Based (s.stack u)) : ∀ u, Based (s'.stack u) := by
  have hrest {f : Frame} {l : List Frame} (hf : s.stack t = f :: l) (hbase : f.base = false) : l ≠ [] ∧ Based l :=
    (hf ▸ h t : Based (f :: l)).rest hbase
  intro u
  cases hdoes with
  | turn l hturn => exact update_keeps (h u) fun _ _ => hturn.based (h t)
  | skip l hentering hnone => exact update_below hentering (fun h => (h.rest rfl).2) (h u)
  | received l hreceiving hlist => exact update_below hreceiving (fun h => (h.rest rfl).2) (h u)
  | receive m rest l hreceiving hlist =>
    exact update_keeps (h u) fun _ _ => .call _ _ rfl (List.cons_ne_nil _ _) (hreceiving ▸ h t)
  | finish m l htasks hhandling => exact update_below hhandling (fun h => (h.rest rfl).2) (h u)
  | leave i waited l htasks hsending hready => exact update_below hsending (fun h => (h.rest rfl).2) (h u)
  | loop i waited l hsending hready =>
    obtain ⟨hne, hl⟩ := hrest hsending rfl
    exact update_keeps (h u) fun _ _ => .call _ _ rfl (List.cons_ne_nil _ _) (.call _ _ rfl hne hl)
  | wokenIdle hidle => exact update_keeps (h u) fun _ _ => .getting
  | woken i waited l hwaiting =>
    obtain ⟨hne, hl⟩ := hrest hwaiting rfl
    exact update_keeps (h u) fun _ _ => .call _ _ rfl hne hl
  | push target msg htasks hne => exact update_keeps (h u) fun _ _ => .call _ _ rfl hne (h t)
  | _ => exact h u

/-! ### All together -/

structure Sound (s : Threads) : Prop where
  answerable : s.Answerable
  has_sends : ∀ u, s.sendlist_ u ≠ [] → s.has_sends_ u
  heard : ∀ u, s.Noticed u ∨ s.sendlist_ u = [] ∨ Looks (s.stack u)
  attended : ∀ u, s.Noticed u ∨ Attended s.ready (s.stack u)
  later : ∀ u, (s.stack u).Pairwise Later
  based : ∀ u, Based (s.stack u)

theorem sound_new : new.Sound :=
  ⟨answerable_new, fun _ h => absurd rfl h, fun _ => Or.inr (Or.inl rfl),
    fun _ => Or.inr ⟨fun _ _ heq => (by cases heq), Or.inr trivial⟩, fun _ => List.pairwise_singleton _ _,
    fun _ => .idle⟩

theorem Sound.step (h : s.Sound) (hdoes : Does s t s') : s'.Sound where
  answerable := h.answerable.step hdoes
  has_sends := has_sends_of_step hdoes h.has_sends
  heard u := by
    rcases h.heard u with hnoticed | hheard
    · rcases noticed_of_step hdoes hnoticed with hnoticed | ⟨-, hstack | ⟨i, l, hstack⟩⟩
      · exact Or.inl hnoticed
      · exact Or.inr (Or.inr (hstack ▸ trivial))
      · exact Or.inr (Or.inr (hstack ▸ Or.inl rfl))
    · exact heard_of_step hdoes h.has_sends hheard
  attended u := by
    rcases h.attended u with hnoticed | hattended
    · rcases noticed_of_step hdoes hnoticed with hnoticed | ⟨-, hstack | ⟨i, l, hstack⟩⟩
      · exact Or.inl hnoticed
      · exact Or.inr (hstack ▸ ⟨fun _ _ heq => (by cases heq), Or.inr trivial⟩)
      · exact Or.inr (hstack ▸ ⟨fun _ _ heq => (by cases heq), Or.inl rfl⟩)
    · exact attended_of_step hdoes h.answerable hattended
  later := later_of_step hdoes h.answerable h.later
  based := based_of_step hdoes h.based

theorem sound_of_run {es : List ThreadStep} (hrun : run new es = some s) : s.Sound :=
  Machine.run_keeps (fun _ _ _ _ h hstep => Sound.step h (does_of_step hstep)) sound_new hrun

/-- A thread that stands in a `Wait` and has not been woken up. -/
structure Asleep (s : Threads) (t : Nat) : Prop where
  fSignaled_ : s.fSignaled_ t = false
  tasks : s.tasks t = []
  stack : s.stack t = [.idle] ∨ ∃ i waited l, s.stack t = .waiting i waited :: l

/-- A thread that cannot go on is asleep. -/
theorem asleep_of_stuck (hbased : Based (s.stack t)) (hrunning : s.stack t ≠ []) (hgo : s.step ⟨t, .go⟩ = none)
    (hfinish : s.step ⟨t, .finish⟩ = none) : s.Asleep t := by
  unfold step at hgo hfinish
  dsimp only at hgo hfinish
  cases htasks : s.tasks t with
  | cons task ts =>
    rw [htasks] at hgo
    cases task <;> cases hgo
  | nil =>
    rw [htasks] at hgo hfinish
    generalize hstack : s.stack t = stack at hbased hrunning hgo hfinish
    cases hbased with
    | ended => exact absurd rfl hrunning
    | getting => cases hgo
    | received => cases hgo
    | idle =>
      refine ⟨Bool.eq_false_iff.mpr fun hsignaled => ?_, htasks, Or.inl hstack⟩
      dsimp only at hgo
      rw [if_pos hsignaled] at hgo
      cases hgo
    | call f l hf hl h =>
      cases f with
      | getting | received | idle => cases hf
      | dispatching | handling smsg => cases hfinish
      | entering => cases hgo
      | receiving =>
        dsimp only at hgo
        split at hgo <;> cases hgo
      | sending i waited =>
        dsimp only at hgo
        split at hgo <;> cases hgo
      | waiting i waited =>
        refine ⟨Bool.eq_false_iff.mpr fun hsignaled => ?_, htasks, Or.inr ⟨i, waited, l, hstack⟩⟩
        dsimp only at hgo
        rw [if_pos hsignaled] at hgo
        cases hgo

/-- What a thread waits for while all are asleep is handled by a thread that waits for something younger. -/
theorem exists_later (h : s.Sound) (hasleep : ∀ t, s.Asleep t) {i : Nat} {waited : Bool} {l : List Frame}
    (hstack : s.stack t = .waiting i waited :: l) :
    i < s.sends ∧ ∃ u j waited' l', s.stack u = .waiting j waited' :: l' ∧ i < j := by
  have hunnoticed (u : Nat) : ¬ s.Noticed u := by
    rintro (h | ⟨v, h⟩)
    · exact Bool.false_ne_true ((hasleep u).fSignaled_.symm.trans h)
    · rw [(hasleep v).tasks] at h
      cases h
  obtain ⟨hi, hanswered⟩ := h.answerable.calls t i ⟨_, hstack ▸ List.mem_cons_self, rfl⟩
  have hready : s.ready i = false := by
    have hattended := (h.attended t).resolve_left (hunnoticed t)
    rw [hstack] at hattended
    exact hattended.1 i waited rfl
  obtain ⟨smsg, ⟨u, hpending⟩, rfl⟩ := hanswered.resolve_left (hready ▸ Bool.false_ne_true)
  refine ⟨hi, u, ?_⟩
  rcases hpending with hlist | hhandling | htask
  · have hheard := (h.heard u).resolve_left (hunnoticed u)
    obtain hnil | hlooks := hheard
    · rw [hnil] at hlist
      cases hlist
    · rcases (hasleep u).stack with hidle | ⟨j, waited', l', hwaiting⟩
      · rw [hidle] at hlooks
        cases hlooks
      · rw [hwaiting] at hlooks
        cases hlooks
  · rcases (hasleep u).stack with hidle | ⟨j, waited', l', hwaiting⟩
    · rw [hidle] at hhandling
      cases List.mem_singleton.mp hhandling
    · refine ⟨j, waited', l', hwaiting, ?_⟩
      have hlater := h.later u
      rw [hwaiting] at hlater hhandling
      rcases List.mem_cons.mp hhandling with hhandling | hhandling
      · cases hhandling
      · exact (List.pairwise_cons.mp hlater).1 _ hhandling j rfl smsg rfl
  · rw [(hasleep u).tasks] at htask
    cases htask

/-- Two threads that send to each other at the same time. -/
def crossing : List ThreadStep :=
  [⟨0, .dispatch⟩, ⟨0, .send 1 ⟨some 1, 5, none, 0⟩⟩, ⟨0, .go⟩, ⟨0, .go⟩, ⟨1, .go⟩, ⟨1, .go⟩, ⟨1, .go⟩, ⟨1, .go⟩,
    ⟨1, .send 0 ⟨some 2, 6, none, 0⟩⟩, ⟨1, .go⟩, ⟨1, .go⟩, ⟨1, .go⟩, ⟨0, .go⟩, ⟨0, .go⟩, ⟨0, .finish⟩, ⟨0, .go⟩, ⟨0, .go⟩,
    ⟨0, .go⟩, ⟨0, .go⟩, ⟨0, .go⟩, ⟨0, .go⟩, ⟨1, .go⟩, ⟨1, .go⟩, ⟨1, .go⟩, ⟨1, .go⟩, ⟨1, .finish⟩, ⟨1, .go⟩, ⟨1, .go⟩,
    ⟨1, .go⟩, ⟨1, .go⟩, ⟨1, .go⟩, ⟨1, .go⟩, ⟨1, .go⟩, ⟨1, .go⟩, ⟨0, .go⟩, ⟨0, .go⟩, ⟨0, .go⟩, ⟨0, .finish⟩, ⟨0, .go⟩,
    ⟨0, .go⟩, ⟨0, .go⟩, ⟨0, .go⟩]

theorem isSome_crossing : (new.run crossing).isSome := by decide

def afterCrossing : Threads := (new.run crossing).get isSome_crossing

theorem run_crossing : new.run crossing = some afterCrossing := (Option.some_get isSome_crossing).symm

theorem running_crossing (t : Nat) : afterCrossing.stack t ≠ [] := by
  match t with
  | 0 => decide
  | 1 => decide
  | t + 2 => exact List.cons_ne_nil Frame.idle []

theorem stuck_crossing (t : Nat) : afterCrossing.step ⟨t, .go⟩ = none ∧ afterCrossing.step ⟨t, .finish⟩ = none := by
  match t with
  | 0 => exact ⟨rfl, rfl⟩
  | 1 => exact ⟨rfl, rfl⟩
  | t + 2 => exact ⟨rfl, rfl⟩

/-- Threads never block each other: when none of them can go on, each is in the `Wait` of its own `Get`, and nothing has
    been sent to it. -/
theorem unblocked_of_run {es : List ThreadStep} (hrun : run new es = some s) (hrunning : ∀ t, s.stack t ≠ [])
    (hstuck : ∀ t, s.step ⟨t, .go⟩ = none ∧ s.step ⟨t, .finish⟩ = none) (t : Nat) :
    s.stack t = [.idle] ∧ s.sendlist_ t = [] := by
  have hsound := sound_of_run hrun
  have hasleep (t : Nat) : s.Asleep t := asleep_of_stuck (hsound.based t) (hrunning t) (hstuck t).1 (hstuck t).2
  -- The youngest call has nobody to wait for.
  have hnobody (n : Nat) : ∀ t i waited l, s.sends - i ≤ n → s.stack t ≠ .waiting i waited :: l := by
    induction n with
    | zero =>
      intro t i waited l hn hstack
      have hi := (exists_later hsound hasleep hstack).1
      omega
    | succ n ih =>
      intro t i waited l hn hstack
      obtain ⟨hi, u, j, waited', l', hwaiting, hj⟩ := exists_later hsound hasleep hstack
      exact ih u j waited' l' (by omega) hwaiting
  have hidle : s.stack t = [.idle] :=
    (hasleep t).stack.resolve_right fun ⟨i, waited, l, hstack⟩ => hnobody _ t i waited l (Nat.le_refl _) hstack
  refine ⟨hidle, ?_⟩
  rcases hsound.heard t with (h | ⟨u, h⟩) | h | h
  · exact absurd ((hasleep t).fSignaled_.symm.trans h) Bool.false_ne_true
  · rw [(hasleep u).tasks] at h
    cases h
  · exact h
  · rw [hidle] at h
    cases h

theorem unblocked_crossing : afterCrossing.stack 1 = [.idle] ∧ afterCrossing.sendlist_ 1 = [] :=
  unblocked_of_run run_crossing running_crossing stuck_crossing 1

end ProbICE.TalkBase.Threads
