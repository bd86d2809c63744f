import ProbICE.Lib.Machine
import ProbICE.Theorems.Tasks

/-! # Initiate messages are answered

A session takes an initiate message for any content, and the prober posts the answer for its own content only. An offer
of another content leaves the session waiting for ever. -/

namespace ProbICE

section
variable [Host]

namespace IceProber

/-- The initiate message that a session in `init` takes offers the content of the prober. -/
def Matching (p : IceProber) (e : Event) : Prop :=
  ∀ s, p.session = some s → s.state = .init → ∀ content, firstOffer (p.heard e) = some content → content = p.content_name

/-- The session is made once, and nothing is posted about an initiate message that has not been taken. -/
structure Orderly (p : IceProber) : Prop where
  settled : p.Settled
  once : p.tasks.count .createSession + p.session.isSome.toNat ≤ 1
  unasked : (∀ s, p.session = some s → s.state = .init) → p.tasks.count .doAccept = 0

theorem orderly_Login (output : Bool) (myName remoteName : CString) : (Login output myName remoteName).Orderly where
  settled s hs := by cases hs
  once := by simp [Login]
  unasked _ := by simp [Login]

theorem Orderly.works {p q : IceProber} {offer : Option CString} (h : p.Orderly) (hworks : Works offer p q) : q.Orderly := by
  obtain ⟨hsettled, hcases⟩ := hworks.session h.settled
  have hunasked := h.unasked
  have honce := h.once
  obtain ⟨hp, hq, haccepts⟩ | ⟨s, t, posted, hp, hq, haccepts, hproceeds⟩ := hcases
  · refine ⟨hsettled, ?_, fun _ => ?_⟩
    · rw [hworks.creates, hq, ← hp]
      exact honce
    · rw [haccepts]
      exact hunasked fun s hs => by simp [hp] at hs
  · refine ⟨hsettled, ?_, fun hinit => ?_⟩
    · rw [hworks.creates, hq]
      simpa [hp] using honce
    · have ht := hinit t hq
      obtain ⟨hstate, -, rfl, -⟩ | ⟨-, hstate, -, -⟩ | ⟨-, hafter, -, -⟩ := hproceeds.way
      · rw [haccepts, Nat.add_zero]
        refine hunasked fun s' hs' => ?_
        obtain rfl := Option.some.inj (hp.symm.trans hs')
        exact hstate.symm.trans ht
      · rw [hstate] at ht
        cases ht
      · exact absurd ht hafter.1

/-- One of the three messages is dispatched. -/
theorem Orderly.three {p : IceProber} {i : Nat} {task : Task} (h : p.Orderly) (htask : p.tasks[i]? = some task) :
    (p.without i).Settled ∧
      (task = .createSession → p.session = none ∧ (p.without i).tasks.count .createSession = 0 ∧
        (p.without i).tasks.count .doAccept = 0) ∧
      (task = .doAccept → ∃ s, p.session = some s ∧ s.state ≠ .init) := by
  have hcreates := count_without htask .createSession
  have haccepts := count_without htask .doAccept
  have honce := h.once
  refine ⟨h.settled, ?_, ?_⟩
  · rintro rfl
    rw [if_pos rfl] at hcreates
    have hnone : p.session = none := by
      rcases hs : p.session with _ | s
      · rfl
      · rw [hs, Option.isSome_some, Bool.toNat_true] at honce
        omega
    have hzero := h.unasked fun s hs => by simp [hnone] at hs
    refine ⟨hnone, by omega, ?_⟩
    rw [if_neg (by decide)] at haccepts
    omega
  · rintro rfl
    by_contra hno
    push Not at hno
    have hzero := h.unasked hno
    rw [if_pos rfl] at haccepts
    omega

/-- What the dispatch of one of the three messages does: the prober is `p` without the message before, and `q` behind. -/
inductive Serves (p q : IceProber) : Task → Prop where
  | create (hnone : p.session = none) (haccepts : p.tasks.count .doAccept = 0) (hsame : p.SameTasks q)
    (hsubscriptions : q.subscriptions = p.subscriptions) (t : PPSession) (ht : q.session = some t) (hinit : t.state = .init)
    (hoperates : p.newSession.Operates False t) : Serves p q .createSession
  /-- There is no session yet. -/
  | early (hnone : p.session = none) (hq : q = p.record .nullSession) : Serves p q .doInitiate
  | initiate (s : PPSession) (hs : p.session = some s) (r : IceProber) (t : PPSession) (hq : q = r.setupTarget)
    (hsame : p.SameTasks r) (hsubscriptions : r.subscriptions = p.subscriptions) (ht : r.session = some t)
    (hcases : (s.state = .init ∧ t.state = .sentInitiate) ∨
      (s.state ≠ .init ∧ t.state = s.state ∧ t.content_name = s.content_name ∧ s.Operates False t)) : Serves p q .doInitiate
  | accept (s : PPSession) (hs : p.session = some s) (hbefore : s.state ≠ .init) (r : IceProber) (t : PPSession)
    (hq : q = r.setupTarget) (hsame : p.SameTasks r) (hsubscriptions : r.subscriptions = p.subscriptions)
    (ht : r.session = some t) (hstate : t.state = if s.state = .receivedInitiate then .sentAccept else s.state)
    (hname : t.content_name = s.content_name) (hoperates : s.Operates False t) : Serves p q .doAccept

theorem Orderly.serves {p : IceProber} {i : Nat} {task : Task} (h : p.Orderly) (htask : p.tasks[i]? = some task)
    (hthree : task = .createSession ∨ task = .doInitiate ∨ task = .doAccept) (connectFails : Bool) :
    Serves (p.without i) ((p.without i).dispatch connectFails task) task ∧
      ((p.without i).dispatch connectFails task).Settled := by
  obtain ⟨hsettled, hcreate, haccept⟩ := h.three htask
  rcases hthree with rfl | rfl | rfl
  · obtain ⟨hnone, -, haccepts⟩ := hcreate rfl
    obtain ⟨hsame, hsubscriptions, hsettled', t, ht, hinit, hoperates⟩ := (p.without i).createSession_spec
    exact ⟨.create hnone haccepts hsame hsubscriptions t ht hinit hoperates, hsettled'⟩
  · rcases hs : (p.without i).session with _ | s
    · have hrecord : (p.without i).dispatch connectFails .doInitiate = (p.without i).record .nullSession := by
        rw [dispatch, doInitiate_s, hs]
      rw [hrecord]
      exact ⟨.early hs rfl, hsettled⟩
    · obtain ⟨r, t, hq, hsame, hsubscriptions, hsettled', ht, hcases⟩ := doInitiate_spec hsettled hs
      refine ⟨.initiate s hs r t hq hsame hsubscriptions ht hcases, fun u hu => hsettled' u ?_⟩
      rw [dispatch, hq, r.setupTarget_spec.2.1] at hu
      exact hu
  · obtain ⟨s, hs, hbefore⟩ := haccept rfl
    obtain ⟨r, t, hq, hsame, hsubscriptions, hsettled', ht, hstate, hname, hoperates⟩ := doAccept_spec hsettled hs
    refine ⟨.accept s hs hbefore r t hq hsame hsubscriptions ht hstate hname hoperates, fun u hu => hsettled' u ?_⟩
    rw [dispatch, hq, r.setupTarget_spec.2.1] at hu
    exact hu

/-- The tasks behind `setupTarget` are those before it. -/
theorem SameTasks.setupTarget {p r : IceProber} (h : p.SameTasks r) : p.SameTasks r.setupTarget := h.trans r.setupTarget_spec.1

/-- A dispatch to the session that ends in `setupTarget`. -/
theorem Orderly.setupTarget {p r : IceProber} {s t : PPSession} (h : p.Orderly) (hs : p.session = some s) {i : Nat}
    (hsame : (p.without i).SameTasks r) (ht : r.session = some t) (hstate : t.state ≠ .init)
    (hless : (p.without i).tasks.count .createSession ≤ p.tasks.count .createSession)
    (hsettled : r.setupTarget.Settled) : r.setupTarget.Orderly := by
  have hsession : r.setupTarget.session = some t := r.setupTarget_spec.2.1.trans ht
  refine ⟨hsettled, ?_, fun hinit => absurd (hinit t hsession) hstate⟩
  rw [hsame.setupTarget.creates, hsession]
  have honce := h.once
  rw [hs] at honce
  exact (Nat.add_le_add_right hless _).trans honce

theorem Orderly.served {p q : IceProber} {i : Nat} {task : Task} (h : p.Orderly) (htask : p.tasks[i]? = some task)
    (hserves : Serves (p.without i) q task) (hsettled : q.Settled) : q.Orderly := by
  have honce := h.once
  have hcreates := count_without htask .createSession
  cases hserves with
  | create hnone haccepts hsame hsubscriptions t ht hinit hoperates =>
    obtain ⟨-, hzero, -⟩ := (h.three htask).2.1 rfl
    refine ⟨hsettled, ?_, fun _ => hsame.accepts.trans haccepts⟩
    rw [hsame.creates, hzero, ht]
    rfl
  | early hnone hq =>
    subst hq
    refine ⟨hsettled, ?_, fun _ => ?_⟩
    · have hsession : ((p.without i).record .nullSession).session = p.session := rfl
      rw [hsession]
      exact (Nat.add_le_add_right (Nat.le_of_add_right_le (Nat.le_of_eq hcreates)) _).trans honce
    · have hzero := h.unasked fun s hs => by
        rw [show p.session = none from hnone] at hs
        cases hs
      have haccepts := count_without htask .doAccept
      rw [if_neg (by decide), hzero] at haccepts
      exact haccepts
  | initiate s hs r t hq hsame hsubscriptions ht hcases =>
    subst hq
    refine h.setupTarget hs hsame ht ?_ (Nat.le_of_add_right_le (Nat.le_of_eq hcreates)) hsettled
    obtain ⟨-, hsent⟩ | ⟨hne, hstate, -⟩ := hcases
    · rw [hsent]
      decide
    · rw [hstate]
      exact hne
  | accept s hs hbefore r t hq hsame hsubscriptions ht hstate hname hoperates =>
    subst hq
    refine h.setupTarget hs hsame ht ?_ (Nat.le_of_add_right_le (Nat.le_of_eq hcreates)) hsettled
    rw [hstate]
    split
    · decide
    · exact hbefore

/-- The events of an orderly prober. -/
theorem Orderly.step_cases {p q : IceProber} {e : Event} (h : p.Orderly) (hstep : p.step e = some q) :
    q.Orderly ∧
      ((∃ i connectFails task, e = .dispatch i connectFails ∧ p.tasks[i]? = some task ∧ Serves (p.without i) q task) ∨
        (Works (firstOffer (p.heard e)) p q ∧ ∀ i connectFails, e = .dispatch i connectFails →
          ∀ task, p.tasks[i]? = some task → task ≠ .createSession ∧ task ≠ .doInitiate ∧ task ≠ .doAccept)) := by
  obtain ⟨i, connectFails, task, rfl, htask, hthree, rfl⟩ | hworks := IceProber.step_cases hstep
  · obtain ⟨hserves, hsettled⟩ := h.serves htask hthree connectFails
    exact ⟨h.served htask hserves hsettled, .inl ⟨i, connectFails, task, rfl, htask, hserves⟩⟩
  · exact ⟨h.works hworks.1, .inr hworks⟩

/-! ### Offers that match and offers that do not -/

/-- An initiate message that waits for its answer is for the content of the prober, and the answer is posted. -/
structure Answering (p : IceProber) : Prop extends p.Orderly where
  posted : ∀ s, p.session = some s → s.state = .receivedInitiate →
    s.content_name = p.content_name ∧ p.tasks.count .doAccept ≠ 0

/-- An initiate message for another content waits for ever. -/
structure Stuck (p : IceProber) : Prop extends p.Orderly where
  other : ∃ s, p.session = some s ∧ s.state = .receivedInitiate ∧ s.content_name ≠ p.content_name
  unposted : p.tasks.count .doAccept = 0

theorem answering_Login (output : Bool) (myName remoteName : CString) : (Login output myName remoteName).Answering where
  toOrderly := orderly_Login output myName remoteName
  posted s hs := by cases hs

theorem Answering.step {p q : IceProber} {e : Event} (h : p.Answering) (hmatching : p.Matching e)
    (hstep : p.step e = some q) : q.Answering := by
  obtain ⟨horderly, ⟨i, connectFails, task, rfl, htask, hserves⟩ | ⟨hworks, -⟩⟩ := h.toOrderly.step_cases hstep
  · refine ⟨horderly, fun u hu hreceived => ?_⟩
    cases hserves with
    | create hnone haccepts hsame hsubscriptions t ht hinit hoperates =>
      obtain rfl := Option.some.inj (ht.symm.trans hu)
      rw [hinit] at hreceived
      cases hreceived
    | early hnone hq =>
      subst hq
      rw [show ((p.without i).record .nullSession).session = none from hnone] at hu
      cases hu
    | initiate s hs r t hq hsame hsubscriptions ht hcases =>
      subst hq
      obtain rfl := Option.some.inj ((r.setupTarget_spec.2.1.trans ht).symm.trans hu)
      obtain ⟨-, hsent⟩ | ⟨-, hstate, hname, -⟩ := hcases
      · rw [hsent] at hreceived
        cases hreceived
      · obtain ⟨hown, hposted⟩ := h.posted s hs (hstate.symm.trans hreceived)
        have haccepts := count_without htask .doAccept
        rw [if_neg (by decide), Nat.add_zero] at haccepts
        refine ⟨(hname.trans hown).trans hsame.setupTarget.content_name.symm, ?_⟩
        rwa [hsame.setupTarget.accepts, haccepts]
    | accept s hs hbefore r t hq hsame hsubscriptions ht hstate hname hoperates =>
      subst hq
      obtain rfl := Option.some.inj ((r.setupTarget_spec.2.1.trans ht).symm.trans hu)
      rw [hstate] at hreceived
      split at hreceived
      · cases hreceived
      · rename_i hno
        exact absurd hreceived hno
  · refine ⟨horderly, fun u hu hreceived => ?_⟩
    obtain ⟨-, hq, -⟩ | ⟨s, t, posted, hp, hq, haccepts, hproceeds⟩ := (hworks.session h.settled).2
    · rw [hq] at hu
      cases hu
    · obtain rfl := Option.some.inj (hq.symm.trans hu)
      rw [hworks.content_name, haccepts]
      obtain ⟨hstate, hname, rfl, -⟩ | ⟨hinit, -, hoffer, hposted⟩ | ⟨-, hafter, -, -⟩ := hproceeds.way
      · rw [hname, Nat.add_zero]
        exact h.posted s hp (hstate.symm.trans hreceived)
      · have hown := hmatching s hp hinit t.content_name hoffer
        rw [if_pos hown] at hposted
        exact ⟨hown, by omega⟩
      · exact absurd hreceived hafter.2

/-- The first offer that does not match is taken all the same. -/
theorem Answering.stuck {p q : IceProber} {e : Event} (h : p.Answering) (hmatching : ¬ p.Matching e)
    (hstep : p.step e = some q) : q.Stuck := by
  simp only [Matching, not_forall] at hmatching
  obtain ⟨s, hs, hinit, content, hoffer, hother⟩ := hmatching
  obtain ⟨horderly, ⟨i, connectFails, task, rfl, -⟩ | ⟨hworks, -⟩⟩ := h.toOrderly.step_cases hstep
  · cases hoffer
  · obtain ⟨hp, -⟩ | ⟨s', t, posted, hp, hq, haccepts, hproceeds⟩ := (hworks.session h.settled).2
    · rw [hp] at hs
      cases hs
    · obtain rfl := Option.some.inj (hp.symm.trans hs)
      obtain ⟨-, -, -, hnone⟩ | ⟨-, hstate, hname, hposted⟩ | ⟨hbefore, -, -, -⟩ := hproceeds.way
      · rw [hnone hinit] at hoffer
        cases hoffer
      · obtain rfl := Option.some.inj (hname.symm.trans hoffer)
        rw [if_neg hother] at hposted
        have hunasked := h.unasked fun u hu => by
          obtain rfl := Option.some.inj (hp.symm.trans hu)
          exact hinit
        refine ⟨horderly, ⟨t, hq, hstate, ?_⟩, by omega⟩
        rwa [hworks.content_name]
      · exact absurd hinit hbefore.1

theorem Stuck.step {p q : IceProber} {e : Event} (h : p.Stuck) (hstep : p.step e = some q) : q.Stuck := by
  obtain ⟨s, hs, hreceived, hother⟩ := h.other
  obtain ⟨horderly, ⟨i, connectFails, task, rfl, htask, hserves⟩ | ⟨hworks, -⟩⟩ := h.toOrderly.step_cases hstep
  · have haccepts := count_without htask .doAccept
    have hunposted := h.unposted
    cases hserves with
    | create hnone =>
      rw [show p.session = none from hnone] at hs
      cases hs
    | early hnone =>
      rw [show p.session = none from hnone] at hs
      cases hs
    | initiate s' hs' r t hq hsame hsubscriptions ht hcases =>
      subst hq
      obtain rfl := Option.some.inj (hs.symm.trans hs')
      obtain ⟨hinit, -⟩ | ⟨-, hstate, hname, -⟩ := hcases
      · rw [hreceived] at hinit
        cases hinit
      · refine ⟨horderly, ⟨t, r.setupTarget_spec.2.1.trans ht, hstate.trans hreceived, ?_⟩, ?_⟩
        · rw [hname, hsame.setupTarget.content_name]
          exact hother
        · rw [hsame.setupTarget.accepts]
          omega
    | accept =>
      rw [if_pos rfl] at haccepts
      omega
  · obtain ⟨hp, -⟩ | ⟨s', t, posted, hp, hq, haccepts, hproceeds⟩ := (hworks.session h.settled).2
    · rw [hp] at hs
      cases hs
    · obtain rfl := Option.some.inj (hp.symm.trans hs)
      obtain ⟨hstate, hname, rfl, -⟩ | ⟨hinit, -, -, -⟩ | ⟨hbefore, -, -, -⟩ := hproceeds.way
      · refine ⟨horderly, ⟨t, hq, hstate.trans hreceived, ?_⟩, ?_⟩
        · rwa [hname, hworks.content_name]
        · rw [haccepts, h.unposted]
      · rw [hreceived] at hinit
        cases hinit
      · exact absurd hreceived hbefore.2

/-- When nothing is posted any more, no initiate message is left without an answer, exactly if every initiate message that
    the session has taken was for the content of the prober. -/
theorem initiates_answered {output : Bool} {myName remoteName : CString} {es : List Event} {p : IceProber}
    (hrun : Machine.run step (Login output myName remoteName) es = some p) (hquiet : p.tasks = []) :
    (∀ s, p.session = some s → s.state ≠ .receivedInitiate) ↔
      Machine.Along step Matching (Login output myName remoteName) es := by
  obtain ⟨halong, hanswering⟩ | ⟨hnot, hstuck⟩ := Machine.along_or_left (I := Answering) (D := Stuck)
    (fun _ _ _ h hmatching hstep => h.step hmatching hstep) (fun _ _ _ h hmatching hstep => h.stuck hmatching hstep)
    (fun _ _ _ h hstep => h.step hstep) (answering_Login output myName remoteName) hrun
  · refine iff_of_true (fun s hs hreceived => ?_) halong
    have hposted := (hanswering.posted s hs hreceived).2
    rw [hquiet] at hposted
    exact hposted rfl
  · obtain ⟨s, hs, hreceived, -⟩ := hstuck.other
    exact iff_of_false (fun hall => hall s hs hreceived) hnot

end IceProber

end

/-! ### An offer of the content and one of another content -/

namespace IceProber
attribute [local instance] Host.plain

/-- The prober is connected, an initiate message comes in, and then some messages are dispatched. -/
def offered (content : String) (dispatches : Nat) : List Event :=
  [.dispatch 0 false, .dispatch 0 false, .connect, .read (cstr "<message:b:pp_initiate:" ++ cstr content ++ cstr ">")] ++
    List.replicate dispatches (.dispatch 0 false)

theorem initiates_answered_data :
    Machine.Along step Matching (Login false (cstr "a") (cstr "b")) (offered "data" 6) := by
  obtain ⟨p, hrun⟩ := Option.isSome_iff_exists.mp
    (show (Machine.run step (Login false (cstr "a") (cstr "b")) (offered "data" 6)).isSome = true by decide)
  have hend : (Machine.run step (Login false (cstr "a") (cstr "b")) (offered "data" 6)).all
      (fun p => p.tasks = [] ∧ p.session.all fun s => s.state ≠ .receivedInitiate) = true := by decide
  rw [hrun, Option.all_some, decide_eq_true_iff] at hend
  refine (initiates_answered hrun hend.1).mp fun s hs => ?_
  have hstate := hend.2
  rw [hs, Option.all_some, decide_eq_true_iff] at hstate
  exact hstate

/-- The offer of another content is taken and never answered. -/
theorem other_offer_unanswered :
    ∃ p s, Machine.run step (Login false (cstr "a") (cstr "b")) (offered "other" 1) = some p ∧ p.tasks = [] ∧
      p.session = some s ∧ s.state = .receivedInitiate := by
  obtain ⟨p, hrun⟩ := Option.isSome_iff_exists.mp
    (show (Machine.run step (Login false (cstr "a") (cstr "b")) (offered "other" 1)).isSome = true by decide)
  have hend : (Machine.run step (Login false (cstr "a") (cstr "b")) (offered "other" 1)).all
      (fun p => p.tasks = [] ∧ p.session.any fun s => s.state = .receivedInitiate) = true := by decide
  rw [hrun, Option.all_some, decide_eq_true_iff] at hend
  obtain ⟨s, hs, hstate⟩ := (Option.any_eq_true _ _).mp hend.2
  exact ⟨p, s, hrun, hend.1, hs, decide_eq_true_iff.mp hstate⟩

end IceProber

end ProbICE
