import ProbICE.Heartbeat

/-! # One packet in a second

The handler of `SignalWritableState` is also the body of the timer, so each signal starts another timer, whatever the
channel is reported to be. There is one timer as long as the channel changes once, and a packet goes out of a channel
that is reported unwritable when its best connection is writable again and the channel has not been told. -/

namespace ProbICE
section
variable [Host]

namespace Heartbeat

/-- One timer, a packet from it once in a second at most, and no packet while the channel is reported unwritable. -/
structure OneBeat (h : Heartbeat) : Prop where
  timers : h.prober.dataTimers ≤ 1
  spaced : (h.sent.filter (·.periodic)).Pairwise fun x y => x.time + delay ≤ y.time
  writable : ∀ x ∈ h.sent, x.writable = true

/-- How often the channel changes, from `writable` on. -/
def changes : Bool → List Event → Nat
  | _, [] => 0
  | writable, .set_writable w :: es => if w = writable then changes writable es else changes w es + 1
  | writable, _ :: es => changes writable es

/-- The channel changes only when no timer is running. -/
def Single (h : Heartbeat) (e : Event) : Prop := ∀ w, e = .set_writable w → w ≠ h.writable → h.due = []

/-- A packet is let through only when the channel is reported writable, or is about to be. -/
def Reported (h : Heartbeat) : Event → Prop
  | .set_writable w => w ≠ h.writable → h.through = true → w = true
  | .doData _ => h.through = true → h.writable = true
  | _ => True

/-- What holds while the channel has changed at most once and lets no packet through unreported. -/
structure Beating (h : Heartbeat) : Prop extends OneBeat h where
  counted : h.prober.dataTimers = h.due.length
  past : ∀ x ∈ h.sent, x.time ≤ h.now
  later : ∀ time ∈ h.due, ∀ x ∈ h.sent, x.time + delay ≤ time

/-- There are two timers, or a packet has been sent while the channel was reported unwritable. -/
def Spoiled (h : Heartbeat) : Prop := 2 ≤ h.prober.dataTimers ∨ ∃ x ∈ h.sent, x.writable = false

theorem Beating.init {prober : IceProber} (h : prober.dataTimers = 0) (writable through : Bool) :
    (init prober writable through).Beating where
  timers := by simp [Heartbeat.init, h]
  spaced := by simp [Heartbeat.init]
  writable := by simp [Heartbeat.init]
  counted := h
  past := by simp [Heartbeat.init]
  later := by simp [Heartbeat.init]

theorem Spoiled.not_oneBeat {h : Heartbeat} (hspoiled : h.Spoiled) : ¬ h.OneBeat := by
  rintro ⟨htimers, -, hwritable⟩
  rcases hspoiled with htwo | ⟨x, hx, hfalse⟩
  · omega
  · rw [hwritable x hx] at hfalse
    cases hfalse

/-- What an event does. -/
theorem step_cases {h t : Heartbeat} {e : Event} (hstep : h.step e = some t) :
    (e = .set_writable h.writable ∧ t = h) ∨
      (∃ w, e = .set_writable w ∧ w ≠ h.writable ∧ t = { h with writable := w }.beat false h.prober.onChannelWriteable) ∨
      (∃ i time, e = .doData i ∧ h.due[i]? = some time ∧ time ≤ h.now ∧ 0 < h.prober.dataTimers ∧
        t = { h with due := h.due.eraseIdx i }.beat true
          { h.prober with dataTimers := h.prober.dataTimers - 1 }.onChannelWriteable) ∨
      (∃ milliseconds, e = .wait milliseconds ∧ t = { h with now := h.now + milliseconds }) ∨
      ∃ through, e = .connection through ∧ t = { h with through } := by
  cases e with
  | connection through => exact .inr (.inr (.inr (.inr ⟨through, rfl, (Option.some.inj hstep).symm⟩)))
  | set_writable w =>
    rw [step] at hstep
    split at hstep
    · rename_i hsame
      exact .inl ⟨by rw [hsame], (Option.some.inj hstep).symm⟩
    · rename_i hne
      obtain ⟨prober, hprober, rfl⟩ := Option.map_eq_some_iff.mp hstep
      obtain ⟨-, hprober⟩ := Option.ite_none_right_eq_some.mp hprober
      obtain rfl := Option.some.inj hprober
      exact .inr (.inl ⟨w, rfl, hne, rfl⟩)
  | doData i =>
    rw [step] at hstep
    split at hstep
    · cases hstep
    · rename_i time hdue
      obtain ⟨htime, hstep⟩ := Option.ite_none_right_eq_some.mp hstep
      obtain ⟨prober, hprober, rfl⟩ := Option.map_eq_some_iff.mp hstep
      obtain ⟨htimers, hprober⟩ := Option.ite_none_right_eq_some.mp hprober
      obtain rfl := Option.some.inj hprober
      exact .inr (.inr (.inl ⟨i, time, rfl, hdue, htime, htimers, rfl⟩))
  | wait milliseconds => exact .inr (.inr (.inr (.inl ⟨milliseconds, rfl, (Option.some.inj hstep).symm⟩)))

theorem beat_writable (h : Heartbeat) (periodic : Bool) (prober : IceProber) :
    (h.beat periodic prober).writable = h.writable := rfl

/-- The packets after a beat are the ones before it, and one more if it is let through. -/
theorem mem_sent_beat {h : Heartbeat} {periodic : Bool} {prober : IceProber} {x : Packet} :
    x ∈ (h.beat periodic prober).sent ↔
      x ∈ h.sent ∨ (h.through = true ∧ x = { time := h.now, periodic, writable := h.writable }) := by
  unfold beat
  dsimp only
  split
  · rename_i hthrough
    rw [List.mem_append, List.mem_singleton, and_iff_right hthrough]
  · rename_i hthrough
    exact ⟨.inl, fun hx => hx.resolve_right fun hx => hthrough hx.1⟩

/-- A beat after which there is one timer. -/
theorem Beating.beat {h : Heartbeat} (hspaced : (h.sent.filter (·.periodic)).Pairwise fun x y => x.time + delay ≤ y.time)
    (hsent : ∀ x ∈ h.sent, x.writable = true) (hpast : ∀ x ∈ h.sent, x.time ≤ h.now) (hdue : h.due = [])
    (hwritable : h.through = true → h.writable = true) {periodic : Bool} {prober : IceProber}
    (htimers : prober.dataTimers = 1) (hlast : periodic = true → ∀ x ∈ h.sent, x.time + delay ≤ h.now) :
    (h.beat periodic prober).Beating where
  timers := htimers.le
  spaced := by
    unfold Heartbeat.beat
    dsimp only
    split
    · rw [List.filter_append, List.pairwise_append]
      refine ⟨hspaced, List.Pairwise.filter _ (List.pairwise_singleton _ _), fun x hx y hy => ?_⟩
      obtain ⟨hy, hperiodic⟩ := List.mem_filter.mp hy
      obtain rfl := List.mem_singleton.mp hy
      exact hlast hperiodic x (List.mem_filter.mp hx).1
    · exact hspaced
  writable x hx := by
    obtain hx | ⟨hthrough, rfl⟩ := mem_sent_beat.mp hx
    · exact hsent x hx
    · exact hwritable hthrough
  counted := by rw [Heartbeat.beat, hdue]; exact htimers
  past x hx := by
    obtain hx | ⟨-, rfl⟩ := mem_sent_beat.mp hx
    · exact hpast x hx
    · exact Nat.le_refl _
  later time htime x hx := by
    rw [Heartbeat.beat, hdue] at htime
    obtain rfl := List.mem_singleton.mp htime
    obtain hx | ⟨-, rfl⟩ := mem_sent_beat.mp hx
    · exact Nat.add_le_add_right (hpast x hx) delay
    · exact Nat.le_refl _

/-- The timer that a message is from is the only one. -/
theorem Beating.due_eq {h : Heartbeat} (hb : h.Beating) {i time : Nat} (hdue : h.due[i]? = some time) :
    h.due = [time] ∧ i = 0 := by
  have hle := hb.timers
  rw [hb.counted] at hle
  rcases hlist : h.due with _ | ⟨time', rest⟩
  · simp [hlist] at hdue
  · rw [hlist] at hle hdue
    obtain rfl := List.length_eq_zero_iff.mp (Nat.le_zero.mp (Nat.le_of_succ_le_succ hle))
    obtain ⟨hi, -⟩ := List.getElem?_eq_some_iff.mp hdue
    obtain rfl := Nat.lt_one_iff.mp hi
    exact ⟨by rw [Option.some.inj hdue], rfl⟩

theorem Beating.step {h t : Heartbeat} {e : Event} (hb : h.Beating) (he : h.Single e ∧ h.Reported e)
    (hstep : h.step e = some t) : t.Beating := by
  obtain ⟨hsingle, hreported⟩ := he
  obtain ⟨-, rfl⟩ | ⟨w, rfl, hne, rfl⟩ | ⟨i, time, rfl, hdue, htime, htimers, rfl⟩ | ⟨milliseconds, -, rfl⟩ |
    ⟨through, -, rfl⟩ := step_cases hstep
  · exact hb
  · -- the first change starts the timer
    have hnil := hsingle w rfl hne
    refine Beating.beat (h := { h with writable := w }) hb.spaced hb.writable hb.past hnil (hreported hne) ?_ (by simp)
    show h.prober.dataTimers + 1 = 1
    rw [hb.counted, hnil]
    rfl
  · -- the timer starts itself again
    have hone := hb.due_eq hdue
    refine Beating.beat (h := { h with due := h.due.eraseIdx i }) hb.spaced hb.writable hb.past
      (by rw [hone.1, hone.2]; rfl) hreported ?_ fun _ x hx => ?_
    · show h.prober.dataTimers - 1 + 1 = 1
      rw [hb.counted, hone.1]
      rfl
    · exact (hb.later time (by rw [hone.1]; exact List.mem_cons_self) x hx).trans htime
  · exact ⟨⟨hb.timers, hb.spaced, hb.writable⟩, hb.counted, fun x hx => (hb.past x hx).trans (Nat.le_add_right _ _),
      hb.later⟩
  · exact ⟨⟨hb.timers, hb.spaced, hb.writable⟩, hb.counted, hb.past, hb.later⟩

theorem spoiled_of_twice {h t : Heartbeat} {e : Event} (hb : h.Beating) (hnot : ¬ h.Single e) (hstep : h.step e = some t) :
    t.Spoiled := by
  simp only [Single, not_forall, exists_prop] at hnot
  obtain ⟨w, rfl, hne, hdue⟩ := hnot
  obtain ⟨he, -⟩ | ⟨w', -, -, rfl⟩ | ⟨i, time, he, -⟩ | ⟨milliseconds, he, -⟩ | ⟨through, he, -⟩ := step_cases hstep
  · exact absurd (Event.set_writable.inj he) hne
  · left
    have hone : 0 < h.prober.dataTimers := by
      rw [hb.counted]
      exact List.length_pos_iff.mpr hdue
    show 2 ≤ h.prober.dataTimers + 1
    omega
  · cases he
  · cases he
  · cases he

theorem spoiled_of_unreported {h t : Heartbeat} {e : Event} (hnot : ¬ h.Reported e) (hstep : h.step e = some t) :
    t.Spoiled := by
  obtain ⟨rfl, -⟩ | ⟨w, rfl, hne, rfl⟩ | ⟨i, time, rfl, -, -, -, rfl⟩ | ⟨milliseconds, rfl, -⟩ | ⟨through, rfl, -⟩ :=
    step_cases hstep
  · exact absurd (fun hne => absurd rfl hne) hnot
  · simp only [Reported, Classical.not_imp, Bool.not_eq_true] at hnot
    exact .inr ⟨_, mem_sent_beat.mpr (.inr ⟨hnot.2.1, rfl⟩), hnot.2.2⟩
  · simp only [Reported, Classical.not_imp, Bool.not_eq_true] at hnot
    exact .inr ⟨_, mem_sent_beat.mpr (.inr ⟨hnot.1, rfl⟩), hnot.2⟩
  · exact absurd trivial hnot
  · exact absurd trivial hnot

/-- A timer never ends. -/
theorem Spoiled.step {h t : Heartbeat} {e : Event} (hs : h.Spoiled) (hstep : h.step e = some t) : t.Spoiled := by
  obtain ⟨-, rfl⟩ | ⟨w, -, -, rfl⟩ | ⟨i, time, -, -, -, htimers, rfl⟩ | ⟨milliseconds, -, rfl⟩ | ⟨through, -, rfl⟩ :=
    step_cases hstep
  · exact hs
  · refine hs.imp (fun htwo => ?_) fun ⟨x, hx, hfalse⟩ => ⟨x, mem_sent_beat.mpr (.inl hx), hfalse⟩
    show 2 ≤ h.prober.dataTimers + 1
    omega
  · refine hs.imp (fun htwo => ?_) fun ⟨x, hx, hfalse⟩ => ⟨x, mem_sent_beat.mpr (.inl hx), hfalse⟩
    show 2 ≤ h.prober.dataTimers - 1 + 1
    omega
  · exact hs
  · exact hs

/-- Once a timer runs, one runs for good. -/
theorem due_ne_nil_of_step {h t : Heartbeat} {e : Event} (hstep : h.step e = some t) (hdue : h.due ≠ []) : t.due ≠ [] := by
  obtain ⟨-, rfl⟩ | ⟨w, -, -, rfl⟩ | ⟨i, time, -, -, -, -, rfl⟩ | ⟨milliseconds, -, rfl⟩ | ⟨through, -, rfl⟩ :=
    step_cases hstep
  · exact hdue
  · exact List.append_ne_nil_of_right_ne_nil _ (List.cons_ne_nil _ _)
  · exact List.append_ne_nil_of_right_ne_nil _ (List.cons_ne_nil _ _)
  · exact hdue
  · exact hdue

/-- What an event adds to the changes. -/
theorem changes_step {h t : Heartbeat} {e : Event} (hstep : h.step e = some t) (es : List Event) :
    changes h.writable (e :: es) = changes t.writable es + if t.writable = h.writable then 0 else 1 := by
  obtain ⟨rfl, rfl⟩ | ⟨w, rfl, hne, rfl⟩ | ⟨i, time, rfl, -, -, -, rfl⟩ | ⟨milliseconds, rfl, rfl⟩ | ⟨through, rfl, rfl⟩ :=
    step_cases hstep
  · rw [changes, if_pos rfl, if_pos rfl, Nat.add_zero]
  · rw [changes, if_neg hne, beat_writable, if_neg hne]
  · rw [changes, beat_writable, if_pos rfl, Nat.add_zero]
    all_goals nofun
  · rw [changes, if_pos rfl, Nat.add_zero]
    all_goals nofun
  · rw [changes, if_pos rfl, Nat.add_zero]
    all_goals nofun

/-- The first change starts a timer, so there may be one change before a timer runs, and none after. -/
theorem along_single_iff {h u : Heartbeat} {es : List Event} (hrun : run h es = some u) :
    Machine.Along step Single h es ↔ changes h.writable es ≤ if h.due = [] then 1 else 0 := by
  induction es generalizing h with
  | nil => exact ⟨fun _ => Nat.zero_le _, fun _ => trivial⟩
  | cons e es ih =>
    obtain ⟨t, hstep, hrun⟩ := Machine.run_cons_eq_some.mp hrun
    rw [Machine.along_cons hstep, ih hrun, changes_step hstep]
    have hkeeps := due_ne_nil_of_step hstep
    obtain ⟨rfl, rfl⟩ | ⟨w, rfl, hne, rfl⟩ | ⟨i, time, rfl, hdue, -, -, rfl⟩ | ⟨milliseconds, rfl, rfl⟩ | ⟨through, rfl, rfl⟩ :=
      step_cases hstep
    · rw [if_pos rfl]
      exact and_iff_right fun w he hne => absurd (Event.set_writable.inj he).symm hne
    · have hrunning : ({ h with writable := w }.beat false h.prober.onChannelWriteable).due ≠ [] :=
        List.append_ne_nil_of_right_ne_nil _ (List.cons_ne_nil _ _)
      have hsingle : h.Single (.set_writable w) ↔ h.due = [] :=
        ⟨fun hs => hs w rfl hne, fun hnil w' he _ => hnil⟩
      have hchanged : ({ h with writable := w }.beat false h.prober.onChannelWriteable).writable ≠ h.writable := hne
      rw [if_neg hrunning, if_neg hchanged, hsingle]
      split
      · rename_i hnil
        rw [and_iff_right hnil]
        omega
      · rename_i hrunning
        exact ⟨fun h => absurd h.1 hrunning, fun h => by omega⟩
    · have hrunning : h.due ≠ [] := by
        rintro hnil
        rw [hnil] at hdue
        cases hdue
      rw [if_neg (hkeeps hrunning), if_neg hrunning, beat_writable, if_pos rfl]
      exact and_iff_right fun w he => by cases he
    · rw [if_pos rfl]
      exact and_iff_right fun w he => by cases he
    · rw [if_pos rfl]
      exact and_iff_right fun w he => by cases he

end Heartbeat

end

section
attribute [local instance] Host.plain

namespace Heartbeat

/-- A prober whose handlers are connected to its target channel. -/
def connected : IceProber := { IceProber.Login true (cstr "a") (cstr "b") with targetChannel := true }

/-- The channel becomes writable, and stays so while its best connection is lost for a time. -/
def steady : List Event :=
  [.connection true, .set_writable true, .wait 1000, .doData 0, .connection false, .wait 1000, .doData 0]

end Heartbeat

end

end ProbICE
