import Mathlib.Data.List.Basic

/-! # Machines that may refuse an event

A machine is given by a step function that may have no result. A run is a list of events that can all happen, one
after the other. -/

namespace Machine

variable {σ ε : Type} {step : σ → ε → Option σ} {P : σ → ε → Prop} {I D : σ → Prop}

/-- The state after a list of events, if they can all happen. -/
def run (step : σ → ε → Option σ) : σ → List ε → Option σ
  | s, [] => some s
  | s, e :: es => (step s e).bind fun t => run step t es

/-- Each event of a run is as it should be in the state that it happens in. -/
def Along (step : σ → ε → Option σ) (P : σ → ε → Prop) : σ → List ε → Prop
  | _, [] => True
  | s, e :: es => P s e ∧ ∀ t, step s e = some t → Along step P t es

theorem run_cons_eq_some {s u : σ} {e : ε} {es : List ε} :
    run step s (e :: es) = some u ↔ ∃ t, step s e = some t ∧ run step t es = some u :=
  Option.bind_eq_some_iff

theorem run_append (s : σ) (es₁ es₂ : List ε) :
    run step s (es₁ ++ es₂) = (run step s es₁).bind fun t => run step t es₂ := by
  induction es₁ generalizing s with
  | nil => rfl
  | cons e es₁ ih =>
    rw [List.cons_append, run, run]
    cases step s e with
    | none => rfl
    | some t => exact ih t

/-- From `s` to `t` by some list of events. -/
def Reaches (step : σ → ε → Option σ) (s t : σ) : Prop := ∃ es, run step s es = some t

theorem Reaches.refl (s : σ) : Reaches step s s := ⟨[], rfl⟩

theorem Reaches.trans {s t u : σ} (h : Reaches step s t) (h' : Reaches step t u) : Reaches step s u := by
  obtain ⟨es, hes⟩ := h
  obtain ⟨es', hes'⟩ := h'
  refine ⟨es ++ es', ?_⟩
  rw [run_append, hes]
  exact hes'

theorem Reaches.single {s t : σ} {e : ε} (h : step s e = some t) : Reaches step s t :=
  ⟨[e], run_cons_eq_some.mpr ⟨t, h, rfl⟩⟩

/-- A run that can happen. -/
theorem along_cons {s t : σ} {e : ε} (h : step s e = some t) (es : List ε) :
    Along step P s (e :: es) ↔ P s e ∧ Along step P t es := by
  refine and_congr_right fun _ => ⟨fun hall => hall t h, fun halong u hu => ?_⟩
  obtain rfl := Option.some.inj (h.symm.trans hu)
  exact halong

theorem along_and {Q : σ → ε → Prop} {s : σ} {es : List ε} :
    Along step (fun s e => P s e ∧ Q s e) s es ↔ Along step P s es ∧ Along step Q s es := by
  induction es generalizing s with
  | nil => exact (and_iff_left trivial).symm
  | cons e es ih =>
    constructor
    · rintro ⟨⟨hP, hQ⟩, hlater⟩
      exact ⟨⟨hP, fun t ht => (ih.mp (hlater t ht)).1⟩, hQ, fun t ht => (ih.mp (hlater t ht)).2⟩
    · rintro ⟨⟨hP, hlater⟩, hQ, hlater'⟩
      exact ⟨⟨hP, hQ⟩, fun t ht => ih.mpr ⟨hlater t ht, hlater' t ht⟩⟩

theorem along_of_forall {es : List ε} (h : ∀ s, ∀ e ∈ es, P s e) (s : σ) : Along step P s es := by
  induction es generalizing s with
  | nil => trivial
  | cons e es ih => exact ⟨h s e List.mem_cons_self, fun t _ => ih (fun s e he => h s e (List.mem_cons_of_mem _ he)) t⟩

/-- What every step of a run keeps, the run keeps. -/
theorem run_keeps {es : List ε} (h : ∀ s t, ∀ e ∈ es, I s → step s e = some t → I t) {s t : σ} (hs : I s)
    (hrun : run step s es = some t) : I t := by
  induction es generalizing s with
  | nil =>
    obtain rfl := Option.some.inj hrun
    exact hs
  | cons e es ih =>
    obtain ⟨u, hstep, hrun⟩ := run_cons_eq_some.mp hrun
    exact ih (fun s t e he => h s t e (List.mem_cons_of_mem _ he)) (h s u e List.mem_cons_self hs hstep) hrun

/-- What a run keeps may speak of the events so far. -/
theorem run_keeps_past {J : List ε → σ → Prop} {es : List ε}
    (h : ∀ past s t, ∀ e ∈ es, J past s → step s e = some t → J (past ++ [e]) t) (past : List ε) {s t : σ}
    (hs : J past s) (hrun : run step s es = some t) : J (past ++ es) t := by
  induction es generalizing past s with
  | nil =>
    obtain rfl := Option.some.inj hrun
    rwa [List.append_nil]
  | cons e es ih =>
    obtain ⟨u, hstep, hrun⟩ := run_cons_eq_some.mp hrun
    rw [List.append_cons]
    exact ih (fun past s t e he => h past s t e (List.mem_cons_of_mem _ he)) (past ++ [e])
      (h past s u e List.mem_cons_self hs hstep) hrun

/-- What a run keeps may also depend on where in the run its steps are. -/
theorem run_keeps_front {J : List ε → σ → Prop} {es : List ε}
    (h : ∀ past e later s t, es = past ++ e :: later → J past s → step s e = some t → J (past ++ [e]) t) {s t : σ}
    (hs : J [] s) (hrun : run step s es = some t) : J es t := by
  suffices hfrom : ∀ later past s, es = past ++ later → J past s → run step s later = some t → J es t from
    hfrom es [] s rfl hs hrun
  intro later
  induction later with
  | nil =>
    intro past s hes hs hrun
    obtain rfl := Option.some.inj hrun
    rw [List.append_nil] at hes
    rwa [hes]
  | cons e later ih =>
    intro past s hes hs hrun
    obtain ⟨u, hstep, hrun⟩ := run_cons_eq_some.mp hrun
    exact ih (past ++ [e]) u (by rw [hes, List.append_assoc]; rfl) (h past e later s u hes hs hstep) hrun

/-- When the first event that is not as it should be leads out of `I` for good, a run ends in `I` or it has had such
    an event. -/
theorem along_or_left (hkeep : ∀ s e t, I s → P s e → step s e = some t → I t)
    (hleave : ∀ s e t, I s → ¬ P s e → step s e = some t → D t) (hstay : ∀ s e t, D s → step s e = some t → D t)
    {s t : σ} {es : List ε} (hs : I s) (hrun : run step s es = some t) :
    (Along step P s es ∧ I t) ∨ (¬ Along step P s es ∧ D t) := by
  induction es generalizing s with
  | nil =>
    obtain rfl := Option.some.inj hrun
    exact .inl ⟨trivial, hs⟩
  | cons e es ih =>
    obtain ⟨u, hstep, hrun⟩ := run_cons_eq_some.mp hrun
    rw [along_cons hstep]
    by_cases hP : P s e
    · refine (ih (hkeep s e u hs hP hstep) hrun).imp ?_ ?_
      · exact fun ⟨halong, ht⟩ => ⟨⟨hP, halong⟩, ht⟩
      · exact fun ⟨hnot, ht⟩ => ⟨fun halong => hnot halong.2, ht⟩
    · exact .inr ⟨fun halong => hP halong.1, run_keeps (fun s t e _ => hstay s e t) (hleave s e u hs hP hstep) hrun⟩

/-- What the events keep that are as they should be, a run of such events keeps. -/
theorem along_keeps (hkeep : ∀ s e t, I s → P s e → step s e = some t → I t) {s t : σ} {es : List ε} (hs : I s)
    (halong : Along step P s es) (hrun : run step s es = some t) : I t := by
  obtain ⟨-, ht⟩ | ⟨hnot, -⟩ := along_or_left (D := fun _ => True) hkeep (fun _ _ _ _ _ _ => trivial)
    (fun _ _ _ _ _ => trivial) hs hrun
  · exact ht
  · exact absurd halong hnot

theorem along_front {s : σ} {es₁ es₂ : List ε} (h : Along step P s (es₁ ++ es₂)) : Along step P s es₁ := by
  induction es₁ generalizing s with
  | nil => trivial
  | cons e es₁ ih => exact ⟨h.1, fun t ht => ih (h.2 t ht)⟩

/-- When the first event that is not as it should be spoils the states for good, the events of a run are as they should
    be exactly if all its states are good. What is good may depend on the events that are still to come. -/
theorem along_iff_good {Q : σ → List ε → Prop} (hkeep : ∀ s e t, I s → P s e → step s e = some t → I t)
    (hleave : ∀ s e t, I s → ¬ P s e → step s e = some t → D t) (hstay : ∀ s e t, D s → step s e = some t → D t)
    (hgood : ∀ s later, I s → Q s later) (hbad : ∀ s, D s → ¬ Q s []) {s t : σ} {es : List ε} (hs : I s)
    (hrun : run step s es = some t) :
    (∀ es₁ es₂, es = es₁ ++ es₂ → ∀ u, run step s es₁ = some u → Q u es₂) ↔ Along step P s es := by
  constructor
  · intro hall
    obtain ⟨halong, -⟩ | ⟨-, ht⟩ := along_or_left hkeep hleave hstay hs hrun
    · exact halong
    · exact absurd (hall es [] (List.append_nil es).symm t hrun) (hbad t ht)
  · rintro halong es₁ es₂ rfl u hu
    exact hgood u es₂ (along_keeps hkeep hs (along_front halong) hu)

/-- When exactly the events that are as they should be lead to `I`, they are the events of the runs that stay in
    `I`. -/
theorem along_iff_stays (h : ∀ s e t, I s → step s e = some t → (I t ↔ P s e)) {s t : σ} {es : List ε} (hs : I s)
    (hrun : run step s es = some t) :
    Along step P s es ↔ ∀ es₁ es₂, es = es₁ ++ es₂ → ∀ u, run step s es₁ = some u → I u := by
  induction es generalizing s with
  | nil =>
    refine ⟨fun _ es₁ es₂ hes u hu => ?_, fun _ => trivial⟩
    obtain ⟨rfl, -⟩ := List.append_eq_nil_iff.mp hes.symm
    obtain rfl := Option.some.inj hu
    exact hs
  | cons e es ih =>
    obtain ⟨v, hstep, hrun⟩ := run_cons_eq_some.mp hrun
    rw [along_cons hstep]
    constructor
    · rintro ⟨hP, halong⟩ es₁ es₂ hes u hu
      have hv : I v := (h s e v hs hstep).mpr hP
      cases es₁ with
      | nil =>
        obtain rfl := Option.some.inj hu
        exact hs
      | cons e' es₁ =>
        rw [List.cons_append, List.cons.injEq] at hes
        obtain ⟨rfl, hes⟩ := hes
        obtain ⟨v', hstep', hu⟩ := run_cons_eq_some.mp hu
        obtain rfl := Option.some.inj (hstep.symm.trans hstep')
        exact (ih hv hrun).mp halong es₁ es₂ hes u hu
    · intro hstays
      have hv : I v := hstays [e] es rfl v (by rw [run, hstep]; rfl)
      refine ⟨(h s e v hs hstep).mp hv, (ih hv hrun).mpr fun es₁ es₂ hes u hu => ?_⟩
      exact hstays (e :: es₁) es₂ (by rw [hes]; rfl) u (run_cons_eq_some.mpr ⟨v, hstep, hu⟩)

/-- When a step keeps to a preorder exactly if its event is as it should be, the events of a run are as they should be
    exactly if each of its states keeps to the preorder with all the later ones. -/
theorem along_iff_keeps_to {R : σ → σ → Prop} (hrefl : ∀ s, R s s) (htrans : ∀ s t u, R s t → R t u → R s u)
    (h : ∀ s e t, step s e = some t → (R s t ↔ P s e)) {s t : σ} {es : List ε} (hrun : run step s es = some t) :
    Along step P s es ↔ ∀ es₁ es₂ es₃, es = es₁ ++ es₂ ++ es₃ → ∀ u v, run step s es₁ = some u →
      run step u es₂ = some v → R u v := by
  induction es generalizing s with
  | nil =>
    refine ⟨fun _ es₁ es₂ es₃ hes u v _ hv => ?_, fun _ => trivial⟩
    obtain ⟨hnil, -⟩ := List.append_eq_nil_iff.mp hes.symm
    obtain ⟨-, rfl⟩ := List.append_eq_nil_iff.mp hnil
    obtain rfl := Option.some.inj hv
    exact hrefl u
  | cons e es ih =>
    obtain ⟨w, hstep, hrun⟩ := run_cons_eq_some.mp hrun
    rw [along_cons hstep, ih hrun]
    constructor
    · rintro ⟨hP, hlater⟩ es₁ es₂ es₃ hes u v hu hv
      cases es₁ with
      | cons e' es₁ =>
        rw [List.cons_append, List.cons_append, List.cons.injEq] at hes
        obtain ⟨rfl, hes⟩ := hes
        obtain ⟨w', hstep', hu⟩ := run_cons_eq_some.mp hu
        obtain rfl := Option.some.inj (hstep.symm.trans hstep')
        exact hlater es₁ es₂ es₃ hes u v hu hv
      | nil =>
        obtain rfl := Option.some.inj hu
        cases es₂ with
        | nil =>
          obtain rfl := Option.some.inj hv
          exact hrefl s
        | cons e' es₂ =>
          rw [List.nil_append, List.cons_append, List.cons.injEq] at hes
          obtain ⟨rfl, hes⟩ := hes
          obtain ⟨w', hstep', hv⟩ := run_cons_eq_some.mp hv
          obtain rfl := Option.some.inj (hstep.symm.trans hstep')
          exact htrans s w v ((h s e w hstep).mpr hP) (hlater [] es₂ es₃ hes w v rfl hv)
    · intro hall
      refine ⟨(h s e w hstep).mp (hall [] [e] es rfl s w rfl (run_cons_eq_some.mpr ⟨w, hstep, rfl⟩)), ?_⟩
      intro es₁ es₂ es₃ hes u v hu hv
      exact hall (e :: es₁) es₂ es₃ (by rw [hes]; rfl) u v (run_cons_eq_some.mpr ⟨w, hstep, hu⟩) hv

end Machine
