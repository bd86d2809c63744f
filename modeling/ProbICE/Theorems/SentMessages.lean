import ProbICE.Theorems.Sends

/-! # What becomes of the messages that are sent -/

namespace ProbICE.TalkBase.Threads

variable {s s' : Threads} {t u : Nat} {l l' : List Frame}

/-! ### Where the messages are -/

/-- Each message that has been sent is in one place: it waits in a list, or it has been taken out of there. -/
structure Listed (sent started cleared : List SendMessage) (sends : Nat) (sendlist : Nat → List SendMessage) :
    Prop where
  known : ∀ smsg ∈ sent, smsg.ready < sends
  distinct : (sent.map SendMessage.ready).Nodup
  placed : ∀ smsg ∈ sent, smsg ∈ started ++ cleared ∨ ∃ t, smsg ∈ sendlist t
  taken : ∀ smsg ∈ started ++ cleared, smsg ∈ sent
  listed : ∀ t, ∀ smsg ∈ sendlist t, smsg ∈ sent ∧ smsg ∉ started ++ cleared
  apart : ∀ t u smsg, smsg ∈ sendlist t → smsg ∈ sendlist u → t = u
  once : ∀ t, (sendlist t).Nodup
  nodup : (started ++ cleared).Nodup

theorem listed_new : Listed [] [] [] 0 new.sendlist_ :=
  ⟨fun _ h => absurd h List.not_mem_nil, .nil, fun _ h => absurd h List.not_mem_nil,
    fun _ h => absurd h List.not_mem_nil, fun _ _ h => absurd h List.not_mem_nil, fun _ _ _ h => absurd h List.not_mem_nil, fun _ => .nil, .nil⟩

theorem Listed.push {sent started cleared : List SendMessage} {sends : Nat} {sendlist : Nat → List SendMessage}
    (h : Listed sent started cleared sends sendlist) (target : Nat) {smsg : SendMessage} (hnew : smsg.ready = sends) :
    Listed (sent ++ [smsg]) started cleared (sends + 1)
      (Function.update sendlist target (sendlist target ++ [smsg])) := by
  have hfresh : smsg ∉ sent := fun hmem => absurd hnew (h.known smsg hmem).ne
  have hlist {u : Nat} {m : SendMessage} (hm : m ∈ Function.update sendlist target (sendlist target ++ [smsg]) u) :
      m ∈ sendlist u ∨ u = target ∧ m = smsg := by
    rcases mem_update hm with ⟨rfl, hin⟩ | hin
    · exact (List.mem_append.mp hin).imp_right fun hin => ⟨rfl, List.mem_singleton.mp hin⟩
    · exact Or.inl hin
  refine ⟨fun m hm => ?_, ?_, fun m hm => ?_, fun m hm => ?_, fun u m hm => ?_, fun u v m hm hm' => ?_, fun u => ?_,
    h.nodup⟩
  · rcases List.mem_append.mp hm with hm | hm
    · exact (h.known m hm).trans (Nat.lt_succ_self _)
    · rw [List.mem_singleton.mp hm, hnew]
      exact Nat.lt_succ_self _
  · rw [List.map_append]
    refine List.Nodup.append h.distinct (List.nodup_singleton _) fun i hi hi' => ?_
    obtain ⟨m, hm, rfl⟩ := List.mem_map.mp hi
    exact absurd ((List.mem_singleton.mp hi').trans hnew) (h.known m hm).ne
  · rcases List.mem_append.mp hm with hm | hm
    · exact (h.placed m hm).imp_right fun ⟨u, hu⟩ =>
        ⟨u, mem_update_of hu fun heq => List.mem_append_left _ (heq ▸ hu)⟩
    · obtain rfl := List.mem_singleton.mp hm
      refine Or.inr ⟨target, ?_⟩
      rw [Function.update_self]
      exact List.mem_append_right _ List.mem_cons_self
  · exact List.mem_append_left _ (h.taken m hm)
  · rcases hlist hm with hm | ⟨-, rfl⟩
    · exact ⟨List.mem_append_left _ (h.listed u m hm).1, (h.listed u m hm).2⟩
    · exact ⟨List.mem_append_right _ List.mem_cons_self, fun hm => hfresh (h.taken m hm)⟩
  · rcases hlist hm with hm | ⟨hu, rfl⟩ <;> rcases hlist hm' with hm' | ⟨hv, hm'⟩
    · exact h.apart u v m hm hm'
    · exact absurd (hm' ▸ (h.listed u m hm).1) hfresh
    · exact absurd (h.listed v m hm').1 hfresh
    · exact hu.trans hv.symm
  · rcases eq_or_ne u target with rfl | hne
    · rw [Function.update_self]
      refine List.Nodup.append (h.once u) (List.nodup_singleton _) fun m hm hm' => ?_
      exact hfresh (List.mem_singleton.mp hm' ▸ (h.listed u m hm).1)
    · rw [Function.update_of_ne hne]
      exact h.once u

/-- Some messages of a list are taken out, and the others stay in it. -/
theorem Listed.take {sent started cleared started' cleared' : List SendMessage} {sends : Nat}
    {sendlist : Nat → List SendMessage} (h : Listed sent started cleared sends sendlist) {target : Nat}
    {out rest : List SendMessage} (hsplit : (out ++ rest).Perm (sendlist target))
    (htaken : (started' ++ cleared').Perm (started ++ cleared ++ out)) :
    Listed sent started' cleared' sends (Function.update sendlist target rest) := by
  have hnodup : (out ++ rest).Nodup := hsplit.nodup_iff.mpr (h.once target)
  have hsublist {u : Nat} {m : SendMessage} (hm : m ∈ Function.update sendlist target rest u) : m ∈ sendlist u := by
    rcases mem_update hm with ⟨rfl, hin⟩ | hin
    · exact hsplit.subset (List.mem_append_right _ hin)
    · exact hin
  refine ⟨h.known, h.distinct, fun m hm => ?_, fun m hm => ?_, fun u m hm => ?_, fun u v m hm hm' => ?_,
    fun u => ?_, ?_⟩
  · rcases h.placed m hm with hm | ⟨u, hu⟩
    · exact Or.inl (htaken.mem_iff.mpr (List.mem_append_left _ hm))
    · rcases eq_or_ne u target with rfl | hne
      · rcases List.mem_append.mp (hsplit.mem_iff.mpr hu) with hout | hrest
        · exact Or.inl (htaken.mem_iff.mpr (List.mem_append_right _ hout))
        · exact Or.inr ⟨u, mem_update_of hu fun _ => hrest⟩
      · exact Or.inr ⟨u, mem_update_of hu fun heq => absurd heq hne⟩
  · rcases List.mem_append.mp (htaken.mem_iff.mp hm) with hm | hm
    · exact h.taken m hm
    · exact (h.listed target m (hsplit.subset (List.mem_append_left _ hm))).1
  · refine ⟨(h.listed u m (hsublist hm)).1, fun hmem => ?_⟩
    rcases List.mem_append.mp (htaken.mem_iff.mp hmem) with hmem | hout
    · exact (h.listed u m (hsublist hm)).2 hmem
    · obtain rfl := h.apart u target m (hsublist hm) (hsplit.subset (List.mem_append_left _ hout))
      rw [Function.update_self] at hm
      exact (List.nodup_append.mp hnodup).2.2 m hout m hm rfl
  · exact h.apart u v m (hsublist hm) (hsublist hm')
  · rcases eq_or_ne u target with rfl | hne
    · rw [Function.update_self]
      exact hnodup.of_append_right
    · rw [Function.update_of_ne hne]
      exact h.once u
  · refine htaken.nodup_iff.mpr (List.Nodup.append h.nodup hnodup.of_append_left fun m hm hout => ?_)
    exact (h.listed target m (hsplit.subset (List.mem_append_left _ hout))).2 hm

theorem listed_of_step (hdoes : Does s t s') (h : Listed s.sent s.started s.cleared s.sends s.sendlist_) :
    Listed s'.sent s'.started s'.cleared s'.sends s'.sendlist_ := by
  cases hdoes with
  | push target msg htasks => exact h.push target rfl
  | receive smsg rest l hstack hlist =>
    have hsplit : ([smsg] ++ rest).Perm (s.sendlist_ t) := hlist ▸ List.Perm.refl _
    refine h.take hsplit ?_
    change (s.started ++ [smsg] ++ s.cleared).Perm _
    rw [List.append_assoc, List.append_assoc]
    exact List.perm_append_comm.append_left _
  | clear target phandler id htasks =>
    refine h.take (List.filter_append_perm _ _) ?_
    rw [List.append_assoc]
    exact List.Perm.refl _
  | _ => exact h

/-- What has been answered is through with its handler, or it has been cleared. -/
structure Answered (finished cleared : List SendMessage) (returned : List Nat) (sends : Nat) (ready : Nat → Bool)
    (tasks : Nat → List Task) : Prop where
  tasks : ∀ t smsg, .reply smsg ∈ tasks t → smsg ∈ finished ++ cleared
  ready : ∀ i < sends, ready i → ∃ smsg ∈ finished ++ cleared, smsg.ready = i
  returned : ∀ i ∈ returned, ∃ smsg ∈ finished ++ cleared, smsg.ready = i

theorem answered_of_step (hdoes : Does s t s') (hanswerable : s.Answerable)
    (h : Answered s.finished s.cleared s.returned s.sends s.ready s.tasks) :
    Answered s'.finished s'.cleared s'.returned s'.sends s'.ready s'.tasks := by
  cases hdoes with
  | wake v ts htasks =>
    exact ⟨fun u smsg hm => h.tasks u smsg (mem_of_mem_tail htasks hm), h.ready, h.returned⟩
  | reply m ts htasks =>
    have hm : m ∈ s.finished ++ s.cleared := h.tasks t m (htasks ▸ List.mem_cons_self)
    refine ⟨fun u smsg hm => ?_, fun i hi hready => ?_, h.returned⟩
    · rcases mem_update hm with ⟨rfl, hin⟩ | hin
      · rcases List.mem_cons.mp hin with hin | hin
        · cases hin
        · exact h.tasks u smsg (htasks ▸ List.mem_cons_of_mem _ hin)
      · exact h.tasks u smsg hin
    · rcases eq_or_ne i m.ready with rfl | hne
      · exact ⟨m, hm, rfl⟩
      · exact h.ready i hi ((Function.update_of_ne hne ..).symm.trans hready)
  | finish m l htasks hstack =>
    have hmore {smsg : SendMessage} (hm : smsg ∈ s.finished ++ s.cleared) : smsg ∈ s.finished ++ [m] ++ s.cleared :=
      (List.mem_append.mp hm).elim (fun hm => List.mem_append_left _ (List.mem_append_left _ hm))
        fun hm => List.mem_append_right _ hm
    refine ⟨fun u smsg hm => ?_, fun i hi hready => ?_, fun i hi => ?_⟩
    · rcases mem_update hm with ⟨rfl, hin⟩ | hin
      · obtain rfl := Task.reply.inj (List.mem_singleton.mp hin)
        exact List.mem_append_left _ (List.mem_append_right _ List.mem_cons_self)
      · exact hmore (h.tasks u smsg hin)
    · exact (h.ready i hi hready).imp fun _ hm => hm.imp_left hmore
    · exact (h.returned i hi).imp fun _ hm => hm.imp_left hmore
  | leave i waited l htasks hstack hready =>
    refine ⟨fun u smsg hm => ?_, h.ready, fun j hj => ?_⟩
    · rcases mem_update hm with ⟨rfl, hin⟩ | hin
      · split at hin
        · cases List.mem_singleton.mp hin
        · cases hin
      · exact h.tasks u smsg hin
    · rcases List.mem_append.mp hj with hj | hj
      · exact h.returned j hj
      · obtain rfl := List.mem_singleton.mp hj
        exact h.ready j (hanswerable.calls t j ⟨_, hstack ▸ List.mem_cons_self, rfl⟩).1 hready
  | push target msg htasks =>
    refine ⟨fun u smsg hm => ?_, fun i hi hready => ?_, h.returned⟩
    · rcases mem_update hm with ⟨rfl, hin⟩ | hin
      · cases List.mem_singleton.mp hin
      · exact h.tasks u smsg hin
    · change Function.update s.ready s.sends false i = true at hready
      rcases eq_or_ne i s.sends with rfl | hne
      · rw [Function.update_self] at hready
        cases hready
      · rw [Function.update_of_ne hne] at hready
        exact h.ready i (Nat.lt_of_le_of_ne (Nat.le_of_lt_succ hi) hne) hready
  | clear target phandler id htasks =>
    have hmore {smsg : SendMessage} (hm : smsg ∈ s.finished ++ s.cleared) :
        smsg ∈ s.finished ++ (s.cleared ++ (s.sendlist_ target).filter (·.msg.Match phandler id)) := by
      rw [← List.append_assoc]
      exact List.mem_append_left _ hm
    refine ⟨fun u smsg hm => ?_, fun i hi hready => ?_, fun i hi => ?_⟩
    · rcases mem_update hm with ⟨rfl, hin⟩ | hin
      · obtain ⟨m, hcleared, heq⟩ := List.mem_map.mp hin
        obtain rfl := Task.reply.inj heq
        exact List.mem_append_right _ (List.mem_append_right _ hcleared)
      · exact hmore (h.tasks u smsg hin)
    · exact (h.ready i hi hready).imp fun _ hm => hm.imp_left hmore
    · exact (h.returned i hi).imp fun _ hm => hm.imp_left hmore
  | post target fStop htasks =>
    refine ⟨fun u smsg hm => ?_, h.ready, h.returned⟩
    rcases mem_update hm with ⟨rfl, hin⟩ | hin
    · cases List.mem_singleton.mp hin
    · exact h.tasks u smsg hin
  | _ => exact h

/-- A handler that is called by `ReceiveSends`, and one that has returned, has been called. -/
structure Called (started finished : List SendMessage) (stack : Nat → List Frame) : Prop where
  handling : ∀ t smsg, .handling smsg ∈ stack t → smsg ∈ started
  finished : ∀ smsg ∈ finished, smsg ∈ started

theorem Called.update {started finished : List SendMessage} {stack : Nat → List Frame}
    (h : Called started finished stack) (hl : ∀ smsg, .handling smsg ∈ l → .handling smsg ∈ stack t) :
    Called started finished (Function.update stack t l) := by
  refine ⟨fun u smsg hm => ?_, h.finished⟩
  rcases mem_update hm with ⟨rfl, hin⟩ | hin
  · exact h.handling u smsg (hl smsg hin)
  · exact h.handling u smsg hin

/-- The call that stands in front is over. -/
theorem Called.below {started finished : List SendMessage} {stack : Nat → List Frame} (h : Called started finished stack)
    {f : Frame} (hf : stack t = f :: l) : Called started finished (Function.update stack t l) :=
  h.update fun _ hm => hf ▸ List.mem_cons_of_mem _ hm

theorem called_of_step (hdoes : Does s t s') (h : Called s.started s.finished s.stack) :
    Called s'.started s'.finished s'.stack := by
  cases hdoes with
  | turn l hturn => exact h.update fun smsg => (hturn.mem_handling smsg).mp
  | skip l hentering hnone => exact h.below hentering
  | received l hreceiving hlist => exact h.below hreceiving
  | receive m rest l hreceiving hlist =>
    refine ⟨fun u smsg hm => ?_, fun smsg hm => List.mem_append_left _ (h.finished smsg hm)⟩
    rcases mem_update hm with ⟨rfl, hin⟩ | hin
    · rcases List.mem_cons.mp hin with hin | hin
      · obtain rfl := Frame.handling.inj hin
        exact List.mem_append_right _ List.mem_cons_self
      · exact List.mem_append_left _ (h.handling u smsg (hreceiving ▸ hin))
    · exact List.mem_append_left _ (h.handling u smsg hin)
  | finish m l htasks hhandling =>
    have hrest := h.below hhandling
    refine ⟨hrest.handling, fun smsg hm => ?_⟩
    rcases List.mem_append.mp hm with hm | hm
    · exact h.finished smsg hm
    · obtain rfl := List.mem_singleton.mp hm
      exact h.handling t smsg (hhandling ▸ List.mem_cons_self)
  | leave i waited l htasks hsending hready => exact h.below hsending
  | loop i waited l hsending hready =>
    refine h.update fun smsg hm => ?_
    rw [hsending]
    simpa using hm
  | wokenIdle hidle => exact h.update fun smsg hm => (by cases List.mem_singleton.mp hm)
  | woken i waited l hwaiting =>
    refine h.update fun smsg hm => ?_
    rw [hwaiting]
    simpa using hm
  | push target msg htasks =>
    refine h.update fun smsg hm => ?_
    simpa using hm
  | _ => exact h

/-- Whatever is sent is handled once or cleared, or it still waits in a list, and `Send` does not return before it has
    been cleared or its handler is through with it. -/
theorem handled_of_run {es : List ThreadStep} (hrun : run new es = some s) :
    (s.started ++ s.cleared).Nodup ∧ (∀ smsg ∈ s.finished, smsg ∈ s.started) ∧
      (∀ smsg ∈ s.sent, smsg ∈ s.started ++ s.cleared ∨ ∃ t, smsg ∈ s.sendlist_ t) ∧
      ∀ smsg ∈ s.sent, smsg.ready ∈ s.returned → smsg ∈ s.finished ++ s.cleared := by
  obtain ⟨-, hlisted, hanswered, hcalled⟩ := Machine.run_keeps (I := fun s : Threads => s.Answerable ∧
      Listed s.sent s.started s.cleared s.sends s.sendlist_ ∧
      Answered s.finished s.cleared s.returned s.sends s.ready s.tasks ∧ Called s.started s.finished s.stack)
    (fun s s' _ _ ⟨hanswerable, hlisted, hanswered, hcalled⟩ hstep =>
      have hdoes := does_of_step hstep
      ⟨hanswerable.step hdoes, listed_of_step hdoes hlisted, answered_of_step hdoes hanswerable hanswered,
        called_of_step hdoes hcalled⟩)
    ⟨answerable_new, listed_new,
      ⟨fun _ _ h => (by cases h), fun _ h => absurd h (Nat.not_lt_zero _), fun _ h => (by cases h)⟩,
      ⟨fun _ _ h => (by cases List.mem_singleton.mp h), fun _ h => absurd h List.not_mem_nil⟩⟩ hrun
  refine ⟨hlisted.nodup, hcalled.finished, hlisted.placed, fun smsg hsent hreturned => ?_⟩
  obtain ⟨m, hm, hready⟩ := hanswered.returned _ hreturned
  have hm' : m ∈ s.sent := hlisted.taken m <| (List.mem_append.mp hm).elim
    (fun hm => List.mem_append_left _ (hcalled.finished m hm)) fun hm => List.mem_append_right _ hm
  obtain rfl := List.inj_on_of_nodup_map hlisted.distinct hm' hsent hready
  exact hm

theorem handled_crossing :
    (afterCrossing.started ++ afterCrossing.cleared).Nodup ∧
      (∀ smsg ∈ afterCrossing.finished, smsg ∈ afterCrossing.started) ∧
      (∀ smsg ∈ afterCrossing.sent, smsg ∈ afterCrossing.started ++ afterCrossing.cleared ∨
        ∃ t, smsg ∈ afterCrossing.sendlist_ t) ∧
      ∀ smsg ∈ afterCrossing.sent, smsg.ready ∈ afterCrossing.returned →
        smsg ∈ afterCrossing.finished ++ afterCrossing.cleared :=
  handled_of_run run_crossing

example : afterCrossing.sent.map SendMessage.ready = [0, 1] ∧ afterCrossing.returned = [1, 0] := by decide

end ProbICE.TalkBase.Threads
