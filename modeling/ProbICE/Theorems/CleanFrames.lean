import ProbICE.Theorems.Streams

/-! # The frames of the server are clean

A word that the server has cut out of a frame holds no `:` and no `>`, so the names and the words it puts
into its own frames leave them whole. Nothing that a client sends can change that. -/

namespace ProbICE.DialogServer
open Delimited

/-- A text that the delimiters of a frame leave whole. -/
def CleanText (t : JsString) : Prop := ':' ∉ t ∧ '>' ∉ t

theorem cleanText_null : CleanText JsValue.null.toText := ⟨by decide, by decide⟩

/-! ### Words -/

/-- The words of a frame that ends with its only `>`. -/
theorem cleanText_of_mem_wordsOf {t w : JsString} (ht : '>' ∉ t) (hw : w ∈ wordsOf (t ++ ['>'])) : CleanText w := by
  have hend : indexOf '>' (t ++ ['>']) = t.length := indexOf_append_cons ht []
  have hbegin : (indexOf '<' (t ++ ['>']) + 1).toNat ≤ t.length := by
    by_cases hmem : '<' ∈ t
    · obtain ⟨u, v, rfl, hu⟩ := List.eq_append_cons_of_mem hmem
      rw [List.append_assoc, List.cons_append, indexOf_append_cons hu]
      simp
    · rw [indexOf_of_not_mem (by simpa using hmem)]
      simp
  have hsub : '>' ∉ substring (t ++ ['>']) (indexOf '<' (t ++ ['>']) + 1) (indexOf '>' (t ++ ['>'])) := by
    rw [hend, substring, Nat.max_eq_right (by simpa using hbegin)]
    simp only [Int.toNat_natCast, List.take_left]
    exact fun h => ht (List.mem_of_mem_drop h)
  exact ⟨not_mem_of_mem_splitOn hw, fun h => hsub (mem_of_mem_splitOn hw h)⟩

theorem cleanText_word {ws : List JsString} (h : ∀ w ∈ ws, CleanText w) (i : Nat) : CleanText (JsValue.word ws i).toText := by
  unfold JsValue.word
  rcases hi : ws[i]? with _ | w
  · exact ⟨by decide, by decide⟩
  · exact h w (List.mem_of_getElem? hi)

/-! ### What a server keeps clean -/

/-- The names of the connections and the frames written so far are clean. -/
structure Tidy (s : State) : Prop where
  pids : ∀ c, CleanText (s.peers c).pid.toText
  written : ∀ w ∈ s.written, w.frame.Clean

/-- No connection has a `>` among the characters that it keeps. -/
def Between (s : State) : Prop := ∀ c, '>' ∉ (s.peers c).xmlWord

theorem clean_frame {front p : JsString} {ws : List JsString} (hfront : CleanText front) (hp : CleanText p)
    (hws : ∀ w ∈ ws, CleanText w) : ∀ w ∈ front :: p :: ws, ':' ∉ w ∧ '>' ∉ w := by
  intro w hw
  rcases List.mem_cons.mp hw with rfl | hw
  · exact hfront
  · rcases List.mem_cons.mp hw with rfl | hw
    · exact hp
    · exact hws w hw

theorem clean_online {p : JsString} (h : CleanText p) : (Frame.online p).Clean :=
  clean_frame ⟨by decide, by decide⟩ h (by simp)

theorem clean_login {p : JsString} (h : CleanText p) : (Frame.login p).Clean :=
  clean_frame ⟨by decide, by decide⟩ h (by simp)

theorem clean_offline {p : JsString} (h : CleanText p) : (Frame.offline p).Clean :=
  clean_frame ⟨by decide, by decide⟩ h (by simp)

theorem clean_message {p : JsString} {ws : List JsString} (h : CleanText p) (hws : ∀ w ∈ ws, CleanText w) :
    (Frame.message p ws).Clean :=
  clean_frame ⟨by decide, by decide⟩ h hws

theorem cleanText_pid {s : State} (h : Tidy s) {p : Property} {v : JsValue} (hv : p.pid s.peers = some v) :
    CleanText v.toText := by
  cases p with
  | peer c =>
    obtain rfl := Option.some.inj hv
    exact h.pids c
  | plain x =>
    cases x with
    | string t =>
      obtain rfl := Option.some.inj hv
      exact ⟨by decide, by decide⟩
    | _ => cases hv
  | sock c =>
    obtain rfl := Option.some.inj hv
    exact ⟨by decide, by decide⟩

section steps
variable {s : State}

theorem Tidy.log (h : Tidy s) {ws : List Write} (hws : ∀ w ∈ ws, w.frame.Clean) : Tidy (s.log ws) where
  pids := h.pids
  written w hw := (List.mem_append.mp hw).elim (h.written w) (hws w)

theorem Tidy.crash (h : Tidy s) : Tidy s.crash := ⟨h.pids, h.written⟩

theorem Tidy.setRegistry (h : Tidy s) (o : PeerObjects) : Tidy (s.setRegistry o) := ⟨h.pids, h.written⟩

theorem Tidy.setSock (h : Tidy s) (c : SockId) (x : Socket) : Tidy (s.setSock c x) := ⟨h.pids, h.written⟩

theorem Tidy.setPeer (h : Tidy s) (c : SockId) {x : PeerClass} (hx : CleanText x.pid.toText) : Tidy (s.setPeer c x) where
  pids d := by
    by_cases hd : d = c
    · subst hd
      simpa using hx
    · simpa [hd] using h.pids d
  written := h.written

theorem Tidy.writeOnline (h : Tidy s) (c : SockId) (ps : List Property) : Tidy (writeOnline c s ps) := by
  induction ps generalizing s with
  | nil => exact h
  | cons p ps ih =>
    rw [DialogServer.writeOnline]
    rcases hp : p.pid s.peers with _ | v
    · exact h.crash
    · refine ih (h.log fun w hw => ?_)
      obtain rfl := List.mem_singleton.mp hw
      exact clean_online (cleanText_pid h hp)

theorem Tidy.writeAll (h : Tidy s) (cause : SockId) {frame : Frame} (hf : frame.Clean) (ps : List Property) :
    Tidy (writeAll cause frame s ps) := by
  induction ps generalizing s with
  | nil => exact h
  | cons p ps ih =>
    rw [DialogServer.writeAll]
    rcases hp : p.writer with _ | d
    · exact h.crash
    · refine ih (h.log fun w hw => ?_)
      obtain rfl := List.mem_singleton.mp hw
      exact hf

theorem Tidy.enlist (h : Tidy s) (c : SockId) : Tidy (enlist s c) := by
  have honline := h.writeOnline c (s.peerObjects.forIn s.peers)
  unfold DialogServer.enlist
  simp only
  split
  · exact honline
  · have hlogin := honline.writeAll c (clean_login (h.pids c))
      ((DialogServer.writeOnline c s (s.peerObjects.forIn s.peers)).peerObjects.forIn
        (DialogServer.writeOnline c s (s.peerObjects.forIn s.peers)).peers)
    split
    · exact hlogin
    · exact hlogin.setRegistry _

theorem Tidy.login (h : Tidy s) (c : SockId) {v : JsValue} (hv : CleanText v.toText) : Tidy (login s c v) := by
  have hpid : Tidy (s.setPid c v) := h.setPeer c hv
  unfold DialogServer.login
  simp only
  split
  · exact hpid.crash
  · exact hpid.setSock c _
  · exact hpid.enlist c

theorem Tidy.send (h : Tidy s) (c : SockId) {words : List JsString} (hwords : ∀ w ∈ words, CleanText w) :
    Tidy (send s c words) := by
  rcases send_cases s c words with heq | heq | ⟨pid, remotePeer, hpid, -, heq⟩
  · rwa [heq]
  · rw [heq]
    exact h.crash
  · have hclean := h.pids c
    rw [hpid] at hclean
    rw [heq]
    refine h.log fun w hw => ?_
    obtain rfl := List.mem_singleton.mp hw
    exact clean_message hclean fun w hw => hwords w (List.mem_of_mem_drop hw)

theorem Tidy.processDialog (h : Tidy s) {c : SockId} {t : JsString} (ht : '>' ∉ t)
    (hword : (s.peers c).xmlWord = t ++ ['>']) : Tidy (processDialog s c) := by
  have hwords : ∀ w ∈ s.words c, CleanText w := fun w hw => by
    rw [State.words, hword] at hw
    exact cleanText_of_mem_wordsOf ht hw
  by_cases hlogin : s.sentLogin c
  · rw [processDialog_login hlogin]
    exact h.login c (cleanText_word hwords 1)
  · rcases processDialog_cases hlogin with heq | heq
    · rwa [heq]
    · rw [heq]
      exact h.send c hwords

theorem Tidy.onClose (h : Tidy s) (c : SockId) : Tidy (onClose s c) := by
  unfold DialogServer.onClose
  simp only
  split
  · exact h.crash
  · exact h
  · split
    · exact h
    · split
      · exact h
      · exact (h.setRegistry _).writeAll c (clean_offline (h.pids c)) _

theorem Tidy.onAccept (h : Tidy s) (c : SockId) (remoteAddress : JsString) (remotePort : Nat) :
    Tidy (onAccept s c remoteAddress remotePort) :=
  (h.setSock c _).setPeer c cleanText_null

theorem Tidy.setXmlWord (h : Tidy s) (c : SockId) (w : JsString) : Tidy (s.setXmlWord c w) := h.setPeer c (h.pids c)

theorem xmlWord_processDialog (hs : s.crashed = false) (c d : SockId) :
    ((processDialog s c).peers d).xmlWord = (s.peers d).xmlWord := by
  have hpid : ∀ v, ((s.setPid c v).peers d).xmlWord = (s.peers d).xmlWord := by
    intro v
    by_cases hd : d = c
    · subst hd
      simp
    · simp [hd]
  by_cases hlogin : s.sentLogin c
  · rw [processDialog_login hlogin]
    rcases login_cases hs c (.word (s.words c) 1) with ⟨ws, -, heq⟩ | ⟨owner, -, heq⟩ | ⟨-, heq⟩ <;> rw [heq] <;>
      exact hpid _
  · rcases relay_cases hlogin with heq | heq | ⟨pid, remotePeer, -, -, heq⟩
    · rw [heq]
    · rw [heq]
      rfl
    · rw [heq]
      rfl

theorem Between.setXmlWord (h : Between s) (c : SockId) {w : JsString} (hw : '>' ∉ w) : Between (s.setXmlWord c w) := by
  intro d
  by_cases hd : d = c
  · subst hd
    simpa using hw
  · simpa [hd] using h d

/-- The frames of one connection keep the server tidy. -/
theorem Tidy.dialogs (h : Tidy s) (hb : Between s) (hs : s.crashed = false) (c : SockId) {fs : List JsString}
    (hfs : ∀ f ∈ fs, ∃ t, '>' ∉ t ∧ f = t ++ ['>']) :
    Tidy (dialogs c s fs) ∧ ((dialogs c s fs).crashed = false → Between (dialogs c s fs)) := by
  induction fs generalizing s with
  | nil => exact ⟨h, fun _ => hb⟩
  | cons f fs ih =>
    obtain ⟨t, ht, hf⟩ := hfs f List.mem_cons_self
    have hdialog := (h.setXmlWord c f).processDialog ht ((xmlWord_setXmlWord s c f).trans hf)
    by_cases hcrash : (DialogServer.processDialog (s.setXmlWord c f) c).crashed
    · rw [dialogs_crashed hcrash]
      exact ⟨hdialog, fun hno => absurd (hno.symm.trans hcrash) (by decide)⟩
    · rw [dialogs_running (by simpa using hcrash)]
      refine ih (hdialog.setXmlWord c []) ?_ (by simpa using hcrash) fun g hg => hfs g (List.mem_cons_of_mem _ hg)
      intro d
      by_cases hd : d = c
      · subst hd
        simp
      · have hother := xmlWord_processDialog (s := s.setXmlWord c f) hs c d
        simp only [State.setXmlWord_peers, Function.update_of_ne hd, hother] at *
        exact hb d

theorem Tidy.onData (h : Tidy s) (hb : Between s) (hs : s.crashed = false) (c : SockId) (d : JsString) :
    Tidy (onData c s d) ∧ ((onData c s d).crashed = false → Between (onData c s d)) := by
  have hframes : ∀ f ∈ (cut '>' (s.peers c).xmlWord d).1, ∃ t, '>' ∉ t ∧ f = t ++ ['>'] := mem_cut (hb c) d
  have hkept : '>' ∉ (cut '>' (s.peers c).xmlWord d).2 := not_mem_kept (hb c) d
  obtain ⟨htidy, hbetween⟩ := (h.setXmlWord c []).dialogs (hb.setXmlWord c List.not_mem_nil) hs c hframes
  rw [onData_eq_dialogs c hs]
  simp only
  split
  · rename_i hcrash
    exact ⟨htidy, fun hno => absurd (hno.symm.trans hcrash) (by decide)⟩
  · rename_i hcrash
    exact ⟨htidy.setXmlWord c _, fun _ => (hbetween (by simpa using hcrash)).setXmlWord c hkept⟩

end steps

/-! ### Runs -/

/-- What every event keeps. -/
def CleanState (s : State) : Prop := Tidy s ∧ (s.crashed = false → Between s)

theorem cleanState_init : CleanState State.init :=
  ⟨⟨fun _ => cleanText_null, by simp [State.init]⟩, fun _ _ => by simp [State.init]⟩

theorem CleanState.step {s s' : State} (h : CleanState s) {e : Event} (he : step s e = some s') : CleanState s' := by
  cases e with
  | connection c a p =>
    simp only [DialogServer.step, Option.ite_none_left_eq_some, not_or] at he
    obtain ⟨⟨hs, -⟩, he⟩ := he
    obtain rfl := Option.some.inj he
    refine ⟨h.1.onAccept c a p, fun _ d => ?_⟩
    by_cases hd : d = c
    · subst hd
      simp [DialogServer.onAccept]
    · simpa [DialogServer.onAccept, hd] using h.2 (by simpa using hs) d
  | data c bytes =>
    simp only [DialogServer.step, Option.ite_none_left_eq_some, not_or] at he
    obtain ⟨⟨hs, -⟩, he⟩ := he
    obtain rfl := Option.some.inj he
    have hs : s.crashed = false := by simpa using hs
    exact (h.1.setSock c _).onData (h.2 hs) hs c _
  | close c =>
    simp only [DialogServer.step, Option.ite_none_left_eq_some, not_or] at he
    obtain ⟨⟨hs, -⟩, he⟩ := he
    obtain rfl := Option.some.inj he
    refine ⟨(h.1.setSock c _).onClose c, fun _ => ?_⟩
    rw [Between, peers_onClose]
    exact h.2 (by simpa using hs)

theorem CleanState.run {s t : State} (h : CleanState s) {es : List Event} (hrun : run s es = some t) : CleanState t := by
  induction es generalizing s with
  | nil =>
    obtain rfl := Option.some.inj hrun
    exact h
  | cons e es ih =>
    obtain ⟨u, hu, hrun⟩ := Option.bind_eq_some_iff.mp hrun
    exact ih (h.step hu) hrun

/-- Whatever the clients send, the server writes clean frames. -/
theorem clean_of_run {es : List Event} {t : State} (hrun : run State.init es = some t) :
    ∀ w ∈ t.written, w.frame.Clean :=
  (cleanState_init.run hrun).1.written

end ProbICE.DialogServer
