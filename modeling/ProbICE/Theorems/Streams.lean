import ProbICE.Lib.Emit
import ProbICE.Theorems.Frames
import ProbICE.Theorems.Handlers

/-! # What the two programs make of the bytes they read

Each program reads its stream in pieces and handles a frame as soon as its `>` arrives. The frames are
those of `Delimited.cut`, so they depend on the bytes only. -/

namespace ProbICE
open Delimited

/-! ### The server -/

namespace DialogServer

@[simp] theorem setXmlWord_setXmlWord (s : State) (c : SockId) (v w : JsString) :
    (s.setXmlWord c v).setXmlWord c w = s.setXmlWord c w := by
  simp [State.setXmlWord, State.setPeer]

@[simp] theorem setXmlWord_self (s : State) (c : SockId) : s.setXmlWord c (s.peers c).xmlWord = s := by
  simp [State.setXmlWord, State.setPeer]

@[simp] theorem setPending_self (s : State) (c : SockId) : s.setPending c (s.socks c).pending = s := by
  simp [State.setPending, State.setSock]

theorem xmlWord_setXmlWord (s : State) (c : SockId) (w : JsString) : ((s.setXmlWord c w).peers c).xmlWord = w := by
  simp

theorem pid_setXmlWord (s : State) (c : SockId) (w : JsString) : ((s.setXmlWord c w).peers c).pid = (s.peers c).pid := by
  simp

/-- `processDialog` for one frame after the other. -/
def dialogs (c : SockId) : State → List JsString → State
  | s, [] => s
  | s, f :: fs =>
    let s := processDialog (s.setXmlWord c f) c
    if s.crashed then s else dialogs c (s.setXmlWord c []) fs

theorem dialogs_crashed {s : State} {c : SockId} {f : JsString} (h : (processDialog (s.setXmlWord c f) c).crashed)
    (fs : List JsString) : dialogs c s (f :: fs) = processDialog (s.setXmlWord c f) c := by
  simp [dialogs, h]

theorem dialogs_running {s : State} {c : SockId} {f : JsString}
    (h : (processDialog (s.setXmlWord c f) c).crashed = false) (fs : List JsString) :
    dialogs c s (f :: fs) = dialogs c ((processDialog (s.setXmlWord c f) c).setXmlWord c []) fs := by
  simp [dialogs, h]

/-- `onData` handles the frames of the text and keeps what stands behind them. -/
theorem onData_eq_dialogs (c : SockId) {s : State} (hs : s.crashed = false) (d : JsString) :
    onData c s d =
      let s' := dialogs c (s.setXmlWord c []) (cut '>' (s.peers c).xmlWord d).1
      if s'.crashed then s' else s'.setXmlWord c (cut '>' (s.peers c).xmlWord d).2 := by
  induction d generalizing s with
  | nil => simp [onData, dialogs, hs]
  | cons ch d ih =>
    by_cases hch : ch = '>'
    · subst hch
      rw [cut_cons_self, onData]
      simp only [if_true]
      by_cases hcrash : (processDialog (s.setXmlWord c ((s.peers c).xmlWord ++ ['>'])) c).crashed
      · rw [dialogs_crashed (by simpa using hcrash)]
        simp [hcrash]
      · rw [dialogs_running (by simpa using hcrash)]
        simp only [hcrash, Bool.false_eq_true, if_false]
        rw [ih (by simpa using hcrash)]
        simp
    · rw [onData]
      simp only [hch, if_false]
      rw [ih (by simpa using hs), cut_cons_ne hch]
      simp

/-- `kept` are the bytes that the server has read from `c` behind the last frame. -/
def State.HasRead (s : State) (c : SockId) (kept : List UInt8) : Prop :=
  Utf8.write [] kept = ((s.socks c).pending, (s.peers c).xmlWord)

/-- The state in which `kept` has been read from `c` behind the last frame. -/
def State.setRead (s : State) (c : SockId) (kept : List UInt8) : State :=
  (s.setPending c (Utf8.write [] kept).1).setXmlWord c (Utf8.write [] kept).2

theorem hasRead_setRead (s : State) (c : SockId) (kept : List UInt8) : (s.setRead c kept).HasRead c kept := by
  simp [State.HasRead, State.setRead]

/-- A data event handles the frames that its bytes complete. -/
theorem step_data {s : State} {c : SockId} {kept : List UInt8} (hs : s.crashed = false) (hc : s.live c = true)
    (hread : s.HasRead c kept) (bytes : List UInt8) :
    step s (.data c bytes) =
      let s' := dialogs c ((s.setRead c (cut greater kept bytes).2).setXmlWord c [])
        ((cut greater kept bytes).1.map Utf8.lossy)
      some (if s'.crashed then s' else s'.setXmlWord c (Utf8.write [] (cut greater kept bytes).2).2) := by
  have hgreater : Utf8.ascii greater = '>' := by decide
  obtain ⟨hcut, hopen⟩ := Utf8.cut_write (d := greater) (by decide) kept bytes
  rw [hread, hgreater] at hcut
  rw [hread] at hopen
  have hword : (s.setPending c (Utf8.write (s.socks c).pending bytes).1).peers = s.peers := rfl
  rw [step, if_neg (by simp [hs, hc])]
  simp only
  rw [onData_eq_dialogs c (by simpa using hs), hword, hcut, hopen, State.setRead, setXmlWord_setXmlWord]

theorem enlisted_setXmlWord (s : State) (c d : SockId) (w : JsString) :
    enlisted (s.setXmlWord d w) c = (enlisted s c).setXmlWord d w := by
  have hpid : ∀ e, ((s.setXmlWord d w).peers e).pid = (s.peers e).pid := by
    intro e
    by_cases he : e = d
    · subst he
      simp
    · simp [he]
  have hwrites : ∀ owners, enlistWrites (s.setXmlWord d w) c owners = enlistWrites s c owners := by
    intro owners
    simp only [enlistWrites, onlineWrites, allWrites, hpid]
    rfl
  rw [enlisted, hwrites, hpid]
  rfl

/-- The dialog of the login frame of `c`, when the name is free. -/
theorem processDialog_loginBody {s : State} (hs : s.crashed = false) (ho : s.peerObjects.Plain) {c : SockId} {w : CString}
    (hclean : Clean w) (hfree : s.peerObjects.find (Utf8.lossy w) = none) :
    processDialog (s.setXmlWord c (Utf8.lossy (frame [cstr "login", w]))) c =
      (enlisted (s.setPid c (.string (Utf8.lossy w))) c).setXmlWord c (Utf8.lossy (frame [cstr "login", w])) := by
  have hlogin : Utf8.lossy (cstr "login") = "login".toList := by decide
  have hall : ∀ v ∈ [cstr "login", w], Clean v := by
    intro v hv
    rcases List.mem_cons.mp hv with rfl | hv
    · exact ⟨by decide, by decide⟩
    · obtain rfl := List.mem_singleton.mp hv
      exact hclean
  have hwords : (s.setXmlWord c (Utf8.lossy (frame [cstr "login", w]))).words c = ["login".toList, Utf8.lossy w] := by
    rw [State.words, xmlWord_setXmlWord, server_words (List.cons_ne_nil _ _) hall, ← hlogin]
    rfl
  have hcomm : ∀ v x, (s.setXmlWord c x).setPid c v = (s.setPid c v).setXmlWord c x := by
    intro v x
    simp [State.setXmlWord, State.setPid, State.setPeer]
  have hsent : (s.setXmlWord c (Utf8.lossy (frame [cstr "login", w]))).sentLogin c := by
    rw [State.sentLogin, hwords]
    rfl
  rw [processDialog_login hsent, hwords]
  have hfree' : (s.setXmlWord c (Utf8.lossy (frame [cstr "login", w]))).peerObjects.find
      (JsValue.word ["login".toList, Utf8.lossy w] 1).toText = none := hfree
  rw [login_free (s := s.setXmlWord c _) ho hs hfree', hcomm, enlisted_setXmlWord]
  rfl

/-- A piece of the stream that the login frame of `c` is read from: the frame is complete or it is not. -/
theorem step_login {s : State} (hs : s.crashed = false) (ho : s.peerObjects.Plain) {c : SockId} (hc : s.live c = true)
    {kept xs ys : List UInt8} (hread : s.HasRead c kept) {w : CString} (hclean : Clean w)
    (hfree : s.peerObjects.find (Utf8.lossy w) = none) (hcarries : Carries greater kept (xs ++ ys) [body [cstr "login", w]]) :
    (∃ kept', Carries greater kept' ys [body [cstr "login", w]] ∧ step s (.data c xs) = some (s.setRead c kept')) ∨
      ys = [] ∧ step s (.data c xs) = some (enlisted ((s.setRead c []).setPid c (.string (Utf8.lossy w))) c) := by
  obtain ⟨done, vs, hws, hcut, hrest⟩ := hcarries.read
  rw [step_data hs hc hread, hcut]
  cases done with
  | nil =>
    obtain rfl : vs = [body [cstr "login", w]] := hws.symm
    refine .inl ⟨_, hrest, ?_⟩
    simp [dialogs, State.setRead, hs]
  | cons f done =>
    obtain ⟨rfl, rfl, rfl⟩ : body [cstr "login", w] = f ∧ done = [] ∧ vs = [] := by simpa using hws
    obtain ⟨hkept, rfl⟩ := List.append_eq_nil_iff.mp hrest.stream_eq
    have hdialog := processDialog_loginBody (s := s.setRead c []) (c := c) hs ho hclean hfree
    have hrunning : (processDialog (((s.setRead c []).setXmlWord c []).setXmlWord c
        (Utf8.lossy (frame [cstr "login", w]))) c).crashed = false := by
      rw [setXmlWord_setXmlWord, hdialog]
      exact hs
    have hframes : ([body [cstr "login", w]].map (· ++ [greater])).map Utf8.lossy =
        [Utf8.lossy (frame [cstr "login", w])] := rfl
    refine .inr ⟨rfl, ?_⟩
    have hword : ((enlisted ((s.setRead c []).setPid c (.string (Utf8.lossy w))) c).peers c).xmlWord = [] := by
      simp [enlisted, State.setRead]
    have hself := setXmlWord_self (enlisted ((s.setRead c []).setPid c (.string (Utf8.lossy w))) c) c
    rw [hword] at hself
    have hcrashed : (enlisted ((s.setRead c []).setPid c (.string (Utf8.lossy w))) c).crashed = false := hs
    rw [hkept, hframes, dialogs_running hrunning, setXmlWord_setXmlWord, hdialog]
    simp [dialogs, hself, hcrashed]

@[simp] theorem enlisted_peerObjects (s : State) (c : SockId) (w : JsString) :
    (enlisted (s.setPid c (.string w)) c).peerObjects = s.peerObjects.assign w c := by
  simp [enlisted]

theorem hasRead_enlisted (s : State) (c : SockId) (v : JsValue) : (enlisted ((s.setRead c []).setPid c v) c).HasRead c [] := by
  simp [State.HasRead, State.setRead, enlisted]

theorem isNotice_enlistWrites {s : State} {c : SockId} {owners : List SockId} :
    ∀ w ∈ enlistWrites s c owners, w.frame.isNotice = true := by
  intro w hw
  rcases List.mem_append.mp hw with hw | hw <;> obtain ⟨d, -, rfl⟩ := List.mem_map.mp hw <;> rfl

/-- The write that a send frame of `c` causes, if the name it asks for is registered. -/
def messageWrites (o : PeerObjects) (c : SockId) (pid to_ : JsString) (words : List JsString) : List Write :=
  match o.find to_ with
  | none => []
  | some d => [⟨d, .message pid words, c, o⟩]

theorem processDialog_send {s : State} (ho : s.peerObjects.Plain) {c : SockId} {pid to_ : JsString}
    {words : List JsString} (hpid : (s.peers c).pid = .string pid)
    (hwords : wordsOf (s.peers c).xmlWord = "send".toList :: to_ :: words) :
    processDialog s c = s.log (messageWrites s.peerObjects c pid to_ words) := by
  have hlogin : ¬ s.sentLogin c := by
    rw [State.sentLogin, State.words, hwords]
    simp
  have hsend : processDialog s c = if (s.words c)[0]? = some "send".toList then send s c (s.words c) else s := if_neg hlogin
  have hto : (JsValue.word (s.words c) 1).toText = to_ := by
    rw [State.words, hwords]
    rfl
  rw [hsend, if_pos (by rw [State.words, hwords]; rfl), send, hpid]
  simp only [hto, ho.hasOwnProperty, messageWrites]
  rcases hfind : s.peerObjects.find to_ with _ | d
  · simp
  · simp [State.write, State.words, hwords]

/-- The writes that the send frames of `c` cause. -/
def relayed (o : PeerObjects) (c : SockId) (pid : JsString) (fs : List (CString × List CString)) : List Write :=
  fs.flatMap fun f => messageWrites o c pid (Utf8.lossy f.1) (f.2.map Utf8.lossy)

end DialogServer

/-- A call of `SendMessage` whose words leave the frame whole. -/
structure CleanMessage (f : CString × List CString) : Prop where
  to_ : Clean f.1
  words : ∀ w ∈ f.2, Clean w

/-- The frame of a call of `SendMessage`, without its `>`. -/
def sendBody (f : CString × List CString) : CString := body (cstr "send" :: f.1 :: f.2)

theorem CleanMessage.all {f : CString × List CString} (h : CleanMessage f) :
    ∀ w ∈ cstr "send" :: f.1 :: f.2, Clean w := by
  have hsend : Clean (cstr "send") := ⟨by decide, by decide⟩
  intro w hw
  rcases List.mem_cons.mp hw with rfl | hw
  · exact hsend
  · rcases List.mem_cons.mp hw with rfl | hw
    · exact h.to_
    · exact h.words w hw

theorem greater_not_mem_sendBody {f : CString × List CString} (h : CleanMessage f) : greater ∉ sendBody f :=
  greater_not_mem_body fun w hw => (h.all w hw).greater

namespace DialogServer

/-- The dialog of a send frame of `c`. -/
theorem processDialog_sendBody {s : State} (ho : s.peerObjects.Plain) {c : SockId} {pid : JsString}
    (hpid : (s.peers c).pid = .string pid) {f : CString × List CString} (hclean : CleanMessage f) :
    processDialog (s.setXmlWord c (Utf8.lossy (sendBody f ++ [greater]))) c =
      (s.setXmlWord c (Utf8.lossy (sendBody f ++ [greater]))).log
        (messageWrites s.peerObjects c pid (Utf8.lossy f.1) (f.2.map Utf8.lossy)) := by
  have hsend : Utf8.lossy (cstr "send") = "send".toList := by decide
  have hwords : wordsOf (Utf8.lossy (sendBody f ++ [greater])) =
      "send".toList :: Utf8.lossy f.1 :: f.2.map Utf8.lossy := by
    rw [← hsend, ← List.map_cons, ← List.map_cons]
    exact server_words (List.cons_ne_nil _ _) hclean.all
  have hpid' := (pid_setXmlWord s c (Utf8.lossy (sendBody f ++ [greater]))).trans hpid
  rw [← xmlWord_setXmlWord s c (Utf8.lossy (sendBody f ++ [greater]))] at hwords
  exact processDialog_send (s := s.setXmlWord c (Utf8.lossy (sendBody f ++ [greater]))) ho hpid' hwords

theorem dialogs_sends {s : State} (hs : s.crashed = false) (ho : s.peerObjects.Plain) {c : SockId} {pid : JsString}
    (hpid : (s.peers c).pid = .string pid) {fs : List (CString × List CString)} (hclean : ∀ f ∈ fs, CleanMessage f) :
    dialogs c (s.setXmlWord c []) (fs.map fun f => Utf8.lossy (sendBody f ++ [greater])) =
      (s.setXmlWord c []).log (relayed s.peerObjects c pid fs) := by
  induction fs generalizing s with
  | nil => simp [dialogs, relayed]
  | cons f fs ih =>
    have hdialog := processDialog_sendBody ho hpid (hclean f List.mem_cons_self)
    have hrest : ((s.setXmlWord c (Utf8.lossy (sendBody f ++ [greater]))).log
        (messageWrites s.peerObjects c pid (Utf8.lossy f.1) (f.2.map Utf8.lossy))).setXmlWord c [] =
          (s.log (messageWrites s.peerObjects c pid (Utf8.lossy f.1) (f.2.map Utf8.lossy))).setXmlWord c [] := by
      simp [State.setXmlWord, State.setPeer, State.log]
    have hrunning : (processDialog ((s.setXmlWord c []).setXmlWord c (Utf8.lossy (sendBody f ++ [greater]))) c).crashed =
        false := by
      rw [setXmlWord_setXmlWord, hdialog]
      exact hs
    have := ih (s := s.log (messageWrites s.peerObjects c pid (Utf8.lossy f.1) (f.2.map Utf8.lossy))) hs ho hpid
      fun g hg => hclean g (List.mem_cons_of_mem _ hg)
    rw [List.map_cons, dialogs_running hrunning, setXmlWord_setXmlWord, hdialog, hrest, this]
    simp [State.setXmlWord, State.setPeer, State.log, relayed]

/-- The send frames of `c` that a piece of its stream completes are relayed, in order. -/
theorem step_sends {s : State} (hs : s.crashed = false) (ho : s.peerObjects.Plain) {c : SockId} {pid : JsString}
    (hc : s.live c = true) (hpid : (s.peers c).pid = .string pid) {kept xs ys : List UInt8} (hread : s.HasRead c kept)
    {fs : List (CString × List CString)} (hclean : ∀ f ∈ fs, CleanMessage f)
    (hcarries : Carries greater kept (xs ++ ys) (fs.map sendBody)) :
    ∃ done rest kept', fs = done ++ rest ∧ Carries greater kept' ys (rest.map sendBody) ∧
      step s (.data c xs) = some ((s.setRead c kept').log (relayed s.peerObjects c pid done)) := by
  obtain ⟨us, vs, hws, hcut, hrest⟩ := hcarries.read
  obtain ⟨done, rest, rfl, rfl, rfl⟩ := List.map_eq_append_iff.mp hws
  refine ⟨done, rest, _, rfl, hrest, ?_⟩
  have hframes : (cut greater kept xs).1.map Utf8.lossy = done.map fun f => Utf8.lossy (sendBody f ++ [greater]) := by
    simp [hcut]
  have hpid' : ((s.setRead c (cut greater kept xs).2).peers c).pid = .string pid := by simpa [State.setRead] using hpid
  have hdialogs := dialogs_sends (s := s.setRead c (cut greater kept xs).2) hs ho hpid' fun f hf =>
    hclean f (List.mem_append_left _ hf)
  rw [step_data hs hc hread, hframes]
  simp only [hdialogs]
  rw [if_neg (by simp [State.setRead, hs])]
  simp [State.setXmlWord, State.setPeer, State.log, State.setRead, State.setPending, State.setSock]

/-- The pieces of a stream of send frames are handled one after the other. -/
theorem run_sends {s : State} (hs : s.crashed = false) (ho : s.peerObjects.Plain) {c : SockId} {pid : JsString}
    (hc : s.live c = true) (hpid : (s.peers c).pid = .string pid) {kept ys : List UInt8} (hread : s.HasRead c kept)
    {fs : List (CString × List CString)} (hclean : ∀ f ∈ fs, CleanMessage f) {pieces : List (List UInt8)}
    (hcarries : Carries greater kept (pieces.flatten ++ ys) (fs.map sendBody)) :
    ∃ done rest kept' s', fs = done ++ rest ∧ Carries greater kept' ys (rest.map sendBody) ∧
      run s (pieces.map (.data c)) = some s' ∧ s'.written = s.written ++ relayed s.peerObjects c pid done := by
  induction pieces generalizing s kept fs with
  | nil => exact ⟨[], fs, kept, s, rfl, hcarries, rfl, by simp [relayed]⟩
  | cons xs pieces ih =>
    rw [List.flatten_cons, List.append_assoc] at hcarries
    obtain ⟨done, rest, kept', rfl, hrest, hstep⟩ := step_sends hs ho hc hpid hread hclean hcarries
    have hread' : ((s.setRead c kept').log (relayed s.peerObjects c pid done)).HasRead c kept' :=
      hasRead_setRead s c kept'
    have hc' : ((s.setRead c kept').log (relayed s.peerObjects c pid done)).live c = true := by
      simpa [State.live, State.setRead] using hc
    have hpid' : (((s.setRead c kept').log (relayed s.peerObjects c pid done)).peers c).pid = .string pid := by
      simpa [State.setRead] using hpid
    obtain ⟨done', rest', kept'', s', rfl, hrest', hrun, hwritten⟩ :=
      ih (s := (s.setRead c kept').log (relayed s.peerObjects c pid done)) hs ho hc' hpid' hread'
        (fun f hf => hclean f (List.mem_append_right _ hf)) hrest
    refine ⟨done ++ done', rest', kept'', s', by simp, hrest', ?_, ?_⟩
    · rw [List.map_cons, run, hstep]
      exact hrun
    · rw [hwritten]
      simp [State.setRead, relayed]

@[simp] theorem bytesTo_append (d : SockId) (ws vs : List Write) : bytesTo d (ws ++ vs) = bytesTo d ws ++ bytesTo d vs := by
  simp [bytesTo]

/-- The words of a frame hold no delimiter. -/
def Frame.Clean (f : Frame) : Prop := ∀ w ∈ f.words, ':' ∉ w ∧ '>' ∉ w

/-- The frame without its `>`, as bytes. -/
def Frame.bytes (f : Frame) : CString := body (f.words.map Utf8.encode)

theorem encode_xml_eq (f : Frame) : Utf8.encode f.xml = f.bytes ++ [greater] := encode_xml f

theorem bytesTo_eq_stream (d : SockId) (ws : List Write) :
    bytesTo d ws = stream greater ((ws.filter fun w => w.sock = d).map fun w => w.frame.bytes) := by
  simp only [bytesTo, encode_xml_eq, stream, List.flatMap_map]

theorem clean_encode {w : JsString} (h : ':' ∉ w ∧ '>' ∉ w) : Clean (Utf8.encode w) where
  colon hmem := h.1 ((Utf8.mem_encode (b := colon) (by decide)).mp hmem)
  greater hmem := h.2 ((Utf8.mem_encode (b := greater) (by decide)).mp hmem)

theorem Frame.Clean.encode {f : Frame} (h : f.Clean) : ∀ w ∈ f.words.map Utf8.encode, ProbICE.Clean w := by
  simp only [List.mem_map]
  rintro w ⟨v, hv, rfl⟩
  exact clean_encode (h v hv)

theorem Frame.Clean.greater {f : Frame} (h : f.Clean) : ProbICE.greater ∉ f.bytes :=
  greater_not_mem_body fun w hw => (h.encode w hw).greater

/-- The signal that a client raises for a frame. -/
def Frame.signal : Frame → Signal
  | online p => .remoteOnline (Utf8.encode p)
  | login p => .remoteLogin (Utf8.encode p)
  | offline p => .remoteOffline (Utf8.encode p)
  | message p ws => .remoteMessage (Utf8.encode p) (ws.map Utf8.encode)

theorem signalsOf_words (f : Frame) : Peer.signalsOf (f.words.map Utf8.encode) = [f.signal] := by
  cases f with
  | online p => rfl
  | login p => rfl
  | offline p => rfl
  | message p ws => rfl

theorem processXML_bytes {f : Frame} (h : f.Clean) : Peer.processXML (f.bytes ++ [ProbICE.greater]) = [f.signal] := by
  have hne : f.words.map Utf8.encode ≠ [] := by cases f <;> exact List.cons_ne_nil _ _
  rw [← signalsOf_words, Peer.processXML]
  exact congrArg Peer.signalsOf (Peer.wordsOf_frame hne h.encode)

end DialogServer

/-! ### The client -/

namespace Peer

/-- `onReadEvent` handles the frames of the bytes and keeps what stands behind them. -/
theorem readBytes_eq_cut (xmlBuffer : CString) (bs : List UInt8) :
    readBytes xmlBuffer bs = ((cut greater xmlBuffer bs).2, (cut greater xmlBuffer bs).1.flatMap processXML) := by
  induction bs generalizing xmlBuffer with
  | nil => rfl
  | cons b bs ih =>
    by_cases hb : b = greater
    · subst hb
      rw [cut_cons_self, readBytes]
      simp [ih]
    · rw [cut_cons_ne hb, readBytes]
      simp only [hb, if_false, ih]

/-- One read: the frames that its bytes complete are handled. -/
theorem onReadEvent_eq {p : Peer} (hp : p.sock.isSome) {temp : List UInt8} (hne : temp ≠ []) :
    p.onReadEvent temp = ({ p with xmlBuffer := (cut greater p.xmlBuffer temp).2 },
      .printString (cstr "\t<===: " ++ temp.takeWhile (· ≠ 0)) :: (cut greater p.xmlBuffer temp).1.flatMap processXML) := by
  obtain ⟨sock, hsock⟩ := Option.isSome_iff_exists.mp hp
  rw [onReadEvent, hsock]
  simp only [if_neg hne, readBytes_eq_cut]

/-- The reads of the pieces of a stream. What is not seen of the texts that the peer prints does not depend
    on the pieces. -/
theorem reads_eq {α : Type} {g : Signal → Option α} (hg : ∀ msg, g (.printString msg) = none) {p : Peer}
    (hp : p.sock.isSome) (pieces : List (List UInt8)) :
    (Emit.forEach onReadEvent p pieces).1 = { p with xmlBuffer := (cut greater p.xmlBuffer pieces.flatten).2 } ∧
      (Emit.forEach onReadEvent p pieces).2.filterMap g =
        ((cut greater p.xmlBuffer pieces.flatten).1.flatMap processXML).filterMap g := by
  induction pieces generalizing p with
  | nil => exact ⟨rfl, rfl⟩
  | cons xs pieces ih =>
    have hread : (onReadEvent p xs).1 = { p with xmlBuffer := (cut greater p.xmlBuffer xs).2 } ∧
        (onReadEvent p xs).2.filterMap g = ((cut greater p.xmlBuffer xs).1.flatMap processXML).filterMap g := by
      by_cases hxs : xs = []
      · obtain ⟨sock, hsock⟩ := Option.isSome_iff_exists.mp hp
        have hskip : onReadEvent p [] = (p, []) := by
          rw [onReadEvent, hsock]
          rfl
        rw [hxs, hskip]
        exact ⟨rfl, rfl⟩
      · rw [onReadEvent_eq hp hxs]
        exact ⟨rfl, List.filterMap_cons_none (hg _)⟩
    obtain ⟨hpeer, hsignals⟩ := ih (p := (onReadEvent p xs).1) (by rw [hread.1]; exact hp)
    rw [hread.1] at hpeer hsignals
    rw [Emit.forEach_cons, Emit.andThen, List.flatten_cons, cut_append, hread.1]
    refine ⟨hpeer, ?_⟩
    rw [List.filterMap_append, hread.2, hsignals, List.flatMap_append, List.filterMap_append]

/-- The signals of whole frames of the server. -/
theorem processXML_frames {fs : List DialogServer.Frame} (hclean : ∀ f ∈ fs, f.Clean) :
    (fs.map ((· ++ [greater]) ∘ DialogServer.Frame.bytes)).flatMap processXML = fs.map DialogServer.Frame.signal := by
  induction fs with
  | nil => rfl
  | cons f fs ih =>
    have hfirst := DialogServer.processXML_bytes (hclean f List.mem_cons_self)
    have hrest := ih fun f' hf' => hclean f' (List.mem_cons_of_mem _ hf')
    rw [List.map_cons, List.flatMap_cons, hrest, Function.comp_apply, hfirst]
    rfl

/-- A client that reads a whole stream of server frames raises the signals of the frames, in order. -/
theorem reads_frames {α : Type} {g : Signal → Option α} (hg : ∀ msg, g (.printString msg) = none) {p : Peer}
    (hp : p.sock.isSome) {fs : List DialogServer.Frame} (hclean : ∀ f ∈ fs, f.Clean) {pieces : List (List UInt8)}
    (hcarries : Carries greater p.xmlBuffer pieces.flatten (fs.map DialogServer.Frame.bytes)) :
    (Emit.forEach onReadEvent p pieces).2.filterMap g = fs.filterMap fun f => g f.signal := by
  rw [← List.append_nil pieces.flatten] at hcarries
  obtain ⟨done, vs, hws, hcut, hrest⟩ := hcarries.read
  have hkept := hrest.kept_eq_nil
  rw [hkept] at hrest
  rw [hrest.eq_nil, List.append_nil] at hws
  rw [(reads_eq hg hp pieces).2, hcut, ← hws, List.map_map, processXML_frames hclean, List.filterMap_map]
  rfl

end Peer

end ProbICE
