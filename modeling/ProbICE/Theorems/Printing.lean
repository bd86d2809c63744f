import ProbICE.Console

/-! # What reaches the page of the Android application

A string comes to `onPrintString` unchanged when nobody sends in the middle of it, when it fits the buffer of the
reader, and when every character of it may stand in the literal of the script. -/

namespace ProbICE

/-! ### The script of a string -/

theorem takeWhile_literal {msg : JsString} (h : ∀ c ∈ msg, plainChar c = true) :
    (msg ++ callSuffix).takeWhile plainChar = msg := by
  rw [List.takeWhile_append_of_pos h]
  have hend : callSuffix.takeWhile plainChar = [] := by decide
  rw [hend, List.append_nil]

/-- The script is a call with this literal if and only if no character of the string ends the literal or changes its
    value. -/
theorem callOf_eq_some_iff {msg arg : JsString} :
    callOf (callPrefix ++ msg ++ callSuffix) = some arg ↔ (∀ c ∈ msg, plainChar c = true) ∧ arg = msg := by
  have hbegin : callPrefix <+: callPrefix ++ msg ++ callSuffix :=
    List.append_assoc callPrefix msg callSuffix ▸ List.prefix_append _ _
  have hrest : (callPrefix ++ msg ++ callSuffix).drop callPrefix.length = msg ++ callSuffix := by
    rw [List.append_assoc, List.drop_left]
  rw [callOf, if_pos hbegin]
  simp only [← List.drop_drop, hrest]
  constructor
  · intro h
    obtain ⟨hsuffix, harg⟩ := Option.ite_none_right_eq_some.mp h
    obtain rfl := Option.some.inj harg
    have hsplit := List.take_append_drop ((msg ++ callSuffix).takeWhile plainChar).length (msg ++ callSuffix)
    rw [hsuffix, List.append_cancel_right_eq] at hsplit
    have hliteral : (msg ++ callSuffix).takeWhile plainChar = msg := by
      refine Eq.trans ?_ hsplit
      exact (List.prefix_iff_eq_take.mp (List.takeWhile_prefix plainChar))
    rw [hliteral]
    refine ⟨fun c hc => ?_, rfl⟩
    rw [← hliteral] at hc
    exact List.all_eq_true.mp List.all_takeWhile c hc
  · rintro ⟨hplain, rfl⟩
    rw [takeWhile_literal hplain, List.drop_left]
    simp

/-! ### One step -/

namespace Console
open Delimited

/-- The string has a text without NUL, fits the buffer, and the `WebView` lets its characters stand in a literal. -/
structure Printable (w : WebView) (msg : CString) : Prop where
  valid : Utf8.Valid msg
  fits : msg.length < bufferSize
  clean : 0 ∉ msg
  plain : ∀ c ∈ Utf8.lossy msg, plainChar c = true ∧ w.keeps c = true

/-- A printable string is sent while no other is on the way to its end. -/
def Orderly (w : WebView) (c : Console) : Event → Prop
  | .sendText _ msg => (∀ thread, c.sending thread = false) ∧ Printable w msg
  | _ => True

/-- The call that a print is meant to make. -/
def callFor (print : Printer × CString) : Evaluated := .onPrintString (Utf8.lossy print.2)

/-- Everything that was printed has come to its end and been handled. -/
structure Settled (c : Console) : Prop where
  sending : ∀ thread, c.sending thread = false
  socket : c.socket = []
  progress : c.progress = []

/-- The page sees one call for each string that was printed, with this string, in the order of the prints, and nothing
    else. -/
structure Faithful (c : Console) : Prop where
  alive : c.crashed = false
  exact : ∀ print ∈ c.printed, Utf8.encode (Utf8.lossy print.2) = print.2
  calls : c.evaluated <+: c.printed.map callFor
  complete : c.Settled → c.evaluated = c.printed.map callFor

/-- The ends that are still to be sent. -/
inductive Pending (c : Console) : List UInt8 → Prop where
  | none (h : ∀ thread, c.sending thread = false) : Pending c []
  | one (thread : Printer) (h : ∀ t, c.sending t = true ↔ t = thread) : Pending c [0]

/-- Some prints have been published and the others are in the stream, whose last end may still be to come. -/
structure InOrder (w : WebView) (c : Console) : Prop where
  alive : c.crashed = false
  printable : ∀ print ∈ c.printed, Printable w print.2
  stream : ∃ published waiting ending, c.printed = published ++ waiting ∧ c.Pending ending ∧
    Carries 0 c.receiveData (c.socket ++ ending) (waiting.map Prod.snd) ∧
    c.evaluated ++ c.progress.map .onPrintString = published.map callFor

theorem inOrder_new (w : WebView) : InOrder w new where
  alive := rfl
  printable := by simp [new]
  stream := ⟨[], [], [], rfl, .none fun _ => rfl, .nil, rfl⟩

theorem loadUrl_printable {w : WebView} (hw : w.Evaluates) {msg : CString} (h : Printable w msg) :
    w.loadUrl (javascript ++ (callPrefix ++ Utf8.lossy msg ++ callSuffix)) = [.onPrintString (Utf8.lossy msg)] := by
  refine hw.loadUrl_call _ _ (fun c hc => ?_) (callOf_eq_some_iff.mpr ⟨fun c hc => (h.plain c hc).1, rfl⟩)
  rw [List.mem_append, List.mem_append] at hc
  obtain (hc | hc) | hc := hc
  · exact hw.keeps_call c (List.mem_append_left _ (List.mem_append_right _ hc))
  · exact (h.plain c hc).2
  · exact hw.keeps_call c (List.mem_append_right _ hc)

/-- What the reader has kept fits its buffer. -/
theorem InOrder.fits {w : WebView} {c : Console} (h : InOrder w c) : c.receiveData.length < bufferSize := by
  obtain ⟨published, waiting, ending, hprinted, -, hcarries, -⟩ := h.stream
  by_cases hnil : c.receiveData = []
  · rw [hnil]
    decide
  · obtain ⟨msg, rest, hwaiting, hfront⟩ := hcarries.prefix_of_kept hnil
    have hmsg : msg ∈ waiting.map Prod.snd := by
      rw [hwaiting]
      exact List.mem_cons_self
    obtain ⟨print, hprint, rfl⟩ := List.mem_map.mp hmsg
    refine lt_of_le_of_lt hfront.length_le (h.printable print ?_).fits
    rw [hprinted]
    exact List.mem_append_right _ hprint

theorem InOrder.sendText {w : WebView} {c : Console} (h : InOrder w c) {thread : Printer} {msg : CString}
    (hidle : ∀ t, c.sending t = false) (hmsg : Printable w msg) : InOrder w (c.sendText thread msg) := by
  obtain ⟨published, waiting, ending, hprinted, hpending, hcarries, hcalls⟩ := h.stream
  obtain rfl : ending = [] := by
    cases hpending with
    | none => rfl
    | one t ht =>
      have hsending := (ht t).mpr rfl
      simp [hidle t] at hsending
  refine ⟨h.alive, ?_, published, waiting ++ [(thread, msg)], [0], ?_, .one thread ?_, ?_, hcalls⟩
  · intro print hprint
    rcases List.mem_append.mp hprint with hold | hnew
    · exact h.printable print hold
    · obtain rfl := List.mem_singleton.mp hnew
      exact hmsg
  · simp [Console.sendText, hprinted]
  · intro t
    simp [Console.sendText, hidle t]
  · have hpush : Carries 0 c.receiveData (c.socket ++ [] ++ Delimited.stream 0 [msg]) (waiting.map Prod.snd ++ [msg]) :=
      hcarries.push (by simpa using hmsg.clean)
    simpa [Console.sendText] using hpush

theorem InOrder.sendEnd {w : WebView} {c : Console} (h : InOrder w c) {thread : Printer}
    (hsending : c.sending thread = true) : InOrder w (c.sendEnd thread) := by
  obtain ⟨published, waiting, ending, hprinted, hpending, hcarries, hcalls⟩ := h.stream
  cases hpending with
  | none hidle => simp [hidle thread] at hsending
  | one t ht =>
    obtain rfl := (ht thread).mp hsending
    refine ⟨h.alive, h.printable, published, waiting, [], hprinted, .none fun t => ?_, ?_, hcalls⟩
    · have ht := ht t
      by_cases heq : t = thread
      · simp [Console.sendEnd, heq]
      · have hnot : c.sending t = false := by simpa [heq] using ht
        simp [Console.sendEnd, hnot]
    · simpa [Console.sendEnd] using hcarries

theorem InOrder.readByte {w : WebView} {c : Console} (h : InOrder w c) {b : UInt8} {socket : List UInt8}
    (hsocket : c.socket = b :: socket) : InOrder w ({ c with socket }.readByte b) := by
  obtain ⟨published, waiting, ending, hprinted, hpending, hcarries, hcalls⟩ := h.stream
  have hending : ∀ c' : Console, c'.sending = c.sending → c'.Pending ending := by
    intro c' hsame
    cases hpending with
    | none hidle => exact .none (by rw [hsame]; exact hidle)
    | one t ht => exact .one t (by rw [hsame]; exact ht)
  rw [hsocket, List.cons_append] at hcarries
  by_cases hb : b = 0
  · subst hb
    obtain ⟨rest, hwaiting, hrest⟩ := hcarries.read_self
    obtain ⟨print, waiting, rfl, hprint, rfl⟩ := List.map_eq_cons_iff.mp hwaiting
    refine ⟨h.alive, h.printable, published ++ [print], waiting, ending, ?_, hending _ rfl, hrest, ?_⟩
    · show c.printed = published ++ [print] ++ waiting
      rw [hprinted]
      simp
    · show c.evaluated ++ (c.progress ++ [Utf8.lossy c.receiveData]).map .onPrintString = (published ++ [print]).map callFor
      rw [List.map_append, List.map_append, ← hcalls, ← hprint]
      simp [callFor]
  · have hread : { c with socket }.readByte b = { c with socket, receiveData := c.receiveData ++ [b] } := if_neg hb
    rw [hread]
    exact ⟨h.alive, h.printable, published, waiting, ending, hprinted, hending _ rfl, hcarries.read_ne hb, hcalls⟩

theorem InOrder.onProgressUpdate {w : WebView} (hw : w.Evaluates) {c : Console} (h : InOrder w c) {xmlMessage : JsString}
    {progress : List JsString} (hprogress : c.progress = xmlMessage :: progress) :
    InOrder w ({ c with progress }.onProgressUpdate w xmlMessage) := by
  obtain ⟨published, waiting, ending, hprinted, hpending, hcarries, hcalls⟩ := h.stream
  rw [hprogress] at hcalls
  -- the oldest string is that of a print
  have hmem : Evaluated.onPrintString xmlMessage ∈ published.map callFor := by
    rw [← hcalls]
    simp
  obtain ⟨print, hprint, hcall⟩ := List.mem_map.mp hmem
  obtain rfl : Utf8.lossy print.2 = xmlMessage := Evaluated.onPrintString.inj hcall
  have hprintable := h.printable print (by rw [hprinted]; exact List.mem_append_left _ hprint)
  have hpending' : Pending ({ c with progress }.onProgressUpdate w (Utf8.lossy print.2)) ending := by
    cases hpending with
    | none hidle => exact .none hidle
    | one t ht => exact .one t ht
  refine ⟨h.alive, h.printable, published, waiting, ending, hprinted, hpending', hcarries, ?_⟩
  show (c.evaluated ++ w.loadUrl _) ++ progress.map .onPrintString = published.map callFor
  rw [loadUrl_printable hw hprintable, ← hcalls]
  simp

/-! ### Runs -/

theorem InOrder.step {w : WebView} (hw : w.Evaluates) {c d : Console} (h : InOrder w c) {e : Event} (horderly : Orderly w c e)
    (hstep : c.step w e = some d) : InOrder w d := by
  unfold Console.step at hstep
  rw [if_neg (by simp [h.alive])] at hstep
  cases e with
  | sendText thread msg =>
    obtain ⟨-, hd⟩ := Option.ite_none_left_eq_some.mp hstep
    obtain rfl := Option.some.inj hd
    exact h.sendText horderly.1 horderly.2
  | sendEnd thread =>
    obtain ⟨hsending, hd⟩ := Option.ite_none_right_eq_some.mp hstep
    obtain rfl := Option.some.inj hd
    exact h.sendEnd hsending
  | read =>
    dsimp only at hstep
    rw [if_neg (Nat.not_le.mpr h.fits)] at hstep
    rcases hsocket : c.socket with _ | ⟨b, socket⟩
    · simp [hsocket] at hstep
    · obtain rfl : { c with socket }.readByte b = d := by simpa [hsocket] using hstep
      exact h.readByte hsocket
  | progress =>
    rcases hprogress : c.progress with _ | ⟨xmlMessage, progress⟩
    · simp [hprogress] at hstep
    · obtain rfl : { c with progress }.onProgressUpdate w xmlMessage = d := by simpa [hprogress] using hstep
      exact h.onProgressUpdate hw hprogress

theorem faithful_of_inOrder {w : WebView} {c : Console} (h : InOrder w c) : c.Faithful := by
  obtain ⟨published, waiting, ending, hprinted, hpending, hcarries, hcalls⟩ := h.stream
  refine ⟨h.alive, fun print hprint => Utf8.scrub_eq_self_iff.mpr (h.printable print hprint).valid, ?_, fun hsettled => ?_⟩
  · rw [hprinted, List.map_append, ← hcalls, List.append_assoc]
    exact List.prefix_append _ _
  · have hending : ending = [] := by
      cases hpending with
      | none => rfl
      | one t ht =>
        have hsending := (ht t).mpr rfl
        simp [hsettled.sending t] at hsending
    rw [hsettled.socket, hending] at hcarries
    have hkept : c.receiveData = [] := hcarries.kept_eq_nil
    rw [hkept] at hcarries
    have hwaiting : waiting = [] := List.map_eq_nil_iff.mp hcarries.eq_nil
    rw [hprinted, hwaiting, List.append_nil, ← hcalls, hsettled.progress]
    simp

/-- In a run in which every print is orderly, the page sees in every state what was printed. -/
theorem prints_faithful {w : WebView} (hw : w.Evaluates) {es : List Event} {c : Console} (hrun : new.run w es = some c)
    (horderly : Machine.Along (step w) (Orderly w) new es) : c.Faithful :=
  faithful_of_inOrder (Machine.along_keeps (fun _ _ _ hs he hstep => InOrder.step hw hs he hstep) (inOrder_new w) horderly hrun)

/-! ### Two threads that print -/

/-- A `WebView` that evaluates such calls. -/
def plainView : WebView where
  keeps _ := true
  loadUrl url :=
    match callOf (url.drop javascript.length) with
    | some arg => [.onPrintString arg]
    | none => [.other url]

theorem evaluates_plainView : plainView.Evaluates where
  keeps_call _ _ := rfl
  loadUrl_call script arg _ h := by
    show (match callOf ((javascript ++ script).drop javascript.length) with
      | some arg => [Evaluated.onPrintString arg]
      | none => [.other (javascript ++ script)]) = _
    rw [List.drop_left, h]

theorem plain_of_all {msg : JsString} (h : msg.all plainChar = true) :
    ∀ c ∈ msg, plainChar c = true ∧ plainView.keeps c = true :=
  fun c hc => ⟨List.all_eq_true.mp h c hc, rfl⟩

/-- The thread reads `n` bytes and the page handles a string. -/
def takes (n : Nat) : List Event := List.replicate n .read ++ [.progress]

/-- A packet is printed, and then a message of the signaling thread. -/
def taking_turns : List Event :=
  [.sendText .worker (onChannelReadPacket (cstr "A")), .sendEnd .worker, .sendText .signaling (cstr "B"), .sendEnd .signaling] ++
    takes 13 ++ takes 2

theorem prints_faithful_taking_turns :
    ∃ c, new.run plainView taking_turns = some c ∧ c.Faithful ∧
      c.evaluated = [.onPrintString "Get packet:A".toList, .onPrintString "B".toList] := by
  have hpacket : Printable plainView (onChannelReadPacket (cstr "A")) :=
    ⟨Utf8.valid_of_ascii (Utf8.ascii_of_all (by decide)), by decide, by decide, plain_of_all (by decide)⟩
  have hmessage : Printable plainView (cstr "B") :=
    ⟨Utf8.valid_of_ascii (Utf8.ascii_of_all (by decide)), by decide, by decide, plain_of_all (by decide)⟩
  have horderly : Machine.Along (step plainView) (Orderly plainView) new taking_turns := by
    refine ⟨⟨fun _ => rfl, hpacket⟩, fun c hc => ?_⟩
    obtain rfl := Option.some.inj hc
    refine ⟨trivial, fun c hc => ?_⟩
    obtain rfl := Option.some.inj hc
    refine ⟨⟨fun thread => by cases thread <;> rfl, hmessage⟩, fun c _ => ?_⟩
    -- the rest sends no string
    refine Machine.along_of_forall (fun c e he => ?_) c
    cases e with
    | sendText thread msg => simp [takes] at he
    | _ => trivial
  have hrun := (Option.some_get (x := new.run plainView taking_turns) (by decide)).symm
  exact ⟨_, hrun, prints_faithful evaluates_plainView hrun horderly, by decide⟩

/-- The signaling thread sends its string before the packet has come to its end. -/
def interleaved : List Event :=
  [.sendText .worker (onChannelReadPacket (cstr "A")), .sendText .signaling (cstr "B"), .sendEnd .worker, .sendEnd .signaling] ++
    takes 14 ++ takes 1

theorem prints_interleaved :
    ∃ c, new.run plainView interleaved = some c ∧ c.printed = [(.worker, cstr "Get packet:A"), (.signaling, cstr "B")] ∧
      c.evaluated = [.onPrintString "Get packet:AB".toList, .onPrintString []] :=
  ⟨_, (Option.some_get (x := new.run plainView interleaved) (by decide)).symm, by decide, by decide⟩

end Console

end ProbICE
