import ProbICE.DialogServer
import ProbICE.Peer

/-! # The frames of the two programs

Both programs write frames `<word:word:...>` and take them apart again, each with its own loop. Here are
the words that each side reads from a frame that the other side has written. -/

namespace ProbICE

/-- The text of a frame without its `>`. -/
def body (words : List CString) : CString := less :: [colon].intercalate words

/-- A frame. -/
def frame (words : List CString) : CString := body words ++ [greater]

/-- A word that the delimiters of a frame leave whole. -/
structure Clean (w : CString) : Prop where
  colon : colon ∉ w
  greater : greater ∉ w

/-- ASCII text without `:` and `>`. -/
def PlainText (w : CString) : Prop := ∀ b ∈ w, b.toNat < 0x80 ∧ b ≠ colon ∧ b ≠ greater

instance (w : CString) : Decidable (PlainText w) := List.decidableBAll _ w

theorem PlainText.clean {w : CString} (h : PlainText w) : Clean w :=
  ⟨fun hmem => (h _ hmem).2.1 rfl, fun hmem => (h _ hmem).2.2 rfl⟩

theorem PlainText.valid {w : CString} (h : PlainText w) : Utf8.Valid w := Utf8.valid_of_ascii fun b hb => (h b hb).1

theorem greater_not_mem_body {words : List CString} (h : ∀ w ∈ words, greater ∉ w) : greater ∉ body words := by
  rw [body, List.mem_cons, not_or]
  exact ⟨by decide, not_mem_intercalate (by decide) h⟩

/-! ### What the client writes -/

theorem msgPayload_eq (to_ : CString) (msg : List CString) :
    Peer.msgPayload to_ msg = frame (cstr "send" :: to_ :: msg) := by
  have hsep : cstr ":" = [colon] := by decide
  have hfront : cstr "<send:" = less :: cstr "send" ++ [colon] := by decide
  have hend : cstr ">" = [greater] := by decide
  rw [Peer.msgPayload, hsep, foldl_separated colon, frame, body, List.intercalate_cons_cons,
    intercalate_cons_eq_flatMap, intercalate_cons_eq_flatMap, hfront, hend]
  simp

theorem loginMessage_eq (id : CString) : Peer.loginMessage id = frame [cstr "login", id] := by
  have hfront : cstr "<login:" = less :: cstr "login" ++ [colon] := by decide
  have hend : cstr ">" = [greater] := by decide
  rw [Peer.loginMessage, frame, body, List.intercalate_cons_cons, List.intercalate_singleton, hfront, hend]
  simp

/-! ### What the server reads -/

namespace DialogServer

/-- The text of a frame. -/
def textFrame (words : List JsString) : JsString := '<' :: [':'].intercalate words ++ ['>']

/-- The server takes the text between the first `<` and the first `>` apart. -/
theorem wordsOf_text {t : JsString} (h : '>' ∉ t) : wordsOf ('<' :: t ++ ['>']) = t.splitOn ':' := by
  have hbegin : indexOf '<' ('<' :: t ++ ['>']) = 0 := by
    simpa using indexOf_append_cons (List.not_mem_nil (a := '<')) (t ++ ['>'])
  have hend : indexOf '>' ('<' :: t ++ ['>']) = (t.length + 1 : Nat) :=
    indexOf_append_cons (by simpa using h) []
  have hsub : substring ('<' :: t ++ ['>']) 1 (t.length + 1 : Nat) = t := by
    simp [substring]
  rw [wordsOf, hbegin, hend]
  simp only [Int.zero_add, hsub]

theorem wordsOf_textFrame {words : List JsString} (hne : words ≠ []) (hcolon : ∀ w ∈ words, ':' ∉ w)
    (hgreater : ∀ w ∈ words, '>' ∉ w) : wordsOf (textFrame words) = words := by
  have hmem : '>' ∉ [':'].intercalate words := not_mem_intercalate (by decide) hgreater
  rw [textFrame, wordsOf_text hmem, List.splitOn_intercalate ':' hcolon hne]

end DialogServer

theorem lossy_intercalate (words : List CString) :
    Utf8.lossy ([colon].intercalate words) = [':'].intercalate (words.map Utf8.lossy) := by
  have hcolon : Utf8.ascii colon = ':' := by decide
  induction words with
  | nil => rfl
  | cons w ws ih =>
    cases ws with
    | nil => simp
    | cons v vs =>
      rw [List.map_cons, List.map_cons, List.intercalate_cons_cons, List.intercalate_cons_cons, List.append_assoc,
        List.singleton_append, Utf8.lossy_append_ascii (by decide), ih, hcolon]
      simp

/-- What the server makes of the bytes of a frame. -/
theorem lossy_frame (words : List CString) :
    Utf8.lossy (frame words) = DialogServer.textFrame (words.map Utf8.lossy) := by
  have hless : Utf8.ascii less = '<' := by decide
  have hgreater : Utf8.ascii greater = '>' := by decide
  have hfront : Utf8.lossy (frame words) = '<' :: Utf8.lossy ([colon].intercalate words ++ [greater]) := by
    have := Utf8.lossy_append_ascii (show less.toNat < 0x80 by decide) [] ([colon].intercalate words ++ [greater])
    rw [hless] at this
    exact this
  rw [hfront, Utf8.lossy_append_ascii (by decide), lossy_intercalate, hgreater]
  rfl

theorem colon_not_mem_lossy {w : CString} (h : Clean w) : ':' ∉ Utf8.lossy w :=
  Utf8.not_mem_lossy (b := colon) (by decide) h.colon

theorem greater_not_mem_lossy {w : CString} (h : greater ∉ w) : '>' ∉ Utf8.lossy w :=
  Utf8.not_mem_lossy (b := greater) (by decide) h

/-- The words that the server reads from a frame of clean words. -/
theorem server_words {words : List CString} (hne : words ≠ []) (h : ∀ w ∈ words, Clean w) :
    DialogServer.wordsOf (Utf8.lossy (frame words)) = words.map Utf8.lossy := by
  rw [lossy_frame]
  refine DialogServer.wordsOf_textFrame (by simpa using hne) ?_ ?_
  · simp only [List.mem_map]
    rintro t ⟨w, hw, rfl⟩
    exact colon_not_mem_lossy (h w hw)
  · simp only [List.mem_map]
    rintro t ⟨w, hw, rfl⟩
    exact greater_not_mem_lossy (h w hw).greater

/-! ### What the server writes -/

namespace DialogServer

/-- The words of a frame that the server writes. -/
def Frame.words : Frame → List JsString
  | online p => ["online".toList, p]
  | login p => ["login".toList, p]
  | offline p => ["offline".toList, p]
  | message p ws => "message".toList :: p :: ws

theorem two_words_xml (front p : JsString) :
    (('<' :: front ++ [':']) ++ p ++ ['>'] : JsString) = textFrame [front, p] := by
  rw [textFrame, List.intercalate_cons_cons, List.intercalate_singleton]
  simp

theorem Frame.xml_eq (f : Frame) : f.xml = textFrame f.words := by
  cases f with
  | online p => exact two_words_xml "online".toList p
  | login p => exact two_words_xml "login".toList p
  | offline p => exact two_words_xml "offline".toList p
  | message p ws =>
    have hxml : (Frame.message p ws).xml =
        ws.foldl (fun text w => text ++ [':'] ++ w) ('<' :: "message".toList ++ [':'] ++ p) ++ ['>'] := rfl
    rw [hxml, foldl_separated ':', intercalate_cons_eq_flatMap]
    show _ = '<' :: [':'].intercalate ("message".toList :: p :: ws) ++ ['>']
    rw [List.intercalate_cons_cons, intercalate_cons_eq_flatMap]
    simp only [List.cons_append, List.append_assoc]

end DialogServer

theorem encode_intercalate (words : List JsString) :
    Utf8.encode ([':'].intercalate words) = [colon].intercalate (words.map Utf8.encode) := by
  have hcolon : Utf8.encode [':'] = [colon] := by decide
  induction words with
  | nil => rfl
  | cons w ws ih =>
    cases ws with
    | nil => simp
    | cons v vs =>
      rw [List.map_cons, List.map_cons, List.intercalate_cons_cons, List.intercalate_cons_cons, Utf8.encode_append,
        Utf8.encode_append, ih, hcolon]
      rfl

/-- The bytes of a frame that the server writes. -/
theorem encode_xml (f : DialogServer.Frame) : Utf8.encode f.xml = frame (f.words.map Utf8.encode) := by
  have hless : Utf8.encode ['<'] = [less] := by decide
  have hgreater : Utf8.encode ['>'] = [greater] := by decide
  rw [f.xml_eq, DialogServer.textFrame, Utf8.encode_append, ← List.singleton_append, Utf8.encode_append,
    encode_intercalate, hless, hgreater]
  rfl

/-! ### What the client reads -/

namespace Peer

theorem splitWords_eq {w : CString} (h : greater ∉ w) {currentWord : CString} (hc : colon ∉ currentWord) :
    splitWords currentWord (w ++ [greater]) = (currentWord ++ w).splitOn colon := by
  induction w generalizing currentWord with
  | nil => simp [splitWords, List.splitOn_eq_singleton hc]
  | cons b w ih =>
    simp only [List.mem_cons, not_or] at h
    by_cases hb : b = colon
    · subst hb
      rw [List.splitOn_append_cons_self_of_not_mem hc, List.cons_append, splitWords, if_pos (.inl rfl),
        ih h.2 List.not_mem_nil, List.nil_append]
    · have hcb : colon ∉ currentWord ++ [b] := by simp [hc, Ne.symm hb]
      have hnot : ¬ (b = colon ∨ b = greater) := by simp [hb, Ne.symm h.1]
      rw [List.cons_append, splitWords, if_neg hnot, ih h.2 hcb, List.append_assoc, List.singleton_append]

/-- The client takes the text between the first byte and the `>` apart. -/
theorem wordsOf_body (x : UInt8) {w : CString} (h : greater ∉ w) : wordsOf (x :: w ++ [greater]) = w.splitOn colon := by
  have : splitWords [] (w ++ [greater]) = ([] ++ w).splitOn colon := splitWords_eq h List.not_mem_nil
  simpa [wordsOf] using this

theorem wordsOf_frame {words : List CString} (hne : words ≠ []) (h : ∀ w ∈ words, Clean w) :
    wordsOf (frame words) = words := by
  have hgreater := greater_not_mem_body fun w hw => (h w hw).greater
  rw [body, List.mem_cons, not_or] at hgreater
  rw [frame, body, wordsOf_body less hgreater.2, List.splitOn_intercalate colon (fun w hw => (h w hw).colon) hne]

end Peer

end ProbICE
