import ProbICE.Theorems.Frames

/-! # The two parsers of a frame

The server looks for the `<` of a frame, and the client drops the first byte of its buffer. They read the same words
from a text that begins with `<`, and from no other text. -/

namespace ProbICE

/-- The words of a text are the words of its bytes. -/
theorem encode_splitOn (text : JsString) : (text.splitOn ':').map Utf8.encode = (Utf8.encode text).splitOn colon := by
  have hcolon : ∀ w ∈ (text.splitOn ':').map Utf8.encode, colon ∉ w := by
    intro w hw hmem
    obtain ⟨v, hv, rfl⟩ := List.mem_map.mp hw
    exact not_mem_of_mem_splitOn hv ((Utf8.mem_encode (b := colon) (by decide)).mp hmem)
  have hne : (text.splitOn ':').map Utf8.encode ≠ [] := by simp
  rw [← List.splitOn_intercalate colon hcolon hne, ← encode_intercalate, List.intercalate_splitOn]

theorem splitOn_injective {α : Type} [BEq α] [LawfulBEq α] {a : α} {xs ys : List α}
    (h : xs.splitOn a = ys.splitOn a) : xs = ys := by
  calc xs = [a].intercalate (xs.splitOn a) := (List.intercalate_splitOn a).symm
    _ = [a].intercalate (ys.splitOn a) := by rw [h]
    _ = ys := List.intercalate_splitOn a

/-! ### What the server reads -/

namespace DialogServer

/-- The text behind its first `<`, or the whole text when there is none. -/
def sentence (text : JsString) : JsString :=
  if '<' ∈ text then (text.dropWhile (· ≠ '<')).drop 1 else text

theorem sentence_of_mem (front rest : JsString) (h : '<' ∉ front) : sentence (front ++ '<' :: rest) = rest := by
  have hfront : ∀ c ∈ front, (decide (c ≠ '<')) = true := fun c hc => by
    simpa using fun heq : c = '<' => h (heq ▸ hc)
  rw [sentence, if_pos (by simp), List.dropWhile_append_of_pos hfront]
  rfl

theorem sentence_of_not_mem {text : JsString} (h : '<' ∉ text) : sentence text = text := if_neg h

/-- The server splits the sentence of a text that ends in its first `>`. -/
theorem wordsOf_eq {text : JsString} (h : '>' ∉ text) : wordsOf (text ++ ['>']) = (sentence text).splitOn ':' := by
  have hend : indexOf '>' (text ++ ['>']) = text.length := indexOf_append_cons h []
  by_cases hmem : '<' ∈ text
  · obtain ⟨front, rest, rfl, hfront⟩ := List.eq_append_cons_of_mem hmem
    have hbegin : indexOf '<' (front ++ '<' :: rest ++ ['>']) = front.length := by
      rw [List.append_assoc, List.cons_append]
      exact indexOf_append_cons hfront (rest ++ ['>'])
    have hsub : substring (front ++ '<' :: rest ++ ['>']) (front.length + 1) (front ++ '<' :: rest).length = rest := by
      have hlength : (front ++ '<' :: rest).length = front.length + 1 + rest.length := by simp; omega
      have hmin : min ((front.length : Int) + 1).toNat ((front ++ '<' :: rest).length : Int).toNat = front.length + 1 := by
        omega
      have hmax : max ((front.length : Int) + 1).toNat ((front ++ '<' :: rest).length : Int).toNat =
          (front ++ '<' :: rest).length := by
        omega
      rw [substring, hmin, hmax, List.take_left, List.append_cons]
      exact List.drop_left' (by simp)
    rw [wordsOf, hbegin, hend]
    simp only [hsub, sentence_of_mem _ _ hfront]
  · have hbegin : indexOf '<' (text ++ ['>']) = -1 := indexOf_of_not_mem (by simpa using hmem)
    have hsub : substring (text ++ ['>']) (-1 + 1) text.length = text := by simp [substring]
    rw [wordsOf, hbegin, hend]
    simp only [hsub, sentence_of_not_mem hmem]

theorem sentence_cases (text : JsString) :
    sentence text = text ∨ ∃ front, text = front ++ '<' :: sentence text := by
  by_cases hmem : '<' ∈ text
  · obtain ⟨front, rest, rfl, hfront⟩ := List.eq_append_cons_of_mem hmem
    exact .inr ⟨front, by rw [sentence_of_mem _ _ hfront]⟩
  · exact .inl (sentence_of_not_mem hmem)

end DialogServer

/-! ### What the client reads -/

namespace Peer

/-- The client splits what stands behind the first byte of a text. It reads no word when the `>` is the first byte. -/
theorem wordsOf_text {text : JsString} (h : '>' ∉ text) (hne : text ≠ []) :
    wordsOf (Utf8.encode (text ++ ['>'])) = ((Utf8.encode text).drop 1).splitOn colon := by
  have hend : Utf8.encode ['>'] = [greater] := by decide
  have hgreater : greater ∉ Utf8.encode text := fun hmem => h ((Utf8.mem_encode (b := greater) (by decide)).mp hmem)
  obtain ⟨b, bytes, hbytes⟩ := List.exists_cons_of_ne_nil (Utf8.encode_ne_nil hne)
  rw [hbytes, List.mem_cons, not_or] at hgreater
  rw [Utf8.encode_append, hend, hbytes, wordsOf_body b hgreater.2]
  rfl

end Peer

/-! ### When they agree -/

theorem encode_sentence_iff {text : JsString} (hne : text ≠ []) :
    Utf8.encode (DialogServer.sentence text) = (Utf8.encode text).drop 1 ↔ text.head? = some '<' := by
  have hless : Utf8.encode ['<'] = [less] := by decide
  constructor
  · intro heq
    have hlength := congrArg List.length heq
    rw [List.length_drop] at hlength
    have hpos := List.length_pos_of_ne_nil (Utf8.encode_ne_nil hne)
    obtain hall | ⟨front, hfront⟩ := DialogServer.sentence_cases text
    · rw [hall] at hlength
      omega
    · have htext : (Utf8.encode text).length =
          (Utf8.encode front).length + (1 + (Utf8.encode (DialogServer.sentence text)).length) := by
        conv_lhs => rw [hfront, List.append_cons, Utf8.encode_append, Utf8.encode_append, hless]
        simp only [List.length_append, List.length_singleton]
        omega
      have hnil : front = [] := by
        by_contra hfront
        have := List.length_pos_of_ne_nil (Utf8.encode_ne_nil hfront)
        omega
      rw [hfront, hnil]
      rfl
  · intro hhead
    obtain ⟨rest, rfl⟩ := List.head?_eq_some_iff.mp hhead
    have hsentence : DialogServer.sentence ('<' :: rest) = rest := DialogServer.sentence_of_mem [] rest List.not_mem_nil
    rw [hsentence, ← List.singleton_append, Utf8.encode_append, hless]
    rfl

/-- Server and client take the same words from a text that ends in its first `>` when it begins with `<`, and only
    then. -/
theorem words_agree {text : JsString} (h : '>' ∉ text) :
    (DialogServer.wordsOf (text ++ ['>'])).map Utf8.encode = Peer.wordsOf (Utf8.encode (text ++ ['>'])) ↔
      text.head? = some '<' := by
  rw [DialogServer.wordsOf_eq h, encode_splitOn]
  by_cases hne : text = []
  · subst hne
    decide
  · rw [Peer.wordsOf_text h hne, ← encode_sentence_iff hne]
    exact ⟨splitOn_injective, fun heq => by rw [heq]⟩

/-- Another `<` in the text is a part of a word, and a word may be empty. -/
theorem words_agree_twice :
    '>' ∉ "<send::<b".toList ∧
      (DialogServer.wordsOf ("<send::<b".toList ++ ['>'])).map Utf8.encode =
        Peer.wordsOf (Utf8.encode ("<send::<b".toList ++ ['>'])) :=
  ⟨by decide, (words_agree (by decide)).mpr rfl⟩

/-- The server drops a line break in front of the `<`, and the client drops it in place of the `<`. -/
theorem words_differ_lineBreak :
    '>' ∉ "\n<login:a".toList ∧
      (DialogServer.wordsOf ("\n<login:a".toList ++ ['>'])).map Utf8.encode ≠
        Peer.wordsOf (Utf8.encode ("\n<login:a".toList ++ ['>'])) := by
  decide

end ProbICE
