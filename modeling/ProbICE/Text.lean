import ProbICE.Lib.Delimited
import ProbICE.Lib.Utf8

/-! # The strings of the two programs

The probers are C++ programs: a `std::string` is a list of bytes. The dialog server is a JavaScript
program: a string is a list of characters. Between them stands the UTF-8 of `setEncoding("utf8")` and
of `sock.write`. -/

namespace ProbICE

/-- A `std::string`. -/
abbrev CString := List UInt8

/-- A JavaScript string. Strings come from decoded UTF-8, so they hold whole characters. -/
abbrev JsString := List Char

/-- `==` on strings. -/
instance : LawfulBEq JsString := inferInstanceAs (LawfulBEq (List Char))

/-- A string literal of the C++ sources. -/
def cstr (s : String) : CString := Utf8.encode s.toList

/-- `':'` as a byte. -/
def colon : UInt8 := 0x3A

/-- `'>'` as a byte. -/
def greater : UInt8 := 0x3E

/-- `'<'` as a byte. -/
def less : UInt8 := 0x3C

/-! ### JavaScript string methods -/

/-- `xs.indexOf(c)`: -1 when `c` does not occur. -/
def indexOf (c : Char) (xs : JsString) : Int :=
  match xs.idxOf? c with
  | some i => i
  | none => -1

/-- `xs.substring(i, j)`: negative bounds are 0, and the smaller bound comes first. -/
def substring (xs : JsString) (i j : Int) : JsString :=
  (xs.take (max i.toNat j.toNat)).drop (min i.toNat j.toNat)

theorem indexOf_of_not_mem {c : Char} {xs : JsString} (h : c ∉ xs) : indexOf c xs = -1 := by
  simp [indexOf, List.idxOf?_eq_none_iff.mpr h]

theorem indexOf_append_cons {c : Char} {xs : JsString} (h : c ∉ xs) (ys : JsString) :
    indexOf c (xs ++ c :: ys) = xs.length := by
  have : (xs ++ c :: ys).idxOf? c = some xs.length := by
    induction xs with
    | nil => simp [List.idxOf?_cons]
    | cons x xs ih =>
      simp only [List.mem_cons, not_or] at h
      simp [List.idxOf?_cons, Ne.symm h.1, ih h.2]
  simp [indexOf, this]

/-! ### Words -/

theorem not_mem_of_mem_splitOn {α : Type} [BEq α] [LawfulBEq α] {a : α} {xs w : List α} (h : w ∈ xs.splitOn a) :
    a ∉ w := by
  induction xs generalizing w with
  | nil =>
    rw [List.splitOn_nil, List.mem_singleton] at h
    simp [h]
  | cons x xs ih =>
    rw [List.splitOn_cons_eq_if_modifyHead] at h
    split at h
    · rcases List.mem_cons.mp h with rfl | h
      · simp
      · exact ih h
    · rename_i hx
      have hxa : a ≠ x := fun e => hx (by simp [e])
      rcases hsp : xs.splitOn a with _ | ⟨v, vs⟩
      · exact absurd hsp (List.splitOn_ne_nil a xs)
      · rw [hsp, List.modifyHead_cons] at h
        rcases List.mem_cons.mp h with rfl | h
        · have := ih (w := v) (by rw [hsp]; exact List.mem_cons_self)
          simp [hxa, this]
        · exact ih (by rw [hsp]; exact List.mem_cons_of_mem _ h)

theorem mem_of_mem_splitOn {α : Type} [BEq α] [LawfulBEq α] {a x : α} {xs w : List α} (h : w ∈ xs.splitOn a)
    (hx : x ∈ w) : x ∈ xs := by
  induction xs generalizing w with
  | nil =>
    rw [List.splitOn_nil, List.mem_singleton] at h
    exact absurd hx (by simp [h])
  | cons y xs ih =>
    rw [List.splitOn_cons_eq_if_modifyHead] at h
    split at h
    · rcases List.mem_cons.mp h with rfl | h
      · cases hx
      · exact List.mem_cons_of_mem _ (ih h hx)
    · rcases hsp : xs.splitOn a with _ | ⟨v, vs⟩
      · exact absurd hsp (List.splitOn_ne_nil a xs)
      · rw [hsp, List.modifyHead_cons] at h
        rcases List.mem_cons.mp h with rfl | h
        · rcases List.mem_cons.mp hx with rfl | hx
          · exact List.mem_cons_self
          · exact List.mem_cons_of_mem _ (ih (w := v) (by rw [hsp]; exact List.mem_cons_self) hx)
        · exact List.mem_cons_of_mem _ (ih (by rw [hsp]; exact List.mem_cons_of_mem _ h) hx)

/-- Words that a program puts one behind the other with a separator in front of each. -/
theorem foldl_separated {α : Type} (sep : α) (ws : List (List α)) (v : List α) :
    ws.foldl (fun text w => text ++ [sep] ++ w) v = [sep].intercalate (v :: ws) := by
  induction ws generalizing v with
  | nil => simp
  | cons w ws ih =>
    rw [List.foldl_cons, ih]
    cases ws <;> simp [List.intercalate_cons_cons, List.append_assoc]

theorem intercalate_cons_eq_flatMap {α : Type} (sep : α) (v : List α) (ws : List (List α)) :
    [sep].intercalate (v :: ws) = v ++ ws.flatMap (sep :: ·) := by
  induction ws generalizing v with
  | nil => simp
  | cons w ws ih => rw [List.intercalate_cons_cons, ih]; simp

theorem not_mem_intercalate {α : Type} {x sep : α} (hsep : x ≠ sep) {ws : List (List α)} (h : ∀ w ∈ ws, x ∉ w) :
    x ∉ [sep].intercalate ws := by
  cases ws with
  | nil => simp
  | cons w ws =>
    rw [intercalate_cons_eq_flatMap, List.mem_append, not_or]
    refine ⟨h w List.mem_cons_self, fun hmem => ?_⟩
    obtain ⟨v, hv, hmem⟩ := List.mem_flatMap.mp hmem
    rcases List.mem_cons.mp hmem with heq | hmem
    · exact hsep heq
    · exact h v (List.mem_cons_of_mem _ hv) hmem

end ProbICE
