import Mathlib.Data.List.Basic
import Mathlib.Tactic.Common

/-! # Streams of delimited frames

A stream is read in pieces of any size. A reader keeps what it has read since the last delimiter and
hands on every frame that a delimiter ends. Nothing here depends on what a frame means: the results
say that the frames handed on, and what is kept, depend on the stream only and not on the pieces. -/

namespace Delimited

variable {α : Type} {d : α}

/-- The stream of a list of frames that hold no delimiter themselves. -/
def stream (d : α) (ws : List (List α)) : List α := ws.flatMap (· ++ [d])

@[simp] theorem stream_nil : stream d [] = [] := rfl

@[simp] theorem stream_cons (w : List α) (ws : List (List α)) : stream d (w :: ws) = w ++ d :: stream d ws := by
  simp [stream]

@[simp] theorem stream_append (ws vs : List (List α)) : stream d (ws ++ vs) = stream d ws ++ stream d vs := by
  simp [stream]

/-! ### A stream in flight

`kept` has been read and `rest` has not: together they are the stream of the frames `ws`, which nobody
has handled yet. -/

/-- The reader has kept `kept`, `rest` is still to be read, and together they hold the frames `ws`. -/
structure Carries (d : α) (kept rest : List α) (ws : List (List α)) : Prop where
  kept_clean : d ∉ kept
  frames_clean : ∀ w ∈ ws, d ∉ w
  stream_eq : kept ++ rest = stream d ws

namespace Carries
variable {kept rest : List α} {ws : List (List α)}

theorem nil : Carries d [] [] [] := ⟨by simp, by simp, rfl⟩

/-- Frames written behind the others. -/
theorem push (h : Carries d kept rest ws) {vs : List (List α)} (hv : ∀ v ∈ vs, d ∉ v) :
    Carries d kept (rest ++ stream d vs) (ws ++ vs) where
  kept_clean := h.kept_clean
  frames_clean w hw := by
    rcases List.mem_append.mp hw with hw | hw
    · exact h.frames_clean w hw
    · exact hv w hw
  stream_eq := by rw [← List.append_assoc, h.stream_eq, stream_append]

/-- Reading one element that is not the delimiter only moves it to what is kept. -/
theorem read_ne {x : α} (h : Carries d kept (x :: rest) ws) (hx : x ≠ d) : Carries d (kept ++ [x]) rest ws where
  kept_clean := by simp [h.kept_clean, Ne.symm hx]
  frames_clean := h.frames_clean
  stream_eq := by rw [← h.stream_eq]; simp

/-- Two streams that agree up to their first delimiters agree there and behind. -/
theorem append_cons_inj {u v xs ys : List α} (hu : d ∉ u) (hv : d ∉ v) (h : u ++ d :: xs = v ++ d :: ys) :
    u = v ∧ xs = ys := by
  induction u generalizing v with
  | nil =>
    cases v with
    | nil => simpa using h
    | cons b v =>
      simp only [List.nil_append, List.cons_append, List.cons.injEq] at h
      exact absurd (h.1 ▸ List.mem_cons_self) hv
  | cons a u ih =>
    cases v with
    | nil =>
      simp only [List.nil_append, List.cons_append, List.cons.injEq] at h
      exact absurd (h.1 ▸ List.mem_cons_self) hu
    | cons b v =>
      simp only [List.cons_append, List.cons.injEq] at h
      simp only [List.mem_cons, not_or] at hu hv
      obtain ⟨rfl, rfl⟩ := ih hu.2 hv.2 h.2
      exact ⟨by rw [h.1], rfl⟩

/-- Reading the delimiter completes the oldest frame. -/
theorem read_self (h : Carries d kept (d :: rest) ws) : ∃ vs, ws = kept :: vs ∧ Carries d [] rest vs := by
  cases ws with
  | nil => exact absurd h.stream_eq (by simp)
  | cons w vs =>
    have hw := h.frames_clean w List.mem_cons_self
    obtain ⟨rfl, hrest⟩ := append_cons_inj h.kept_clean hw (by simpa using h.stream_eq)
    exact ⟨vs, rfl, by simp, fun v hv => h.frames_clean v (List.mem_cons_of_mem _ hv), hrest⟩

/-- Nothing is in flight when nothing is kept and nothing is to be read. -/
theorem eq_nil (h : Carries d [] [] ws) : ws = [] := by
  cases ws with
  | nil => rfl
  | cons w vs => exact absurd h.stream_eq (by simp)

/-- What is kept belongs to the oldest frame. -/
theorem prefix_of_kept (h : Carries d kept rest ws) (hne : kept ≠ []) : ∃ w vs, ws = w :: vs ∧ kept <+: w := by
  cases ws with
  | nil => exact absurd (List.append_eq_nil_iff.mp h.stream_eq).1 hne
  | cons w vs =>
    refine ⟨w, vs, rfl, ?_⟩
    have hstream : kept ++ rest = (w ++ [d]) ++ stream d vs := by
      rw [h.stream_eq]
      simp
    have hkept : kept <+: (w ++ [d]) ++ stream d vs := hstream ▸ List.prefix_append kept rest
    rcases List.prefix_or_prefix_of_prefix hkept (List.prefix_append _ _) with hshort | hlong
    · rcases List.prefix_concat_iff.mp hshort with rfl | hshort
      · exact absurd (List.mem_append_right w (List.mem_singleton.mpr rfl)) h.kept_clean
      · exact hshort
    · exact absurd (hlong.subset (List.mem_append_right w (List.mem_singleton.mpr rfl))) h.kept_clean

/-- Nothing is kept either once everything has been read. -/
theorem kept_eq_nil (h : Carries d kept [] ws) : kept = [] := by
  cases ws with
  | nil => simpa using h.stream_eq
  | cons w vs =>
    have hmem : d ∈ kept := by
      have := h.stream_eq
      simp only [List.append_nil, stream_cons] at this
      rw [this]
      simp
    exact absurd hmem h.kept_clean

end Carries

/-- A list whose elements have different keys has one place for each key. -/
theorem split_unique {α β : Type} (g : α → β) {xs a b c d : List α} {x y : α} (h : (xs.map g).Nodup)
    (hx : xs = a ++ x :: b) (hy : xs = c ++ y :: d) (hkey : g x = g y) : a = c ∧ x = y := by
  have hleft : g x ∉ a.map g := by
    rw [hx, List.map_append, List.map_cons, List.nodup_append] at h
    exact fun hmem => h.2.2 _ hmem _ List.mem_cons_self rfl
  have hright : g x ∉ c.map g := by
    rw [hy, List.map_append, List.map_cons, ← hkey, List.nodup_append] at h
    exact fun hmem => h.2.2 _ hmem _ List.mem_cons_self rfl
  have hmaps : a.map g ++ g x :: b.map g = c.map g ++ g x :: d.map g := by
    rw [← List.map_cons, ← List.map_append, ← hx, hy, List.map_append, List.map_cons, hkey]
  obtain ⟨hac, -⟩ := Carries.append_cons_inj hleft hright hmaps
  obtain ⟨hac, hrest⟩ := List.append_inj (hx.symm.trans hy) (by simpa using congrArg List.length hac)
  exact ⟨hac, (List.cons.inj hrest).1⟩

/-! ### Cutting a stream -/

section Cut
variable [DecidableEq α]

/-- The frames that reading `xs` completes, each with its delimiter `d`, and what is kept at the end,
    when `kept` has been read before. -/
def cut (d : α) : List α → List α → List (List α) × List α
  | kept, [] => ([], kept)
  | kept, x :: xs =>
    if x = d then ((kept ++ [x]) :: (cut d [] xs).1, (cut d [] xs).2)
    else cut d (kept ++ [x]) xs

@[simp] theorem cut_nil (kept : List α) : cut d kept [] = ([], kept) := rfl

theorem cut_cons_self (kept xs : List α) :
    cut d kept (d :: xs) = ((kept ++ [d]) :: (cut d [] xs).1, (cut d [] xs).2) := by
  simp [cut]

theorem cut_cons_ne {x : α} (h : x ≠ d) (kept xs : List α) : cut d kept (x :: xs) = cut d (kept ++ [x]) xs := by
  simp [cut, h]

/-- Reading in two pieces gives the frames of the first and then those of the second. -/
theorem cut_append (kept xs ys : List α) :
    cut d kept (xs ++ ys) =
      ((cut d kept xs).1 ++ (cut d (cut d kept xs).2 ys).1, (cut d (cut d kept xs).2 ys).2) := by
  induction xs generalizing kept with
  | nil => simp
  | cons x xs ih =>
    by_cases h : x = d
    · subst h
      simp [cut_cons_self, ih]
    · simp [cut_cons_ne h, ih]

theorem cut_of_not_mem {xs : List α} (h : d ∉ xs) (kept : List α) : cut d kept xs = ([], kept ++ xs) := by
  induction xs generalizing kept with
  | nil => simp
  | cons x xs ih =>
    simp only [List.mem_cons, not_or] at h
    rw [cut_cons_ne (Ne.symm h.1), ih h.2]
    simp

/-- A frame without a delimiter, its delimiter, and more. -/
theorem cut_frame {w : List α} (h : d ∉ w) (kept xs : List α) :
    cut d kept (w ++ d :: xs) = ((kept ++ w ++ [d]) :: (cut d [] xs).1, (cut d [] xs).2) := by
  rw [cut_append, cut_of_not_mem h]
  simp [cut_cons_self]

/-- What is kept holds no delimiter. -/
theorem not_mem_kept {kept : List α} (h : d ∉ kept) (xs : List α) : d ∉ (cut d kept xs).2 := by
  induction xs generalizing kept with
  | nil => simpa using h
  | cons x xs ih =>
    by_cases hx : x = d
    · subst hx
      simpa [cut_cons_self] using ih (List.not_mem_nil)
    · rw [cut_cons_ne hx]
      exact ih (by simp [h, Ne.symm hx])

/-- Every frame handed on ends with its only delimiter. -/
theorem mem_cut {kept : List α} (h : d ∉ kept) (xs : List α) :
    ∀ f ∈ (cut d kept xs).1, ∃ w, d ∉ w ∧ f = w ++ [d] := by
  induction xs generalizing kept with
  | nil => simp
  | cons x xs ih =>
    by_cases hx : x = d
    · subst hx
      rw [cut_cons_self]
      intro f hf
      rcases List.mem_cons.mp hf with rfl | hf
      · exact ⟨kept, h, rfl⟩
      · exact ih List.not_mem_nil f hf
    · rw [cut_cons_ne hx]
      exact ih (by simp [h, Ne.symm hx])

/-- Reading a piece of the stream completes the oldest frames, in order, and leaves the others. -/
theorem Carries.read {kept xs ys : List α} {ws : List (List α)} (h : Carries d kept (xs ++ ys) ws) :
    ∃ done vs, ws = done ++ vs ∧ (cut d kept xs).1 = done.map (· ++ [d]) ∧ Carries d (cut d kept xs).2 ys vs := by
  induction xs generalizing kept ws with
  | nil => exact ⟨[], ws, rfl, rfl, h⟩
  | cons x xs ih =>
    by_cases hx : x = d
    · subst hx
      obtain ⟨vs, rfl, hvs⟩ := h.read_self
      obtain ⟨done, us, rfl, hdone, hus⟩ := ih hvs
      rw [cut_cons_self]
      exact ⟨kept :: done, us, rfl, by simp [hdone], hus⟩
    · rw [cut_cons_ne hx]
      exact ih (h.read_ne hx)

end Cut

end Delimited
