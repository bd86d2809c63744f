import Mathlib.Data.List.Basic
import Mathlib.Data.Char
import Mathlib.Tactic.Common
import ProbICE.Lib.Delimited

/-! # UTF-8 read from a stream of bytes

A decoder that takes bytes in pieces of any size, keeps an unfinished character for the next piece and
puts U+FFFD in the place of bytes that are not UTF-8: one for every maximal part that could still have
become a character. `lossy` is the text of a byte string that ends there. -/

namespace Utf8

/-- The bytes of a text. -/
def encode (t : List Char) : List UInt8 := t.flatMap String.utf8EncodeChar

/-- The bytes are the encoding of a text. -/
def Valid (w : List UInt8) : Prop := ∃ t, w = encode t

/-- What stands for bytes that are not UTF-8. -/
def replacement : Char := Char.ofNat 0xFFFD

/-- The character of a byte below 0x80. -/
def ascii (b : UInt8) : Char := Char.ofNat b.toNat

/-- The length of the sequence that a first byte opens, 0 when it opens none. -/
def width (b : UInt8) : Nat :=
  if b.toNat < 0x80 then 1
  else if b.toNat < 0xC2 then 0
  else if b.toNat < 0xE0 then 2
  else if b.toNat < 0xF0 then 3
  else if b.toNat < 0xF5 then 4
  else 0

/-- Byte `b` may follow the bytes `p` of an open sequence. The narrower ranges of a second byte leave
    out overlong forms, surrogates and numbers above U+10FFFF. -/
def follows (p : List UInt8) (b : UInt8) : Bool :=
  match p with
  | [a] =>
    if a.toNat = 0xE0 then 0xA0 ≤ b.toNat && b.toNat ≤ 0xBF
    else if a.toNat = 0xED then 0x80 ≤ b.toNat && b.toNat ≤ 0x9F
    else if a.toNat = 0xF0 then 0x90 ≤ b.toNat && b.toNat ≤ 0xBF
    else if a.toNat = 0xF4 then 0x80 ≤ b.toNat && b.toNat ≤ 0x8F
    else 0x80 ≤ b.toNat && b.toNat ≤ 0xBF
  | _ => 0x80 ≤ b.toNat && b.toNat ≤ 0xBF

/-- The number that the bytes of a sequence spell. -/
def number : List UInt8 → Nat
  | [a, b] => a.toNat % 0x20 * 64 + b.toNat % 64
  | [a, b, c] => a.toNat % 0x10 * 4096 + b.toNat % 64 * 64 + c.toNat % 64
  | [a, b, c, e] => a.toNat % 0x08 * 262144 + b.toNat % 64 * 4096 + c.toNat % 64 * 64 + e.toNat % 64
  | _ => 0

/-- The character of a sequence of two or more bytes. -/
def character (p : List UInt8) : Char :=
  if 0x80 ≤ number p ∧ (number p).isValidChar then Char.ofNat (number p) else replacement

/-- A byte where no sequence is open. -/
def start (b : UInt8) : List UInt8 × List Char :=
  if width b = 0 then ([], [replacement])
  else if width b = 1 then ([], [ascii b])
  else ([b], [])

/-- One byte: the open sequence after it and the characters it completes. -/
def feed (p : List UInt8) (b : UInt8) : List UInt8 × List Char :=
  match p with
  | [] => start b
  | a :: _ =>
    if follows p b then
      if p.length + 1 = width a then ([], [character (p ++ [b])]) else (p ++ [b], [])
    else ((start b).1, replacement :: (start b).2)

/-- A piece of the stream: the open sequence after it and the characters it completes. -/
def write : List UInt8 → List UInt8 → List UInt8 × List Char
  | p, [] => (p, [])
  | p, b :: bs => ((write (feed p b).1 bs).1, (feed p b).2 ++ (write (feed p b).1 bs).2)

/-- What an open sequence becomes when it is not finished. -/
def flush (p : List UInt8) : List Char := if p = [] then [] else [replacement]

/-- The text of a byte string. -/
def lossy (w : List UInt8) : List Char := (write [] w).2 ++ flush (write [] w).1

/-- A byte string as it looks after it was decoded and encoded again. -/
def scrub (w : List UInt8) : List UInt8 := encode (lossy w)

@[simp] theorem encode_nil : encode [] = [] := rfl

@[simp] theorem encode_cons (c : Char) (t : List Char) : encode (c :: t) = String.utf8EncodeChar c ++ encode t := by
  simp [encode]

@[simp] theorem encode_append (s t : List Char) : encode (s ++ t) = encode s ++ encode t := by simp [encode]

theorem encode_ne_nil {t : List Char} (h : t ≠ []) : encode t ≠ [] := by
  obtain ⟨c, u, rfl⟩ := List.exists_cons_of_ne_nil h
  intro heq
  have hlength := congrArg List.length heq
  have hsize := c.utf8Size_pos
  rw [encode_cons, List.length_append, String.length_utf8EncodeChar, List.length_nil] at hlength
  omega

@[simp] theorem write_nil (p : List UInt8) : write p [] = (p, []) := rfl

theorem write_append (p xs ys : List UInt8) :
    write p (xs ++ ys) = ((write (write p xs).1 ys).1, (write p xs).2 ++ (write (write p xs).1 ys).2) := by
  induction xs generalizing p with
  | nil => simp
  | cons x xs ih => simp [write, ih]

theorem toNat_ofNat {n : Nat} (h : n.isValidChar) : (Char.ofNat n).toNat = n := by
  unfold Char.ofNat
  rw [dif_pos h]
  rfl

/-! ### Encoded characters -/

/-- A character of the ASCII range is its own byte. -/
theorem encodeChar_of_lt {c : Char} (h : c.toNat < 0x80) : String.utf8EncodeChar c = [UInt8.ofNat c.toNat] := by
  have hv : c.val.toNat ≤ 0x7f := Nat.le_of_lt_succ h
  unfold String.utf8EncodeChar
  simp only [hv, ↓reduceIte]
  rfl

theorem toNat_ofNat_lt {n : Nat} (h : n < 256) : (UInt8.ofNat n).toNat = n := by
  simp [UInt8.toNat_ofNat', Nat.mod_eq_of_lt h]

/-- The bytes of a character above the ASCII range are above it too. -/
theorem le_of_mem_encodeChar {c : Char} (h : 0x80 ≤ c.toNat) : ∀ b ∈ String.utf8EncodeChar c, 0x80 ≤ b.toNat := by
  have hv : ¬c.val.toNat ≤ 0x7f := Nat.not_le.mpr h
  intro b hb
  unfold String.utf8EncodeChar at hb
  simp only [hv, ↓reduceIte] at hb
  split at hb
  · simp only [List.mem_cons, List.not_mem_nil, or_false] at hb
    rcases hb with rfl | rfl <;> rw [toNat_ofNat_lt (by omega)] <;> omega
  · split at hb
    · simp only [List.mem_cons, List.not_mem_nil, or_false] at hb
      rcases hb with rfl | rfl | rfl <;> rw [toNat_ofNat_lt (by omega)] <;> omega
    · simp only [List.mem_cons, List.not_mem_nil, or_false] at hb
      rcases hb with rfl | rfl | rfl | rfl <;> rw [toNat_ofNat_lt (by omega)] <;> omega

theorem character_of_number {c : Char} {p : List UInt8} (h : 0x80 ≤ c.toNat) (hp : number p = c.toNat) :
    character p = c := by
  unfold character
  rw [hp, if_pos ⟨h, c.valid⟩]
  exact Char.ofNat_toNat c

/-- A sequence of two bytes. -/
theorem write_two {a b : UInt8} (hw : width a = 2) (hf : follows [a] b = true) :
    write [] [a, b] = ([], [character [a, b]]) := by
  simp [write, feed, start, hw, hf]

/-- A sequence of three bytes. -/
theorem write_three {a b c : UInt8} (hw : width a = 3) (hf : follows [a] b = true) (hc : follows [a, b] c = true) :
    write [] [a, b, c] = ([], [character [a, b, c]]) := by
  simp [write, feed, start, hw, hf, hc]

/-- A sequence of four bytes. -/
theorem write_four {a b c e : UInt8} (hw : width a = 4) (hf : follows [a] b = true) (hc : follows [a, b] c = true)
    (he : follows [a, b, c] e = true) : write [] [a, b, c, e] = ([], [character [a, b, c, e]]) := by
  simp [write, feed, start, hw, hf, hc, he]

theorem follows_of_range {p : List UInt8} {b : UInt8} (hp : 2 ≤ p.length) (h : 0x80 ≤ b.toNat ∧ b.toNat ≤ 0xBF) :
    follows p b = true := by
  match p, hp with
  | _ :: _ :: _, _ => simp [follows, h]

/-- The decoder completes an encoded character with its last byte. -/
theorem write_encodeChar (c : Char) : write [] (String.utf8EncodeChar c) = ([], [c]) := by
  have hvalid : c.val.toNat < 0xD800 ∨ (0xDFFF < c.val.toNat ∧ c.val.toNat < 0x110000) := c.valid
  have hc : c.toNat = c.val.toNat := rfl
  unfold String.utf8EncodeChar
  generalize hv : c.val.toNat = v at hvalid ⊢
  simp only
  split
  · have ha : ascii (UInt8.ofNat v) = c := by
      unfold ascii
      rw [toNat_ofNat_lt (by omega), ← hv, ← hc, Char.ofNat_toNat]
    have hw : width (UInt8.ofNat v) = 1 := by
      unfold width
      rw [toNat_ofNat_lt (by omega), if_pos (by omega)]
    simp [write, feed, start, hw, ha]
  · split
    · have e0 := toNat_ofNat_lt (n := v / 64 % 32 + 192) (by omega)
      have e1 := toNat_ofNat_lt (n := v % 64 + 128) (by omega)
      rw [write_two, character_of_number (c := c) (by omega) (by simp only [number, e0, e1]; omega)]
      · unfold width
        rw [e0]
        repeat' split
        all_goals omega
      · simp only [follows, e0, e1]
        repeat' split
        all_goals simp only [Bool.and_eq_true, decide_eq_true_eq]
        all_goals omega
    · split
      · have e0 := toNat_ofNat_lt (n := v / 4096 % 16 + 224) (by omega)
        have e1 := toNat_ofNat_lt (n := v / 64 % 64 + 128) (by omega)
        have e2 := toNat_ofNat_lt (n := v % 64 + 128) (by omega)
        rw [write_three, character_of_number (c := c) (by omega) (by simp only [number, e0, e1, e2]; omega)]
        · unfold width
          rw [e0]
          repeat' split
          all_goals omega
        · simp only [follows, e0, e1]
          repeat' split
          all_goals simp only [Bool.and_eq_true, decide_eq_true_eq]
          all_goals omega
        · exact follows_of_range (by simp) (by rw [e2]; omega)
      · have e0 := toNat_ofNat_lt (n := v / 262144 % 8 + 240) (by omega)
        have e1 := toNat_ofNat_lt (n := v / 4096 % 64 + 128) (by omega)
        have e2 := toNat_ofNat_lt (n := v / 64 % 64 + 128) (by omega)
        have e3 := toNat_ofNat_lt (n := v % 64 + 128) (by omega)
        rw [write_four, character_of_number (c := c) (by omega) (by simp only [number, e0, e1, e2, e3]; omega)]
        · unfold width
          rw [e0]
          repeat' split
          all_goals omega
        · simp only [follows, e0, e1]
          repeat' split
          all_goals simp only [Bool.and_eq_true, decide_eq_true_eq]
          all_goals omega
        · exact follows_of_range (by simp) (by rw [e2]; omega)
        · exact follows_of_range (by simp) (by rw [e3]; omega)

/-- Encoded text is read back as it is, in front of whatever follows. -/
theorem write_encode_append (t : List Char) (xs : List UInt8) :
    write [] (encode t ++ xs) = ((write [] xs).1, t ++ (write [] xs).2) := by
  induction t with
  | nil => simp
  | cons c t ih =>
    rw [encode_cons, List.append_assoc, write_append, write_encodeChar]
    simp [ih]

@[simp] theorem lossy_encode (t : List Char) : lossy (encode t) = t := by
  have := write_encode_append t []
  simp only [List.append_nil, write_nil] at this
  simp [lossy, this, flush]

@[simp] theorem scrub_encode (t : List Char) : scrub (encode t) = encode t := by simp [scrub]

theorem valid_encode (t : List Char) : Valid (encode t) := ⟨t, rfl⟩

theorem valid_scrub (w : List UInt8) : Valid (scrub w) := valid_encode _

/-- A byte string keeps its bytes exactly when it is UTF-8. -/
theorem scrub_eq_self_iff {w : List UInt8} : scrub w = w ↔ Valid w := by
  constructor
  · exact fun h => h ▸ valid_scrub w
  · rintro ⟨t, rfl⟩
    exact scrub_encode t

/-! ### ASCII bytes

A byte below 0x80 ends whatever sequence is open, and no other byte becomes a character below 0x80. -/

theorem ascii_toNat {b : UInt8} (h : b.toNat < 0x80) : (ascii b).toNat = b.toNat := by
  exact toNat_ofNat (Or.inl (by omega))

theorem start_ascii {b : UInt8} (h : b.toNat < 0x80) : start b = ([], [ascii b]) := by
  simp [start, width, h]

theorem feed_ascii {b : UInt8} (h : b.toNat < 0x80) (p : List UInt8) : feed p b = ([], flush p ++ [ascii b]) := by
  match p with
  | [] => simp [feed, flush, start_ascii h]
  | a :: p =>
    have hf : follows (a :: p) b = false := by
      unfold follows
      repeat' split
      all_goals simp only [Bool.and_eq_false_iff, decide_eq_false_iff_not]
      all_goals omega
    simp [feed, flush, hf, start_ascii h]

/-- An ASCII byte ends the text before it. -/
theorem write_ascii {b : UInt8} (h : b.toNat < 0x80) (w xs : List UInt8) :
    write [] (w ++ b :: xs) = ((write [] xs).1, lossy w ++ ascii b :: (write [] xs).2) := by
  rw [write_append]
  simp [write, feed_ascii h, lossy]

theorem lossy_append_ascii {b : UInt8} (h : b.toNat < 0x80) (w xs : List UInt8) :
    lossy (w ++ b :: xs) = lossy w ++ ascii b :: lossy xs := by
  simp [lossy, write_ascii h]

theorem le_character (p : List UInt8) : 0x80 ≤ (character p).toNat := by
  unfold character
  split
  · rename_i h
    rw [toNat_ofNat h.2]
    exact h.1
  · decide

theorem lt_of_width {b : UInt8} (h : width b = 1) : b.toNat < 0x80 := by
  unfold width at h
  repeat' split at h
  all_goals omega

theorem mem_start {b : UInt8} {c : Char} (hc : c ∈ (start b).2) (h : c.toNat < 0x80) :
    b.toNat < 0x80 ∧ c = ascii b := by
  unfold start at hc
  split at hc
  · obtain rfl := List.mem_singleton.mp hc
    exact absurd h (by decide)
  · split at hc
    · rename_i hw
      exact ⟨lt_of_width hw, List.mem_singleton.mp hc⟩
    · cases hc

theorem mem_feed {p : List UInt8} {b : UInt8} {c : Char} (hc : c ∈ (feed p b).2) (h : c.toNat < 0x80) :
    b.toNat < 0x80 ∧ c = ascii b := by
  unfold feed at hc
  split at hc
  · exact mem_start hc h
  · split at hc
    · split at hc
      · obtain rfl := List.mem_singleton.mp hc
        exact absurd h (Nat.not_lt.mpr (le_character _))
      · cases hc
    · rcases List.mem_cons.mp hc with rfl | hc
      · exact absurd h (by decide)
      · exact mem_start hc h

theorem mem_write {p xs : List UInt8} {c : Char} (hc : c ∈ (write p xs).2) (h : c.toNat < 0x80) :
    ∃ b ∈ xs, b.toNat < 0x80 ∧ c = ascii b := by
  induction xs generalizing p with
  | nil => cases hc
  | cons x xs ih =>
    rcases List.mem_append.mp hc with hc | hc
    · exact ⟨x, List.mem_cons_self, mem_feed hc h⟩
    · obtain ⟨b, hb, hbc⟩ := ih hc
      exact ⟨b, List.mem_cons_of_mem _ hb, hbc⟩

/-- An ASCII character of a decoded text was a byte of its own. -/
theorem mem_lossy {w : List UInt8} {c : Char} (hc : c ∈ lossy w) (h : c.toNat < 0x80) :
    ∃ b ∈ w, b.toNat < 0x80 ∧ c = ascii b := by
  rcases List.mem_append.mp hc with hc | hc
  · exact mem_write hc h
  · unfold flush at hc
    split at hc
    · cases hc
    · obtain rfl := List.mem_singleton.mp hc
      exact absurd h (by decide)

theorem ascii_injective {a b : UInt8} (ha : a.toNat < 0x80) (hb : b.toNat < 0x80) (h : ascii a = ascii b) : a = b := by
  have := congrArg Char.toNat h
  rw [ascii_toNat ha, ascii_toNat hb] at this
  exact UInt8.toNat_inj.mp this

/-- Decoding adds no ASCII character. -/
theorem not_mem_lossy {b : UInt8} (hb : b.toNat < 0x80) {w : List UInt8} (h : b ∉ w) : ascii b ∉ lossy w := by
  intro hc
  obtain ⟨a, ha, hlt, heq⟩ := mem_lossy hc (by rw [ascii_toNat hb]; exact hb)
  exact h (ascii_injective hb hlt heq ▸ ha)

/-- The bytes of a text below 0x80 are its characters below 0x80. -/
theorem mem_encode {b : UInt8} (hb : b.toNat < 0x80) {t : List Char} : b ∈ encode t ↔ ascii b ∈ t := by
  constructor
  · intro h
    obtain ⟨c, hc, hbc⟩ := List.mem_flatMap.mp h
    by_cases hlt : c.toNat < 0x80
    · rw [encodeChar_of_lt hlt] at hbc
      obtain rfl := List.mem_singleton.mp hbc
      unfold ascii
      rw [toNat_ofNat_lt (by omega), Char.ofNat_toNat]
      exact hc
    · exact absurd hb (Nat.not_lt.mpr (le_of_mem_encodeChar (Nat.not_lt.mp hlt) b hbc))
  · intro h
    refine List.mem_flatMap.mpr ⟨_, h, ?_⟩
    rw [encodeChar_of_lt (by rw [ascii_toNat hb]; exact hb), ascii_toNat hb]
    simp

/-- The bytes of an ASCII text, as a computation. -/
theorem ascii_of_all {w : List UInt8} (h : (w.all fun b => b.toNat < 0x80) = true) : ∀ b ∈ w, b.toNat < 0x80 := by
  simpa using h

/-- ASCII text is UTF-8. -/
theorem valid_of_ascii {w : List UInt8} (h : ∀ b ∈ w, b.toNat < 0x80) : Valid w := by
  refine ⟨w.map ascii, ?_⟩
  induction w with
  | nil => rfl
  | cons b w ih =>
    have hb := h b List.mem_cons_self
    rw [List.map_cons, encode_cons, ← ih fun x hx => h x (List.mem_cons_of_mem _ hx),
      encodeChar_of_lt (by rw [ascii_toNat hb]; exact hb), ascii_toNat hb]
    simp

/-! ### Frames of decoded text

A reader that decodes a stream and cuts the text at an ASCII character sees the frames of the bytes. -/

theorem not_mem_flush {b : UInt8} (hb : b.toNat < 0x80) (p : List UInt8) : ascii b ∉ flush p := by
  intro h
  unfold flush at h
  split at h
  · cases h
  · have hnat := congrArg Char.toNat (List.mem_singleton.mp h)
    rw [ascii_toNat hb] at hnat
    exact absurd hnat (by have : replacement.toNat = 0xFFFD := by decide
                          omega)

theorem not_mem_feed {b d : UInt8} (hd : d.toNat < 0x80) (h : b ≠ d) (p : List UInt8) : ascii d ∉ (feed p b).2 := by
  intro hmem
  obtain ⟨hb, heq⟩ := mem_feed hmem (by rw [ascii_toNat hd]; exact hd)
  exact h (ascii_injective hd hb heq).symm

theorem cut_write {d : UInt8} (hd : d.toNat < 0x80) (kept xs : List UInt8) :
    Delimited.cut (ascii d) (write [] kept).2 (write (write [] kept).1 xs).2 =
        ((Delimited.cut d kept xs).1.map lossy, (write [] (Delimited.cut d kept xs).2).2) ∧
      (write (write [] kept).1 xs).1 = (write [] (Delimited.cut d kept xs).2).1 := by
  induction xs generalizing kept with
  | nil => exact ⟨rfl, rfl⟩
  | cons x xs ih =>
    by_cases hx : x = d
    · subst hx
      have hwrite : write (write [] kept).1 (x :: xs) =
          ((write [] xs).1, flush (write [] kept).1 ++ ascii x :: (write [] xs).2) := by
        simp [write, feed_ascii hd]
      have hframe : lossy (kept ++ [x]) = (write [] kept).2 ++ flush (write [] kept).1 ++ [ascii x] := by
        rw [lossy_append_ascii hd]
        rfl
      obtain ⟨hcut, hopen⟩ := ih []
      rw [write_nil] at hcut hopen
      rw [hwrite, Delimited.cut_cons_self, Delimited.cut_frame (not_mem_flush hd _), hcut, List.map_cons, hframe]
      exact ⟨rfl, hopen⟩
    · have hkept : write [] (kept ++ [x]) =
          ((feed (write [] kept).1 x).1, (write [] kept).2 ++ (feed (write [] kept).1 x).2) := by
        simp [write_append, write]
      obtain ⟨hcut, hopen⟩ := ih (kept ++ [x])
      rw [hkept] at hcut hopen
      rw [Delimited.cut_cons_ne hx]
      refine ⟨?_, hopen⟩
      rw [write, Delimited.cut_append, Delimited.cut_of_not_mem (not_mem_feed hd hx _), hcut]
      rfl

end Utf8
