/-
**Accesses that can fail.**

A text can be read by moving a position over its bytes.  Slices of the text, indices into its bytes
and differences of counts are then accesses that can fail: a slice has to lie within the text and
end between characters, an index has to be in range, a difference may not be negative.  Here every
such access is partial, and what it yields is told at a position between two characters.  In the
middle of a character no ASCII character is found, since no byte of any other character is that of
an ASCII character.

Main definitions:

* `Scaffold.Checked.minus?`, `Scaffold.Checked.range?` — a difference, and a part of a list;
* `Scaffold.Checked.utf8` — the bytes of a text;
* `Scaffold.Checked.StandsAt` — what is left of a text at a position;
* `Scaffold.Checked.startsWith` — whether ASCII characters stand at a position.

Main results:

* `Scaffold.Checked.isPrefixOf_utf8` — whether a text starts with ASCII characters can be told from
  its bytes;
* `Scaffold.Checked.startsWith_of_high` — no ASCII characters stand in the middle of another
  character.
-/

import Scaffold.Text.Slice

set_option relaxedAutoImplicit false
set_option autoImplicit false

namespace Scaffold.Checked

open Text

/-! ### Accesses that can fail -/

/-- The difference of two counts, which may not be negative. -/
def minus? (m n : Nat) : Option Nat := if n ≤ m then some (m - n) else none

/-- The part of a list between two indices, which have to be in order and within the list. -/
def range? {α : Type} (xs : List α) (start stop : Nat) : Option (List α) :=
  if start ≤ stop ∧ stop ≤ xs.length then some ((xs.take stop).drop start) else none

theorem minus?_add (m n : Nat) : minus? (m + n) n = some m := by
  simp [minus?]

theorem range?_length {α : Type} {xs ys : List α} {start : Nat} (h : xs.drop start = ys)
    (hle : start ≤ xs.length) : range? xs start xs.length = some ys := by
  simp [range?, hle, h]

/-! ### The bytes of a text -/

/-- The bytes of characters. -/
def utf8 (cs : List Char) : List UInt8 := cs.flatMap String.utf8EncodeChar

/-- The byte of an ASCII character. -/
def byte (c : Char) : UInt8 := UInt8.ofNat c.toNat

@[simp] theorem utf8_nil : utf8 [] = [] := rfl

@[simp] theorem utf8_append (xs ys : List Char) : utf8 (xs ++ ys) = utf8 xs ++ utf8 ys :=
  List.flatMap_append

theorem utf8_cons (c : Char) (cs : List Char) :
    utf8 (c :: cs) = String.utf8EncodeChar c ++ utf8 cs :=
  List.flatMap_cons

@[simp] theorem length_utf8 (cs : List Char) : (utf8 cs).length = byteSize cs := by
  induction cs with
  | nil => rfl
  | cons c cs ih => rw [utf8_cons, List.length_append, ih, String.length_utf8EncodeChar, byteSize]

/-- An ASCII character is one byte. -/
theorem utf8_cons_of_lt {c : Char} (h : c.toNat < 128) (cs : List Char) :
    utf8 (c :: cs) = byte c :: utf8 cs := by
  have hle : c.val.toNat ≤ 127 := Nat.le_of_lt_succ h
  rw [utf8_cons, String.utf8EncodeChar, if_pos hle]
  rfl

theorem utf8Size_of_lt {c : Char} (h : c.toNat < 128) : c.utf8Size = 1 := by
  have := length_utf8 [c]
  rw [utf8_cons_of_lt h] at this
  simpa [byteSize] using this.symm

/-- No byte of any other character is that of an ASCII character. -/
theorem le_of_mem_utf8EncodeChar {c : Char} (h : 128 ≤ c.toNat) {b : UInt8}
    (hb : b ∈ String.utf8EncodeChar c) : 128 ≤ b.toNat := by
  have hle : ¬c.val.toNat ≤ 127 := by
    change 128 ≤ c.val.toNat at h
    omega
  simp only [String.utf8EncodeChar, if_neg hle] at hb
  split at hb
  · simp only [List.mem_cons, List.not_mem_nil, or_false] at hb
    rcases hb with rfl | rfl <;> rw [UInt8.toNat_ofNat'] <;> omega
  split at hb
  · simp only [List.mem_cons, List.not_mem_nil, or_false] at hb
    rcases hb with rfl | rfl | rfl <;> rw [UInt8.toNat_ofNat'] <;> omega
  · simp only [List.mem_cons, List.not_mem_nil, or_false] at hb
    rcases hb with rfl | rfl | rfl | rfl <;> rw [UInt8.toNat_ofNat'] <;> omega

/-- A character starts with a byte. -/
theorem exists_utf8EncodeChar_cons (c : Char) : ∃ b bs, String.utf8EncodeChar c = b :: bs := by
  cases hc : String.utf8EncodeChar c with
  | nil =>
      have hlength := String.length_utf8EncodeChar c
      rw [hc] at hlength
      exact absurd hlength (Nat.ne_of_lt c.utf8Size_pos)
  | cons b bs => exact ⟨b, bs, rfl⟩

/-- Behind its first byte, a character has none that is an ASCII character. -/
theorem le_of_mem_tail {c : Char} {b : UInt8} {ps : List UInt8}
    (h : String.utf8EncodeChar c = b :: ps) : ∀ p ∈ ps, 128 ≤ p.toNat := by
  intro p hp
  by_cases hc : c.toNat < 128
  · have hlength := String.length_utf8EncodeChar c
    rw [h, utf8Size_of_lt hc, List.length_cons, Nat.add_eq_right, List.length_eq_zero_iff] at hlength
    rw [hlength] at hp
    cases hp
  · exact le_of_mem_utf8EncodeChar (Nat.le_of_not_lt hc) (h ▸ List.mem_cons_of_mem b hp)

theorem toNat_byte {c : Char} (h : c.toNat < 128) : (byte c).toNat = c.toNat := by
  rw [byte, UInt8.toNat_ofNat']
  omega

theorem byte_ne_of_le {c : Char} (h : c.toNat < 128) {b : UInt8} (hb : 128 ≤ b.toNat) :
    byte c ≠ b := by
  rintro rfl
  rw [toNat_byte h] at hb
  omega

theorem byte_inj {c d : Char} (hc : c.toNat < 128) (hd : d.toNat < 128) :
    byte c = byte d ↔ c = d := by
  constructor
  · intro h
    have := congrArg UInt8.toNat h
    rw [toNat_byte hc, toNat_byte hd] at this
    exact Char.toNat_inj.1 this
  · rintro rfl
    rfl

/-- Whether a text starts with ASCII characters can be told from its bytes. -/
theorem isPrefixOf_utf8 {pattern : List Char} (h : ∀ c ∈ pattern, c.toNat < 128) (cs : List Char) :
    (utf8 pattern).isPrefixOf (utf8 cs) = pattern.isPrefixOf cs := by
  induction pattern generalizing cs with
  | nil => rfl
  | cons a pattern ih =>
      have ha := h a (by simp)
      rw [utf8_cons_of_lt ha]
      cases cs with
      | nil => rfl
      | cons c cs =>
          by_cases hc : c.toNat < 128
          · rw [utf8_cons_of_lt hc, List.isPrefixOf_cons_cons, List.isPrefixOf_cons_cons,
              ih (fun c hc => h c (List.mem_cons_of_mem _ hc))]
            congr 1
            rw [Bool.eq_iff_iff, beq_iff_eq, beq_iff_eq, byte_inj ha hc]
          · obtain ⟨b, bs, heq⟩ := exists_utf8EncodeChar_cons c
            have hb := le_of_mem_utf8EncodeChar (Nat.le_of_not_lt hc) (heq ▸ List.mem_cons_self)
            have hne : a ≠ c := fun heq => hc (heq ▸ ha)
            rw [utf8_cons, heq, List.cons_append, List.isPrefixOf_cons_cons,
              List.isPrefixOf_cons_cons, beq_false_of_ne (byte_ne_of_le ha hb),
              beq_false_of_ne hne, Bool.false_and, Bool.false_and]

/-! ### Positions in a text -/

/-- What is left of a text at a byte position. -/
def StandsAt (source : List Char) (pos : Nat) (cs : List Char) : Prop :=
  ∃ before, source = before ++ cs ∧ pos = byteSize before

variable {source xs cs : List Char} {pos : Nat}

theorem StandsAt.append (h : StandsAt source pos (xs ++ cs)) :
    StandsAt source (pos + byteSize xs) cs := by
  obtain ⟨before, rfl, rfl⟩ := h
  exact ⟨before ++ xs, (List.append_assoc _ _ _).symm, (byteSize_append _ _).symm⟩

theorem StandsAt.cons {c : Char} (h : StandsAt source pos (c :: cs)) :
    StandsAt source (pos + c.utf8Size) cs := by
  have happend : StandsAt source pos ([c] ++ cs) := h
  exact happend.append

theorem StandsAt.dropBytes? (h : StandsAt source pos cs) : dropBytes? pos source = some cs := by
  obtain ⟨before, rfl, rfl⟩ := h
  exact dropBytes?_append before cs

theorem StandsAt.drop_utf8 (h : StandsAt source pos cs) : (utf8 source).drop pos = utf8 cs := by
  obtain ⟨before, rfl, rfl⟩ := h
  rw [utf8_append, List.drop_append_of_le_length (by simp), ← length_utf8, List.drop_length,
    List.nil_append]

theorem StandsAt.le_length (h : StandsAt source pos cs) : pos ≤ (utf8 source).length := by
  obtain ⟨before, rfl, rfl⟩ := h
  simp

theorem StandsAt.slice? {start : Nat} (hstart : StandsAt source start (xs ++ cs))
    (hpos : pos = start + byteSize xs) : Text.slice? source start pos = some xs := by
  obtain ⟨before, rfl, rfl⟩ := hstart
  rw [hpos, ← List.append_assoc]
  exact slice?_append before xs cs

/-- Whether a pattern stands at a position, which may not lie behind the end. -/
def startsWith (bs : List UInt8) (pos : Nat) (pattern : List Char) : Option Bool :=
  (range? bs pos bs.length).map fun rest => (utf8 pattern).isPrefixOf rest

section Bytes

variable {bs : List UInt8}

theorem lt_length_of_drop {b : UInt8} {rest : List UInt8} (h : bs.drop pos = b :: rest) :
    pos < bs.length := by
  have := congrArg List.length h
  rw [List.length_drop, List.length_cons] at this
  omega

theorem drop_add_of_drop {ps rest : List UInt8} (h : bs.drop pos = ps ++ rest) :
    bs.drop (pos + ps.length) = rest := by
  rw [← List.drop_drop, h, List.drop_left]

theorem drop_succ_of_drop {b : UInt8} {rest : List UInt8} (h : bs.drop pos = b :: rest) :
    bs.drop (pos + 1) = rest := by
  have happend : bs.drop pos = [b] ++ rest := h
  exact drop_add_of_drop happend

theorem not_lt_length_of_drop (h : bs.drop pos = utf8 []) : ¬pos < bs.length := by
  rw [utf8_nil, List.drop_eq_nil_iff] at h
  exact Nat.not_lt_of_le h

theorem drop_add_utf8Size {c : Char} (h : bs.drop pos = utf8 (c :: cs)) :
    bs.drop (pos + c.utf8Size) = utf8 cs := by
  rw [← String.length_utf8EncodeChar]
  exact drop_add_of_drop (h.trans (utf8_cons c cs))

theorem getElem?_of_drop {b : UInt8} {rest : List UInt8} (h : bs.drop pos = b :: rest) :
    bs[pos]? = some b := by
  rw [← List.head?_drop, h, List.head?_cons]

theorem startsWith_of_drop {rest : List UInt8} (h : bs.drop pos = rest) (hle : pos ≤ bs.length)
    (pattern : List Char) : startsWith bs pos pattern = some ((utf8 pattern).isPrefixOf rest) := by
  rw [startsWith, range?_length h hle, Option.map_some]

theorem startsWith_utf8 (h : bs.drop pos = utf8 cs) (hle : pos ≤ bs.length) {pattern : List Char}
    (hpattern : ∀ c ∈ pattern, c.toNat < 128) :
    startsWith bs pos pattern = some (pattern.isPrefixOf cs) := by
  rw [startsWith_of_drop h hle, isPrefixOf_utf8 hpattern]

/-- No ASCII characters stand in the middle of another character. -/
theorem startsWith_of_high {b : UInt8} {rest : List UInt8} (h : bs.drop pos = b :: rest)
    (hb : 128 ≤ b.toNat) {a : Char} (ha : a.toNat < 128) (pattern : List Char) :
    startsWith bs pos (a :: pattern) = some false := by
  rw [startsWith_of_drop h (Nat.le_of_lt (lt_length_of_drop h)), utf8_cons_of_lt ha,
    List.isPrefixOf_cons_cons, beq_false_of_ne (byte_ne_of_le ha hb), Bool.false_and]

end Bytes

end Scaffold.Checked
