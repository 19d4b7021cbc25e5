import Mathlib.Logic.Function.Basic

/-!
# UTF-8 byte strings

The UTF-8 strings among the lists of bytes: where one can be cut, and what an ASCII byte in
the middle says about the two sides.

## Main results

* `valid_take_iff`: a valid string is cut into valid strings exactly between characters.
* `valid_ascii_iff`: an ASCII part is a boundary, so validity is decided on each side of it.
-/

namespace Utf8

/-- The bytes encode some sequence of characters. -/
def Valid (bytes : List UInt8) : Prop := ByteArray.IsValidUTF8 bytes.toByteArray

/-- The bytes end before position `n`, or go on there with a byte that starts a character. -/
def Boundary (bytes : List UInt8) (n : Nat) : Prop :=
  ∀ b, bytes[n]? = some b → b.IsUTF8FirstByte

/-- Every byte is a character of its own. -/
def Ascii (bytes : List UInt8) : Prop := ∀ b ∈ bytes, b < 0x80

theorem valid_nil : Valid [] := ByteArray.isValidUTF8_empty

theorem valid_iff {bytes : List UInt8} :
    Valid bytes ↔ ∃ text : List Char, bytes = text.flatMap String.utf8EncodeChar := by
  constructor
  · rintro ⟨text, h⟩
    exact ⟨text, by simpa [List.utf8Encode] using h⟩
  · rintro ⟨text, rfl⟩
    exact ⟨text, rfl⟩

theorem Valid.append {a b : List UInt8} (ha : Valid a) (hb : Valid b) : Valid (a ++ b) := by
  simpa [Valid] using ByteArray.IsValidUTF8.append ha hb

/-- What follows a valid string decides whether the whole is valid. -/
theorem Valid.append_iff {a b : List UInt8} (ha : Valid a) : Valid (a ++ b) ↔ Valid b := by
  obtain ⟨text, rfl⟩ := valid_iff.1 ha
  clear ha
  induction text with
  | nil => rfl
  | cons c text ih =>
    have hstep := @ByteArray.isValidUTF8_utf8Encode_singleton_append_iff
      (text.flatMap String.utf8EncodeChar ++ b).toByteArray c
    rw [← ih]
    simpa [Valid, List.utf8Encode_singleton] using hstep

theorem valid_take_iff {bytes : List UInt8} (h : Valid bytes) (n : Nat) :
    Valid (bytes.take n) ↔ Boundary bytes n := by
  by_cases hn : bytes.length ≤ n
  · have hend : bytes[n]? = none := by simpa using hn
    simp [List.take_of_length_le hn, h, Boundary, hend]
  have hlt : n < bytes.length := by omega
  have hpos := @String.Pos.Raw.isValid_iff_isUTF8FirstByte ⟨bytes.toByteArray, h⟩ ⟨n⟩
  rw [String.Pos.Raw.isValid_iff_isValidUTF8_extract_zero] at hpos
  have hextract : bytes.toByteArray.extract 0 n = (bytes.take n).toByteArray := by
    ext1
    rw [ByteArray.data_extract]
    simp [List.extract_toArray]
  have hsize : (String.rawEndPos ⟨bytes.toByteArray, h⟩).byteIdx = bytes.length := by
    change bytes.toByteArray.size = _
    simp
  simp only [String.Pos.Raw.le_iff, String.Pos.Raw.lt_iff, String.Pos.Raw.ext_iff, hsize,
    String.getUTF8Byte, hextract] at hpos
  simpa [Boundary, Valid, hlt, Nat.le_of_lt hlt, Nat.ne_of_lt hlt] using hpos

/-- An ASCII byte starts the character whose code it is, and is all of it. -/
theorem encode_ascii {b : UInt8} (h : b < 0x80) :
    String.utf8EncodeChar (Char.ofNat b.toNat) = [b] ∧ b.IsUTF8FirstByte := by
  have hall : ∀ n : Fin 0x80, String.utf8EncodeChar (Char.ofNat n) = [UInt8.ofNat n] ∧
      (UInt8.ofNat n).IsUTF8FirstByte := by decide +kernel
  have hb := hall ⟨b.toNat, UInt8.lt_iff_toNat_lt.1 h⟩
  simpa using hb

theorem ascii_of_all {bytes : List UInt8} (h : bytes.all (fun b => decide (b < 0x80)) = true) :
    Ascii bytes :=
  fun b hb => of_decide_eq_true (List.all_eq_true.1 h b hb)

theorem Ascii.append {a b : List UInt8} (ha : Ascii a) (hb : Ascii b) : Ascii (a ++ b) := by
  intro c hc
  exact (List.mem_append.1 hc).elim (ha c) (hb c)

theorem Ascii.take {a : List UInt8} (ha : Ascii a) (n : Nat) : Ascii (a.take n) :=
  fun b hb => ha b (List.mem_of_mem_take hb)

theorem Ascii.valid {a : List UInt8} (ha : Ascii a) : Valid a := by
  rw [valid_iff]
  refine ⟨a.map fun b => Char.ofNat b.toNat, ?_⟩
  induction a with
  | nil => rfl
  | cons b a ih =>
    have htail := ih fun d hd => ha d (by simp [hd])
    rw [List.map_cons, List.flatMap_cons, (encode_ascii (ha b (by simp))).1, ← htail]
    rfl

/-- An ASCII part is a boundary on both of its sides. -/
theorem valid_ascii_iff {a b c : List UInt8} (hb : Ascii b) (hne : b ≠ []) :
    Valid (a ++ (b ++ c)) ↔ Valid a ∧ Valid c := by
  constructor
  · intro h
    have hcut : Boundary (a ++ (b ++ c)) a.length := by
      obtain ⟨d, b, rfl⟩ := List.exists_cons_of_ne_nil hne
      intro e he
      have hd : d = e := by simpa using he
      exact hd ▸ (encode_ascii (hb d (by simp))).2
    have ha : Valid a := by simpa using (valid_take_iff h a.length).2 hcut
    exact ⟨ha, hb.valid.append_iff.1 (ha.append_iff.1 h)⟩
  · rintro ⟨ha, hc⟩
    exact ha.append (hb.valid.append hc)

theorem valid_append_ascii_iff {a b : List UInt8} (hb : Ascii b) :
    Valid (a ++ b) ↔ Valid a := by
  by_cases hne : b = []
  · simp [hne]
  · simpa [valid_nil] using @valid_ascii_iff a b [] hb hne

theorem ascii_encode {c : Char} (h : c.toNat < 0x80) : Ascii (String.utf8EncodeChar c) := by
  have hone : String.utf8EncodeChar c = [UInt8.ofNat c.toNat] := if_pos (Nat.le_of_lt_succ h)
  intro b hb
  rw [hone, List.mem_singleton] at hb
  rw [hb, UInt8.lt_iff_toNat_lt, UInt8.toNat_ofNat', Nat.mod_eq_of_lt (by omega)]
  exact h

/-- Writing ASCII bytes as ASCII and all others as they are keeps the characters. -/
theorem valid_flatMap_iff {write : UInt8 → List UInt8}
    (ascii : ∀ b, b < 0x80 → Ascii (write b) ∧ write b ≠ [])
    (wide : ∀ b, ¬ b < 0x80 → write b = [b]) (bytes : List UInt8) :
    Valid (bytes.flatMap write) ↔ Valid bytes := by
  -- what was written before may end inside a character
  suffices h : ∀ a, Valid (a ++ bytes.flatMap write) ↔ Valid (a ++ bytes) from h []
  induction bytes with
  | nil => simp
  | cons b bytes ih =>
    intro a
    rw [List.flatMap_cons]
    by_cases hb : b < 0x80
    · have hsingle : Ascii [b] := by simpa [Ascii] using hb
      rw [valid_ascii_iff (ascii b hb).1 (ascii b hb).2]
      have hsplit := @valid_ascii_iff a [b] bytes hsingle (by simp)
      have htail := ih []
      rw [List.nil_append, List.nil_append] at htail
      rw [htail]
      exact hsplit.symm
    · rw [wide b hb, ← List.append_assoc, ih, List.append_assoc]
      rfl

end Utf8
