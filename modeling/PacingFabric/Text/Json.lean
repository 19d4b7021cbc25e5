import Mathlib.Logic.Function.Basic

/-!
# Flat JSON objects

The grammar of a JSON object whose members are natural numbers, flags and texts, written
without white space, over bytes. A text is read back by `unescape`; bytes above ASCII stand
for themselves, so that a text need not be UTF-8.

## Main results

* `unescape_flatMap`: a text written byte by byte is read back.
* `numeral_toDigits`: decimal digits are a number.
* `Members.concat`: one more member, with a comma unless it is the first.
-/

namespace Json

/-- The byte that a backslash and a letter stand for. -/
def shortEscape (letter : UInt8) : Option UInt8 :=
  match letter with
  | 0x22 => some 0x22
  | 0x5C => some 0x5C
  | 0x2F => some 0x2F
  | 0x62 => some 0x08
  | 0x66 => some 0x0C
  | 0x6E => some 0x0A
  | 0x72 => some 0x0D
  | 0x74 => some 0x09
  | _ => none

def hexDigit (digit : UInt8) : Option Nat :=
  if 0x30 ≤ digit ∧ digit ≤ 0x39 then some (digit.toNat - 0x30)
  else if 0x61 ≤ digit ∧ digit ≤ 0x66 then some (digit.toNat - 0x57)
  else if 0x41 ≤ digit ∧ digit ≤ 0x46 then some (digit.toNat - 0x37)
  else none

/-- The character of four hexadecimal digits; a surrogate is none. -/
def codePoint (d₁ d₂ d₃ d₄ : UInt8) : Option Char := do
  let h₁ ← hexDigit d₁
  let h₂ ← hexDigit d₂
  let h₃ ← hexDigit d₃
  let h₄ ← hexDigit d₄
  let code := ((h₁ * 16 + h₂) * 16 + h₃) * 16 + h₄
  if code.isValidChar then some (Char.ofNat code) else none

/-- A byte that stands for itself inside a text. -/
def Plain (b : UInt8) : Prop := 0x20 ≤ b ∧ b ≠ 0x22 ∧ b ≠ 0x5C

instance (b : UInt8) : Decidable (Plain b) :=
  inferInstanceAs (Decidable (0x20 ≤ b ∧ b ≠ 0x22 ∧ b ≠ 0x5C))

/-- What the inside of a text denotes, if it is well formed: no control byte, no bare quote
and no unknown escape. -/
def unescape : List UInt8 → Option (List UInt8)
  | [] => some []
  | b :: rest =>
    if b = 0x5C then
      match rest with
      | [] => none
      | letter :: rest =>
        if letter = 0x75 then
          match rest with
          | d₁ :: d₂ :: d₃ :: d₄ :: rest =>
            (codePoint d₁ d₂ d₃ d₄).bind fun c =>
              (unescape rest).map (String.utf8EncodeChar c ++ ·)
          | _ => none
        else (shortEscape letter).bind fun c => (unescape rest).map (c :: ·)
    else if Plain b then (unescape rest).map (b :: ·)
    else none

/-- The bytes are one way to write the byte `b` inside a text. -/
def Writes (b : UInt8) : List UInt8 → Prop
  | [plain] => Plain plain ∧ plain = b
  | [escape, letter] => escape = 0x5C ∧ shortEscape letter = some b
  | [escape, letter, d₁, d₂, d₃, d₄] =>
    escape = 0x5C ∧ letter = 0x75 ∧
      (codePoint d₁ d₂ d₃ d₄).map String.utf8EncodeChar = some [b]
  | _ => False

instance (b : UInt8) : DecidablePred (Writes b)
  | [] => inferInstanceAs (Decidable False)
  | [_] => inferInstanceAs (Decidable (_ ∧ _))
  | [_, _] => inferInstanceAs (Decidable (_ ∧ _))
  | [_, _, _] => inferInstanceAs (Decidable False)
  | [_, _, _, _] => inferInstanceAs (Decidable False)
  | [_, _, _, _, _] => inferInstanceAs (Decidable False)
  | [_, _, _, _, _, _] => inferInstanceAs (Decidable (_ ∧ _ ∧ _))
  | _ :: _ :: _ :: _ :: _ :: _ :: _ :: _ => inferInstanceAs (Decidable False)

theorem unescape_plain {b : UInt8} (h : Plain b) (rest : List UInt8) :
    unescape (b :: rest) = (unescape rest).map (b :: ·) := by
  rw [unescape.eq_def]
  simp only [h.2.2, h, if_true, if_false]

theorem unescape_writes {b : UInt8} {page : List UInt8} (h : Writes b page)
    (rest : List UInt8) : unescape (page ++ rest) = (unescape rest).map (b :: ·) := by
  match page, h with
  | [_], ⟨hplain, rfl⟩ => exact unescape_plain hplain rest
  | [_, letter], ⟨rfl, hletter⟩ =>
    have hne : letter ≠ 0x75 := by
      rintro rfl
      cases hletter
    rw [unescape.eq_def]
    simp [hne, hletter]
  | [_, _, d₁, d₂, d₃, d₄], ⟨rfl, rfl, hcode⟩ =>
    obtain ⟨c, hc, hencode⟩ := Option.map_eq_some_iff.1 hcode
    rw [unescape.eq_def]
    simp [hc, hencode]

/-- A text written byte by byte denotes the bytes. -/
theorem unescape_flatMap {write : UInt8 → List UInt8} (h : ∀ b, Writes b (write b))
    (content rest : List UInt8) :
    unescape (content.flatMap write ++ rest) = (unescape rest).map (content ++ ·) := by
  induction content with
  | nil => simp
  | cons b content ih =>
    rw [List.flatMap_cons, List.append_assoc, unescape_writes (h b), ih, Option.map_map]
    rfl

theorem unescape_of_plain {content : List UInt8} (h : ∀ b ∈ content, Plain b) :
    unescape content = some content := by
  induction content with
  | nil => rfl
  | cons b content ih =>
    rw [unescape_plain (h b (by simp)), ih fun c hc => h c (by simp [hc])]
    rfl

/-- The decimal digits of a number, without a leading zero. -/
def Numeral (page : List UInt8) (n : Nat) : Prop :=
  ∃ digits : List Char, page = digits.flatMap String.utf8EncodeChar ∧ digits ≠ [] ∧
    (∀ d ∈ digits, d.isDigit = true) ∧ (digits.head? = some '0' → digits = ['0']) ∧
    Nat.ofDigitChars 10 digits 0 = n

theorem head_toDigits (n : Nat) :
    (Nat.toDigits 10 n).head? = some '0' → Nat.toDigits 10 n = ['0'] := by
  induction n using Nat.base_induction 10 (by decide) with
  | single m hm =>
    rw [Nat.toDigits_of_lt_base hm]
    simp
  | digit m k hk hm ih =>
    rw [← Nat.toDigits_append_toDigits (by decide) hm hk]
    intro hhead
    have hfirst : (Nat.toDigits 10 m).head? = some '0' := by
      obtain ⟨d, ds, hds⟩ := List.exists_cons_of_ne_nil (@Nat.toDigits_ne_nil m 10)
      rw [hds] at hhead ⊢
      exact hhead
    have hzero := @Nat.ofDigitChars_ten_toDigits m
    rw [ih hfirst] at hzero
    exact absurd hzero (by simp [Nat.ofDigitChars]; omega)

theorem numeral_toDigits (n : Nat) :
    Numeral ((Nat.toDigits 10 n).flatMap String.utf8EncodeChar) n :=
  ⟨_, rfl, Nat.toDigits_ne_nil,
    fun _ hd => Nat.isDigit_of_mem_toDigits (by decide) (by decide) hd,
    head_toDigits n, Nat.ofDigitChars_ten_toDigits⟩

/-- A value of a member. -/
inductive Value
  | number (n : Nat)
  | flag (b : Bool)
  | text (content : List UInt8)
  deriving DecidableEq

/-- A quoted text. -/
def Literal (page content : List UInt8) : Prop :=
  ∃ inside, page = 0x22 :: (inside ++ [0x22]) ∧ unescape inside = some content

/-- The bytes denote the value. -/
def Value.Written (page : List UInt8) : Value → Prop
  | .number n => Numeral page n
  | .flag b => page = (if b then "true" else "false").toUTF8.data.toList
  | .text content => Literal page content

/-- The bytes are one member: a quoted key, a colon and a value. -/
def Member (page : List UInt8) (member : List UInt8 × Value) : Prop :=
  ∃ key value, page = key ++ 0x3A :: value ∧ Literal key member.1 ∧
    member.2.Written value

/-- Members with commas between them. -/
inductive Members : List UInt8 → List (List UInt8 × Value) → Prop
  | nil : Members [] []
  | one {page member} : Member page member → Members page [member]
  | more {body members page member} : Members body members → members ≠ [] →
      Member page member → Members (body ++ 0x2C :: page) (members ++ [member])

/-- The bytes are one object with exactly these members, in this order. -/
def Object (page : List UInt8) (members : List (List UInt8 × Value)) : Prop :=
  ∃ body, Members body members ∧ page = 0x7B :: (body ++ [0x7D])

theorem Members.eq_nil {body : List UInt8} {members : List (List UInt8 × Value)}
    (h : Members body members) (hnone : members = []) : body = [] := by
  cases h with
  | nil => rfl
  | one => cases hnone
  | more => simp at hnone

theorem Members.concat {body page : List UInt8} {members : List (List UInt8 × Value)}
    {member : List UInt8 × Value} (h : Members body members) (hm : Member page member) :
    Members (if members.isEmpty then page else body ++ 0x2C :: page) (members ++ [member]) := by
  by_cases hempty : members = []
  · subst hempty
    exact .one hm
  · rw [if_neg (by simpa using hempty)]
    exact .more h hempty hm

end Json
