import Sic.Text.Hex
import Sic.Proofs.Text.Blank
import Mathlib.Tactic.IntervalCases

/-!
# Digits

Hexadecimal numbers are read back as they were written, and pairs of digits as the bytes they stand
for.

* `word32OfHex?_hex`: a number written in hexadecimal, to whatever width, is read back exactly if it
  is a natural number of at most 32 bits; any other is refused.
* `natOfDigits?_eq_some_iff`: the numbers of a base are the non-empty sequences of its digits, and
  their value is what the digits add up to.  `natOfDigits?_ten_eq_some_iff` and
  `natOfDigits?_sixteen_eq_some_iff` say so for the two bases in use.
* `length_hexNat_le_iff`: how many digits a number takes, which is what an instruction's length
  depends on.
* `ofHex_eq_ok_iff`: the texts that write bytes are those with an even number of hexadecimal digits
  and nothing else.
* `intOfDigits?_hex` reads a number back with its sign, so numbers that are written alike are equal
  (`hex_inj`).
* `ofHex_toHex`: bytes written in hexadecimal are read back.
-/

set_option autoImplicit false

namespace Sic

namespace Text

/-! ## Single digits -/

/-- A hexadecimal digit as it is written. -/
def hexDigit (d : Nat) : UInt8 := upper (byte d.digitChar)

theorem digitValue?_hexDigit {d : Nat} (h : d < 16) : digitValue? (hexDigit d) = some d := by
  interval_cases d <;> rfl

theorem hexValue?_hexDigit {d : Nat} (h : d < 16) : hexValue? (hexDigit d) = some d := by
  rw [hexValue?, digitValue?_hexDigit h, Option.filter_some, if_pos (decide_eq_true h)]

/-- A hexadecimal digit with its letters in upper case. -/
def isUpperHexDigit (b : UInt8) : Bool := isDigit b || (0x41 ≤ b && b ≤ 0x46)

theorem isUpperHexDigit_hexDigit {d : Nat} (h : d < 16) : isUpperHexDigit (hexDigit d) = true := by
  interval_cases d <;> rfl

theorem isHexDigit_of_isUpperHexDigit {b : UInt8} (h : isUpperHexDigit b = true) :
    isHexDigit b = true := by
  have hall : ∀ n : Fin 256, isUpperHexDigit (UInt8.ofFin n) = true →
      isHexDigit (UInt8.ofFin n) = true := by
    decide +kernel
  exact hall b.toFin h

/-- The bytes that are hexadecimal digits, by their codes. -/
theorem toNat_of_isHexDigit {b : UInt8} (h : isHexDigit b = true) :
    (48 ≤ b.toNat ∧ b.toNat ≤ 57) ∨ (65 ≤ b.toNat ∧ b.toNat ≤ 70) ∨
      (97 ≤ b.toNat ∧ b.toNat ≤ 102) := by
  have hall : ∀ n : Fin 256, isHexDigit (UInt8.ofFin n) = true →
      (48 ≤ n.val ∧ n.val ≤ 57) ∨ (65 ≤ n.val ∧ n.val ≤ 70) ∨ (97 ≤ n.val ∧ n.val ≤ 102) := by
    decide +kernel
  exact hall b.toFin h

theorem isUpperHexDigit_upper {b : UInt8} (h : isHexDigit b = true) :
    isUpperHexDigit (upper b) = true := by
  have hall : ∀ n : Fin 256, isHexDigit (UInt8.ofFin n) = true →
      isUpperHexDigit (upper (UInt8.ofFin n)) = true := by
    decide +kernel
  exact hall b.toFin h

theorem isHexDigit_upper {b : UInt8} (h : isHexDigit b = true) : isHexDigit (upper b) = true :=
  isHexDigit_of_isUpperHexDigit (isUpperHexDigit_upper h)

theorem hexValue?_upper (b : UInt8) : hexValue? (upper b) = hexValue? b := by
  have hall : ∀ n : Fin 256, hexValue? (upper (UInt8.ofFin n)) = hexValue? (UInt8.ofFin n) := by
    decide +kernel
  exact hall b.toFin

theorem isSolid_of_isHexDigit {b : UInt8} (h : isHexDigit b = true) : isSolid b = true := by
  have hb := toNat_of_isHexDigit h
  have h9 : (0x09 : UInt8).toNat = 9 := rfl
  have h13 : (0x0D : UInt8).toNat = 13 := rfl
  have h32 : (0x20 : UInt8).toNat = 32 := rfl
  have h128 : (0x80 : UInt8).toNat = 128 := rfl
  simp only [isSolid, isAsciiBlank, Bool.and_eq_true, decide_eq_true_eq, Bool.not_eq_true',
    Bool.or_eq_false_iff, beq_eq_false_iff_ne, Bool.and_eq_false_iff, decide_eq_false_iff_not,
    UInt8.lt_iff_toNat_lt, UInt8.le_iff_toNat_le, ne_eq, ← UInt8.toNat_inj]
  omega

theorem ne_of_isHexDigit {b c : UInt8} (h : isHexDigit b = true) (hc : isHexDigit c = false) :
    c ≠ b := by
  rintro rfl
  exact Bool.false_ne_true (hc.symm.trans h)

/-! ## Numbers -/

theorem hexNat_eq (n : Nat) :
    hexNat n = if n < 16 then [hexDigit n] else hexNat (n / 16) ++ [hexDigit (n % 16)] := by
  rw [hexNat, Nat.toDigits_eq_if (by decide)]
  split
  · rfl
  · rw [List.map_append]
    rfl

theorem hexNat_ne_nil (n : Nat) : hexNat n ≠ [] := by
  rw [hexNat, Ne, List.map_eq_nil_iff]
  exact Nat.toDigits_ne_nil

theorem isUpperHexDigit_of_mem_hexNat {n : Nat} {b : UInt8} (h : b ∈ hexNat n) :
    isUpperHexDigit b = true := by
  induction n using Nat.strong_induction_on with
  | _ n ih =>
    rw [hexNat_eq] at h
    split at h
    · rw [List.mem_singleton] at h
      exact h ▸ isUpperHexDigit_hexDigit ‹_›
    · rcases List.mem_append.mp h with h | h
      · exact ih (n / 16) (by omega) h
      · rw [List.mem_singleton] at h
        exact h ▸ isUpperHexDigit_hexDigit (Nat.mod_lt n (by decide))

/-- A number takes at most `k` digits exactly if it is below the `k`th power of sixteen. -/
theorem length_hexNat_le_iff {n k : Nat} (hk : 0 < k) : (hexNat n).length ≤ k ↔ n < 16 ^ k := by
  rw [hexNat, List.length_map]
  exact Nat.length_toDigits_le_iff (by decide) hk

/-- One more digit behind those read so far. -/
def digitStep (base : Nat) (n : Nat) (b : UInt8) : Option Nat :=
  match digitValue? b with
  | some d => if d < base then some (n * base + d) else none
  | none => none

theorem natOfDigits?_eq {t : Text} (h : t ≠ []) (base : Nat) :
    natOfDigits? base t = t.foldlM (digitStep base) 0 := by
  rw [natOfDigits?, if_neg (by simpa using h)]
  rfl

theorem digitStep_of_value {base d : Nat} {b : UInt8} (h : digitValue? b = some d) (hd : d < base)
    (n : Nat) : digitStep base n b = some (n * base + d) := by
  rw [digitStep, h]
  exact if_pos hd

theorem digitStep_hexDigit {d : Nat} (h : d < 16) (n : Nat) :
    digitStep 16 n (hexDigit d) = some (n * 16 + d) :=
  digitStep_of_value (digitValue?_hexDigit h) h n

theorem foldlM_digitStep_hexNat (n : Nat) : (hexNat n).foldlM (digitStep 16) 0 = some n := by
  induction n using Nat.strong_induction_on with
  | _ n ih =>
    rw [hexNat_eq]
    split
    · rw [List.foldlM_cons, digitStep_hexDigit ‹_›, Nat.zero_mul, Nat.zero_add]
      rfl
    · rw [List.foldlM_append, ih (n / 16) (by omega), Option.bind_eq_bind, Option.bind_some,
        List.foldlM_cons, digitStep_hexDigit (Nat.mod_lt n (by decide)), Nat.div_add_mod']
      rfl

/-- Zeros before a number do not change it. -/
theorem foldlM_digitStep_replicate (k : Nat) :
    (List.replicate k (0x30 : UInt8)).foldlM (digitStep 16) 0 = some 0 := by
  induction k with
  | zero => rfl
  | succ k ih =>
    rw [List.replicate_succ, List.foldlM_cons]
    exact ih

theorem hex_natCast (width n : Nat) : hex width (n : Int) = (hexNat n).leftpad width 0x30 := by
  rw [hex, if_neg (by omega), Int.natAbs_natCast]

theorem hex_ne_nil (width : Nat) (n : Int) : hex width n ≠ [] := by
  rw [hex]
  split
  · exact List.cons_ne_nil _ _
  · rw [List.leftpad, Ne, List.append_eq_nil_iff]
    exact fun h => hexNat_ne_nil _ h.2

theorem length_hex_natCast (width n : Nat) :
    (hex width (n : Int)).length = max width (hexNat n).length := by
  rw [hex_natCast, List.length_leftpad]

theorem isUpperHexDigit_of_mem_leftpad {width n : Nat} {b : UInt8}
    (h : b ∈ (hexNat n).leftpad width 0x30) : isUpperHexDigit b = true := by
  rw [List.leftpad, List.mem_append] at h
  rcases h with h | h
  · rw [List.eq_of_mem_replicate h]
    rfl
  · exact isUpperHexDigit_of_mem_hexNat h

/-- A written number is made of digits, with a sign before them if it is negative. -/
theorem mem_hex {width : Nat} {n : Int} {b : UInt8} (h : b ∈ hex width n) :
    b = 0x2D ∨ isHexDigit b = true := by
  rw [hex] at h
  split at h
  · exact (List.mem_cons.mp h).imp_right fun h =>
      isHexDigit_of_isUpperHexDigit (isUpperHexDigit_of_mem_leftpad h)
  · exact Or.inr (isHexDigit_of_isUpperHexDigit (isUpperHexDigit_of_mem_leftpad h))

theorem isUpperHexDigit_of_mem_hex {width : Nat} {n : Int} (hn : 0 ≤ n) {b : UInt8}
    (h : b ∈ hex width n) : isUpperHexDigit b = true := by
  rw [hex, if_neg (Int.not_lt.mpr hn)] at h
  exact isUpperHexDigit_of_mem_leftpad h

theorem isHexDigit_of_mem_hex {width : Nat} {n : Int} (hn : 0 ≤ n) {b : UInt8}
    (h : b ∈ hex width n) : isHexDigit b = true :=
  isHexDigit_of_isUpperHexDigit (isUpperHexDigit_of_mem_hex hn h)

/-- A number that needs no more digits than asked for has as many as asked for. -/
theorem length_hex_of_lt {width n : Nat} (hwidth : 0 < width) (h : n < 16 ^ width) :
    (hex width (n : Int)).length = width := by
  have := (length_hexNat_le_iff hwidth).mpr h
  rw [length_hex_natCast]
  omega

theorem natOfDigits?_hex (width n : Nat) : natOfDigits? 16 (hex width n) = some n := by
  rw [natOfDigits?_eq (hex_ne_nil width n), hex_natCast, List.leftpad, List.foldlM_append,
    foldlM_digitStep_replicate, Option.bind_eq_bind, Option.bind_some, foldlM_digitStep_hexNat]

theorem natOfDigits?_minus (base : Nat) (t : Text) : natOfDigits? base (0x2D :: t) = none := by
  rw [natOfDigits?_eq (List.cons_ne_nil _ _), List.foldlM_cons]
  rfl

/-- The digits of a base. -/
def isDigitIn (base : Nat) (b : UInt8) : Bool := (digitValue? b).any (· < base)

theorem isDigitIn_ten (b : UInt8) : isDigitIn 10 b = isDigit b := by
  have hall : ∀ k : Fin 256, isDigitIn 10 (UInt8.ofFin k) = isDigit (UInt8.ofFin k) := by
    decide +kernel
  exact hall b.toFin

theorem isDigitIn_sixteen (b : UInt8) : isDigitIn 16 b = isHexDigit b := by
  rw [isHexDigit, hexValue?, Option.isSome_filter]
  rfl

theorem isSome_digitStep (base n : Nat) (b : UInt8) :
    (digitStep base n b).isSome = isDigitIn base b := by
  rw [digitStep, isDigitIn]
  cases digitValue? b with
  | none => rfl
  | some d => by_cases hd : d < base <;> simp [hd]

theorem isSome_foldlM_digitStep (base : Nat) (t : Text) (n : Nat) :
    (t.foldlM (digitStep base) n).isSome = t.all (isDigitIn base) := by
  induction t generalizing n with
  | nil => rfl
  | cons b t ih =>
    rw [List.foldlM_cons, List.all_cons, ← isSome_digitStep base n b]
    cases digitStep base n b with
    | none => rfl
    | some m => exact ih m

/-- The numbers of a base are the non-empty sequences of its digits. -/
theorem isSome_natOfDigits? (base : Nat) (t : Text) :
    (natOfDigits? base t).isSome = (!t.isEmpty && t.all (isDigitIn base)) := by
  cases t with
  | nil => rfl
  | cons b t =>
    rw [natOfDigits?_eq (List.cons_ne_nil b t), isSome_foldlM_digitStep]
    rfl

/-- The decimal numbers are the non-empty sequences of decimal digits. -/
theorem isSome_natOfDigits?_ten (t : Text) :
    (natOfDigits? 10 t).isSome = (!t.isEmpty && t.all isDigit) := by
  rw [isSome_natOfDigits?, funext isDigitIn_ten]

theorem foldlM_digitStep {base : Nat} {value : UInt8 → Nat} {t : Text}
    (h : ∀ b ∈ t, digitValue? b = some (value b) ∧ value b < base) (n : Nat) :
    t.foldlM (digitStep base) n = some (t.foldl (fun n b => base * n + value b) n) := by
  induction t generalizing n with
  | nil => rfl
  | cons b t ih =>
    obtain ⟨⟨hb, hlt⟩, ht⟩ := List.forall_mem_cons.mp h
    rw [List.foldlM_cons, digitStep_of_value hb hlt, Nat.mul_comm]
    exact ih ht _

/-- **What digits are read as**: the number that they write. -/
theorem natOfDigits?_eq_some_iff {base : Nat} {value : UInt8 → Nat}
    (hvalue : ∀ b, isDigitIn base b = true → digitValue? b = some (value b)) {t : Text} {n : Nat} :
    natOfDigits? base t = some n ↔
      (t ≠ [] ∧ ∀ b ∈ t, isDigitIn base b = true) ∧
        t.foldl (fun n b => base * n + value b) 0 = n := by
  by_cases ht : t ≠ [] ∧ ∀ b ∈ t, isDigitIn base b = true
  · have hdigits : ∀ b ∈ t, digitValue? b = some (value b) ∧ value b < base := by
      intro b hb
      have hsome := hvalue b (ht.2 b hb)
      refine ⟨hsome, ?_⟩
      simpa [isDigitIn, hsome] using ht.2 b hb
    rw [natOfDigits?_eq ht.1, foldlM_digitStep hdigits, Option.some_inj, and_iff_right ht]
  · have hnone : natOfDigits? base t = none := by
      rw [← Option.not_isSome_iff_eq_none, isSome_natOfDigits?]
      simpa using ht
    simp [hnone, ht]

/-- A non-empty sequence of decimal digits. -/
def IsDecimal (t : Text) : Prop := t ≠ [] ∧ ∀ b ∈ t, isDigit b = true

instance (t : Text) : Decidable (IsDecimal t) := inferInstanceAs (Decidable (_ ∧ _))

/-- The number that decimal digits write, with or without zeros before it. -/
def decimalValue (t : Text) : Nat := t.foldl (fun n b => 10 * n + (b.toNat - 48)) 0

/-- **What decimal digits are read as.** -/
theorem natOfDigits?_ten_eq_some_iff {t : Text} {n : Nat} :
    natOfDigits? 10 t = some n ↔ IsDecimal t ∧ decimalValue t = n := by
  have hvalue (b : UInt8) (hb : isDigitIn 10 b = true) : digitValue? b = some (b.toNat - 48) := by
    rw [isDigitIn_ten] at hb
    exact if_pos hb
  rw [natOfDigits?_eq_some_iff hvalue, funext isDigitIn_ten]
  rfl

/-- The number that hexadecimal digits write, in either case. -/
def hexadecimalValue (t : Text) : Nat := t.foldl (fun n b => 16 * n + (hexValue? b).getD 0) 0

/-- **What hexadecimal digits are read as.** -/
theorem natOfDigits?_sixteen_eq_some_iff {t : Text} {n : Nat} :
    natOfDigits? 16 t = some n ↔ isHexNumber t = true ∧ hexadecimalValue t = n := by
  have hvalue (b : UInt8) (hb : isDigitIn 16 b = true) :
      digitValue? b = some ((hexValue? b).getD 0) := by
    rw [isDigitIn_sixteen] at hb
    obtain ⟨d, hd⟩ := Option.isSome_iff_exists.mp hb
    rw [hd]
    exact (Option.filter_eq_some_iff.mp hd).1
  have hdigits : isHexNumber t = true ↔ t ≠ [] ∧ ∀ b ∈ t, isHexDigit b = true := by
    simp [isHexNumber]
  rw [natOfDigits?_eq_some_iff hvalue, funext isDigitIn_sixteen, hdigits]
  rfl

theorem natOfDigits?_ten_eq_none_iff {t : Text} : natOfDigits? 10 t = none ↔ ¬ IsDecimal t := by
  rw [Option.eq_none_iff_forall_ne_some]
  simp [natOfDigits?_ten_eq_some_iff]

/-- A text that writes an integer: decimal digits, with a sign before them or without. -/
def WritesInteger (t : Text) (v : Int) : Prop :=
  ∃ digits, IsDecimal digits ∧
    ((t = digits ∨ t = 0x2B :: digits) ∧ v = decimalValue digits ∨
      t = 0x2D :: digits ∧ v = -decimalValue digits)

theorem splitSign_cases (t : Text) :
    (∃ r, t = 0x2B :: r ∧ splitSign t = (false, r)) ∨
      (∃ r, t = 0x2D :: r ∧ splitSign t = (true, r)) ∨ splitSign t = (false, t) := by
  unfold splitSign
  split
  · exact Or.inl ⟨_, rfl, rfl⟩
  · exact Or.inr (Or.inl ⟨_, rfl, rfl⟩)
  · exact Or.inr (Or.inr rfl)

/-- A sign is no digit. -/
theorem splitSign_of_isDecimal {t : Text} (h : IsDecimal t) : splitSign t = (false, t) := by
  obtain ⟨r, rfl, -⟩ | ⟨r, rfl, -⟩ | hsign := splitSign_cases t
  · exact absurd (h.2 0x2B List.mem_cons_self) (by decide)
  · exact absurd (h.2 0x2D List.mem_cons_self) (by decide)
  · exact hsign

theorem intOfDigits?_eq_some_iff {base : Nat} {t : Text} {v : Int} :
    intOfDigits? base t = some v ↔
      ∃ n, natOfDigits? base (splitSign t).2 = some n ∧
        (if (splitSign t).1 then -(n : Int) else n) = v := by
  simp [intOfDigits?, Option.bind_eq_some_iff]

/-- **What an integer is read as.** -/
theorem intOfDigits?_ten_eq_some_iff {t : Text} {v : Int} :
    intOfDigits? 10 t = some v ↔ WritesInteger t v := by
  simp only [intOfDigits?_eq_some_iff, natOfDigits?_ten_eq_some_iff]
  constructor
  · rintro ⟨n, ⟨hdigits, rfl⟩, rfl⟩
    refine ⟨_, hdigits, ?_⟩
    obtain ⟨r, rfl, hsign⟩ | ⟨r, rfl, hsign⟩ | hsign := splitSign_cases t
    · simp [hsign]
    · simp [hsign]
    · simp [hsign]
  · rintro ⟨digits, hdigits, ⟨rfl | rfl, rfl⟩ | ⟨rfl, rfl⟩⟩
    · rw [splitSign_of_isDecimal hdigits]
      exact ⟨_, ⟨hdigits, rfl⟩, rfl⟩
    · exact ⟨_, ⟨hdigits, rfl⟩, rfl⟩
    · exact ⟨_, ⟨hdigits, rfl⟩, rfl⟩

theorem isSolid_of_mem_hex {width : Nat} {n : Int} {b : UInt8} (h : b ∈ hex width n) :
    isSolid b = true := by
  rcases mem_hex h with rfl | h
  · rfl
  · exact isSolid_of_isHexDigit h

/-- **A written number is read back**, also if it is negative. -/
theorem intOfDigits?_hex (width : Nat) (n : Int) : intOfDigits? 16 (hex width n) = some n := by
  rw [intOfDigits?_eq_some_iff]
  by_cases hn : n < 0
  · have hhex : hex width n = 0x2D :: hex (width - 1) n.natAbs := by
      rw [hex, if_pos hn, hex_natCast]
    rw [hhex]
    refine ⟨n.natAbs, natOfDigits?_hex (width - 1) n.natAbs, ?_⟩
    show -(n.natAbs : Int) = n
    omega
  · obtain ⟨m, rfl⟩ := Int.eq_ofNat_of_zero_le (Int.not_lt.mp hn)
    have hdigit : ∀ b ∈ hex width (m : Int), isHexDigit b = true := fun b hb =>
      isHexDigit_of_mem_hex (Int.natCast_nonneg m) hb
    obtain ⟨r, hr, -⟩ | ⟨r, hr, -⟩ | hsign := splitSign_cases (hex width (m : Int))
    · exact absurd (hdigit 0x2B (hr ▸ List.mem_cons_self)) (by decide)
    · exact absurd (hdigit 0x2D (hr ▸ List.mem_cons_self)) (by decide)
    · rw [hsign]
      exact ⟨m, natOfDigits?_hex width m, rfl⟩

/-- Numbers that are written alike are equal. -/
theorem hex_inj {width : Nat} {m n : Int} : hex width m = hex width n ↔ m = n := by
  constructor
  · intro h
    have hread := congrArg (intOfDigits? 16) h
    rwa [intOfDigits?_hex, intOfDigits?_hex, Option.some_inj] at hread
  · exact congrArg (hex width)

theorem bounds_of_int32OfDigits? {base : Nat} {t : Text} {n : Int}
    (h : int32OfDigits? base t = some n) : -2147483648 ≤ n ∧ n ≤ 2147483647 := by
  have hrange := (Option.filter_eq_some_iff.mp h).2
  simpa only [Bool.and_eq_true, decide_eq_true_eq] using hrange

/-- The numbers that a field of a record can hold. -/
def Fits32 (n : Int) : Prop := 0 ≤ n ∧ n < 4294967296

instance (n : Int) : Decidable (Fits32 n) := inferInstanceAs (Decidable (_ ∧ _))

/-- **A written number is read back exactly if it fits into 32 bits.** -/
theorem word32OfHex?_hex (width : Nat) (n : Int) :
    word32OfHex? (hex width n) = if Fits32 n then some n.toNat else none := by
  rw [word32OfHex?]
  by_cases hn : 0 ≤ n
  · obtain ⟨n, rfl⟩ := Int.eq_ofNat_of_zero_le hn
    rw [natOfDigits?_hex, Option.filter_some, Int.toNat_natCast]
    by_cases hlt : n < 4294967296
    · rw [if_pos (decide_eq_true hlt), if_pos ⟨hn, by omega⟩]
    · rw [if_neg (by simpa using hlt), if_neg (fun h => hlt (by have := h.2; omega))]
  · rw [if_neg (fun h => hn h.1), hex, if_pos (by omega), natOfDigits?_minus]
    rfl

/-! ## Bytes -/

/-- A sequence of hexadecimal digits that makes whole bytes. -/
def IsHexBytes (t : Text) : Prop := t.all isHexDigit = true ∧ t.length % 2 = 0

instance (t : Text) : Decidable (IsHexBytes t) := inferInstanceAs (Decidable (_ ∧ _))

theorem ofHex_of_isHexBytes {t : Text} (h : IsHexBytes t) : ofHex t = .ok (pairs t) := by
  have hfind : t.find? (!isHexDigit ·) = none := by
    rw [List.find?_eq_none]
    intro b hb
    simpa using List.all_eq_true.mp h.1 b hb
  rw [ofHex, hfind]
  exact if_pos h.2

theorem isHexBytes_of_ofHex {t : Text} {bs : List UInt8} (h : ofHex t = .ok bs) :
    IsHexBytes t := by
  rw [ofHex] at h
  split at h
  · cases h
  · rename_i hfind
    split at h
    · refine ⟨List.all_eq_true.mpr fun b hb => ?_, ‹_›⟩
      simpa using List.find?_eq_none.mp hfind b hb
    · cases h

theorem ofHex_eq_ok_iff {t : Text} {bs : List UInt8} :
    ofHex t = .ok bs ↔ IsHexBytes t ∧ bs = pairs t := by
  constructor
  · intro h
    have ht := isHexBytes_of_ofHex h
    rw [ofHex_of_isHexBytes ht] at h
    exact ⟨ht, (Except.ok.inj h).symm⟩
  · rintro ⟨ht, rfl⟩
    exact ofHex_of_isHexBytes ht

/-- Bytes are written with two digits each. -/
theorem length_toHex (bs : List UInt8) : (toHex bs).length = 2 * bs.length := by
  induction bs with
  | nil => rfl
  | cons b bs ih =>
    have hb : (hex 2 (b.toNat : Int)).length = 2 := length_hex_of_lt (by decide) b.toNat_lt
    rw [toHex, List.flatMap_cons, List.length_append, hb, ← toHex, ih, List.length_cons]
    omega

theorem isUpperHexDigit_of_mem_toHex {bs : List UInt8} {d : UInt8} (h : d ∈ toHex bs) :
    isUpperHexDigit d = true := by
  obtain ⟨b, -, hd⟩ := List.mem_flatMap.mp h
  exact isUpperHexDigit_of_mem_hex (Int.natCast_nonneg _) hd

theorem isHexBytes_toHex (bs : List UInt8) : IsHexBytes (toHex bs) := by
  refine ⟨List.all_eq_true.mpr fun d hd => ?_, by rw [length_toHex]; omega⟩
  exact isHexDigit_of_isUpperHexDigit (isUpperHexDigit_of_mem_toHex hd)

/-- The two digits of a byte, the high half first. -/
theorem hex_two_toNat (b : UInt8) :
    hex 2 b.toNat = [hexDigit (b.toNat / 16), hexDigit (b.toNat % 16)] := by
  have hb := b.toNat_lt
  rw [hex_natCast, hexNat_eq]
  split
  · rename_i hlt
    rw [Nat.div_eq_of_lt hlt, Nat.mod_eq_of_lt hlt]
    rfl
  · rw [hexNat_eq, if_pos (by omega)]
    rfl

theorem byteOfPair_hexDigit (b : UInt8) :
    byteOfPair (hexDigit (b.toNat / 16)) (hexDigit (b.toNat % 16)) = b := by
  have hb := b.toNat_lt
  have hhalves : b.toNat / 16 * 16 + b.toNat % 16 = b.toNat := by omega
  rw [byteOfPair, hexValue?_hexDigit (by omega), hexValue?_hexDigit (by omega), Option.getD_some,
    Option.getD_some, hhalves]
  exact UInt8.ofNat_toNat

theorem pairs_toHex (bs : List UInt8) : pairs (toHex bs) = bs := by
  induction bs with
  | nil => rfl
  | cons b bs ih =>
    rw [toHex, List.flatMap_cons, ← toHex, hex_two_toNat, List.cons_append, List.cons_append,
      List.nil_append, pairs, byteOfPair_hexDigit, ih]

/-- **Bytes are read back from their digits.** -/
theorem ofHex_toHex (bs : List UInt8) : ofHex (toHex bs) = .ok bs := by
  rw [ofHex_of_isHexBytes (isHexBytes_toHex bs), pairs_toHex]

/-- Digits write the same bytes in upper case. -/
theorem pairs_map_upper (t : Text) : pairs (t.map upper) = pairs t := by
  fun_induction pairs t with
  | case1 a b t ih =>
    rw [List.map_cons, List.map_cons, pairs, byteOfPair, hexValue?_upper, hexValue?_upper, ih,
      byteOfPair]
  | case2 t ht => cases t with
    | nil => rfl
    | cons a t => cases t with
      | nil => rfl
      | cons b t => exact absurd rfl (ht a b t)

end Text

end Sic
