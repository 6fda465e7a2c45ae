import Sic.Operand
import Sic.Proofs.Outcome
import Sic.Proofs.Text.Digits

/-!
# What operands are read as

Each reader of an operand accepts a form that can be said without it, and reports an operand in any
other form as an error about the role and the form that it wanted.

* `ByteLiteral.WrittenAs` is the form of a literal, and `ByteLiteral.parse_eq_ok_iff` says that
  literals in that form are read, and nothing else.
* `count_eq_ok_iff`, `startAddress_eq_ok_iff`, `wordValue_eq_ok_iff` and `byteLiteral_eq_ok_iff` say
  which operands can be used, and `count_le` and `length_lt_of_byteLiteral` how much storage they can
  ask for.
* `Statement.OperandError` is an error about an operand, with the line and the text of the
  statement.
-/

set_option autoImplicit false

namespace Sic

open Text

/-! ## Literals -/

namespace ByteLiteral

/-- How a literal is written: a letter in either case, and between quotes one byte or more, or one
pair of hexadecimal digits or more. -/
def WrittenAs (t : Text) : ByteLiteral → Prop
  | .characters value =>
    value ≠ [] ∧ ∃ letter, (letter = 0x43 ∨ letter = 0x63) ∧ t = letter :: 0x27 :: (value ++ [0x27])
  | .hexadecimal digits =>
    digits ≠ [] ∧ IsHexBytes digits ∧
      ∃ letter, (letter = 0x58 ∨ letter = 0x78) ∧ t = letter :: 0x27 :: (digits ++ [0x27])

theorem split?_eq_some_iff {t value : Text} {kind : UInt8} :
    split? t = some (kind, value) ↔
      ∃ letter, upper letter = kind ∧ t = letter :: 0x27 :: (value ++ [0x27]) := by
  constructor
  · intro h
    unfold split? at h
    split at h
    · split at h
      · rename_i letter rest hlast
        cases h
        obtain ⟨value, rfl⟩ := List.getLast?_eq_some_iff.mp hlast
        exact ⟨letter, rfl, by rw [List.dropLast_concat]⟩
      · cases h
    · cases h
  · rintro ⟨letter, rfl, rfl⟩
    simp [split?]

theorem upper_eq_iff (letter : UInt8) :
    (upper letter = 0x43 ↔ letter = 0x43 ∨ letter = 0x63) ∧
      (upper letter = 0x58 ↔ letter = 0x58 ∨ letter = 0x78) := by
  have hall : ∀ k : Fin 256,
      (upper (UInt8.ofFin k) = 0x43 ↔ UInt8.ofFin k = 0x43 ∨ UInt8.ofFin k = 0x63) ∧
        (upper (UInt8.ofFin k) = 0x58 ↔ UInt8.ofFin k = 0x58 ∨ UInt8.ofFin k = 0x78) := by
    decide +kernel
  exact hall letter.toFin

/-- **What is read as a literal.** -/
theorem parse_eq_ok_iff {t : Text} {lit : ByteLiteral} : parse t = .ok lit ↔ lit.WrittenAs t := by
  constructor
  · intro h
    rw [parse] at h
    split at h
    · rename_i value hsplit
      obtain ⟨letter, hletter, rfl⟩ := split?_eq_some_iff.mp hsplit
      split at h
      · cases h
      · rename_i hne
        cases h
        exact ⟨by simpa using hne, letter, (upper_eq_iff letter).1.mp hletter, rfl⟩
    · rename_i digits hsplit
      obtain ⟨letter, hletter, rfl⟩ := split?_eq_some_iff.mp hsplit
      split at h
      · cases h
      · rename_i hcount
        split at h
        · rename_i hall
          cases h
          have hcount : digits ≠ [] ∧ digits.length % 2 = 0 := by simpa using hcount
          exact ⟨hcount.1, ⟨hall, hcount.2⟩, letter, (upper_eq_iff letter).2.mp hletter, rfl⟩
        · cases h
    · cases h
  · intro h
    cases lit with
    | characters value =>
      obtain ⟨hne, letter, hletter, rfl⟩ := h
      have hsplit : split? (letter :: 0x27 :: (value ++ [0x27])) = some (0x43, value) :=
        split?_eq_some_iff.mpr ⟨letter, (upper_eq_iff letter).1.mpr hletter, rfl⟩
      rw [parse, hsplit]
      simp [hne]
    | hexadecimal digits =>
      obtain ⟨hne, hwhole, letter, hletter, rfl⟩ := h
      have hsplit : split? (letter :: 0x27 :: (digits ++ [0x27])) = some (0x58, digits) :=
        split?_eq_some_iff.mpr ⟨letter, (upper_eq_iff letter).2.mpr hletter, rfl⟩
      rw [parse, hsplit]
      simp [hne, hwhole.1, hwhole.2]

/-- How many bytes stand between the quotes of a literal. -/
def length : ByteLiteral → Nat
  | .characters value => value.length
  | .hexadecimal digits => digits.length

theorem size_le_length (lit : ByteLiteral) : lit.size ≤ lit.length := by
  cases lit with
  | characters value => exact Nat.le_refl _
  | hexadecimal digits => exact Nat.div_le_self _ _

theorem length_lt_of_writtenAs {t : Text} {lit : ByteLiteral} (h : lit.WrittenAs t) :
    lit.length < t.length := by
  cases lit with
  | characters value =>
    obtain ⟨-, letter, -, rfl⟩ := h
    simp [length]
    omega
  | hexadecimal digits =>
    obtain ⟨-, -, letter, -, rfl⟩ := h
    simp [length]
    omega

end ByteLiteral

/-! ## Operands that can be used -/

namespace Statement

variable {s : Statement}

theorem count_eq_ok_iff {role : OperandRole} {n : Nat} :
    s.count role = .ok n ↔ ∃ k, int32OfDigits? 10 s.operand = some k ∧ 0 ≤ k ∧ k.toNat = n := by
  rw [count, number]
  cases int32OfDigits? 10 s.operand with
  | none => simp
  | some k =>
    by_cases hk : k < 0
    · simp [hk]
    · simp [hk, Int.not_lt.mp hk]

theorem count_le {role : OperandRole} {n : Nat} (h : s.count role = .ok n) : n ≤ 2147483647 := by
  obtain ⟨k, hk, -, rfl⟩ := count_eq_ok_iff.mp h
  have hbounds := bounds_of_int32OfDigits? hk
  omega

theorem startAddress_eq_ok_iff {a : Int} :
    s.startAddress = .ok a ↔ int32OfDigits? 16 s.operand = some a ∧ 0 ≤ a := by
  rw [startAddress]
  cases int32OfDigits? 16 s.operand with
  | none => simp
  | some k =>
    simp only [Option.some.injEq]
    split
    · simp
      omega
    · simp
      omega

theorem wordValue_eq_ok_iff {n : Int} :
    s.wordValue = .ok n ↔
      int32OfDigits? 10 s.operand = some n ∧ -8388608 ≤ n ∧ n ≤ 16777215 := by
  rw [wordValue, number]
  cases int32OfDigits? 10 s.operand with
  | none => simp
  | some k => by_cases hk : -8388608 ≤ k ∧ k ≤ 16777215 <;> simp [hk] <;> omega

theorem byteLiteral_eq_ok_iff {s : Statement} {lit : ByteLiteral} :
    s.byteLiteral = .ok lit ↔ ByteLiteral.parse s.operand = .ok lit := by
  rw [byteLiteral]
  cases ByteLiteral.parse s.operand <;> simp

/-- A literal has fewer bytes between its quotes than its operand. -/
theorem length_lt_of_byteLiteral {lit : ByteLiteral} (h : s.byteLiteral = .ok lit) :
    lit.length < s.operand.length :=
  ByteLiteral.length_lt_of_writtenAs (ByteLiteral.parse_eq_ok_iff.mp (byteLiteral_eq_ok_iff.mp h))

/-- An integer that a word can hold can be used as one. -/
theorem exists_wordValue_iff :
    (∃ n, s.wordValue = .ok n) ↔ ∃ v, WritesInteger s.operand v ∧ -8388608 ≤ v ∧ v ≤ 16777215 := by
  simp only [wordValue_eq_ok_iff, int32OfDigits?, Option.filter_eq_some_iff,
    intOfDigits?_ten_eq_some_iff, Bool.and_eq_true, decide_eq_true_eq]
  constructor
  · rintro ⟨n, ⟨hn, -⟩, hrange⟩
    exact ⟨n, hn, hrange⟩
  · rintro ⟨v, hv, hrange⟩
    exact ⟨v, ⟨hv, by omega⟩, hrange⟩

/-! ## Errors -/

/-- An error about the operand of a statement. -/
def OperandError (s : Statement) (role : OperandRole) (form : OperandForm) (e : ProgramError) :
    Prop :=
  ∃ fault, e = s.badOperand role form fault

variable {e : ProgramError}

theorem operandError_of_number {role : OperandRole} (h : s.number role = .error e) :
    s.OperandError role .decimal e := by
  rw [number] at h
  split at h
  · cases h
  · cases h
    exact ⟨_, rfl⟩

theorem operandError_of_count {role : OperandRole} (h : s.count role = .error e) :
    s.OperandError role .decimal e := by
  rw [count] at h
  split at h
  · rename_i hnumber
    cases h
    exact operandError_of_number hnumber
  · split at h
    · cases h
      exact ⟨_, rfl⟩
    · cases h

theorem operandError_of_startAddress (h : s.startAddress = .error e) :
    s.OperandError .startAddress .hexadecimal e := by
  rw [startAddress] at h
  split at h
  · cases h
    exact ⟨_, rfl⟩
  · split at h
    · cases h
      exact ⟨_, rfl⟩
    · cases h

theorem operandError_of_wordValue (h : s.wordValue = .error e) :
    s.OperandError .wordValue .decimal e := by
  rw [wordValue] at h
  split at h
  · rename_i hnumber
    cases h
    exact operandError_of_number hnumber
  · split at h
    · cases h
    · cases h
      exact ⟨_, rfl⟩

theorem operandError_of_byteLiteral (h : s.byteLiteral = .error e) :
    s.OperandError .byteLiteral .literal e := by
  rw [byteLiteral] at h
  split at h
  · cases h
  · cases h
    exact ⟨_, rfl⟩

end Statement

end Sic
