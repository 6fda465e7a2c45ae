import Sic.Proofs.Encoding

/-!
# The data of directives

A literal is read twice: once to know how much storage it takes, when the program is laid out, and
once to know its bytes, when it is encoded.  Both times the same literals are accepted, and the
bytes fill the storage.  So a program that was laid out has no bad literal left to be found.

* `ByteLiteral.Gives` says which bytes a literal stands for, and `ByteLiteral.writesBytes_code` that
  its code writes these bytes.
* `writesNumber_wordCode` says what the data of a word is: six digits, for the value modulo 2^24.
* `directiveSize_eq_error_iff` compares the two readings, and `Placed.role_of_code_error` says that
  the code of a statement whose size is known does not fail for a literal.
-/

set_option autoImplicit false

namespace Sic

open Text

/-! ## What is written -/

/-- Digits, with letters in upper case, that write the given bytes. -/
def Text.WritesBytes (code : Text) (bytes : List UInt8) : Prop :=
  (∀ d ∈ code, isUpperHexDigit d = true) ∧ ofHex code = .ok bytes

namespace ByteLiteral

/-- The bytes a literal stands for: those between its quotes, or those that its digits write. -/
def Gives (bytes : List UInt8) : ByteLiteral → Prop
  | .characters value => bytes = value
  | .hexadecimal digits => ofHex digits = .ok bytes

/-- **The code of a literal writes the bytes that it stands for**, and these are as many as its
size. -/
theorem writesBytes_code {t : Text} {lit : ByteLiteral} (h : lit.WrittenAs t) :
    ∃ bytes, lit.Gives bytes ∧ lit.code.WritesBytes bytes ∧ lit.size = bytes.length := by
  cases lit with
  | characters value =>
    exact ⟨value, rfl, ⟨fun d hd => isUpperHexDigit_of_mem_toHex hd, ofHex_toHex value⟩, rfl⟩
  | hexadecimal digits =>
    have hcode : IsHexBytes (digits.map upper) := (code_of_parse (parse_eq_ok_iff.mpr h)).1
    obtain ⟨-, hdigits, -⟩ := h
    refine ⟨pairs digits, ofHex_of_isHexBytes hdigits, ⟨fun d hd => ?_, ?_⟩, ?_⟩
    · obtain ⟨c, hc, rfl⟩ := List.mem_map.mp hd
      exact isUpperHexDigit_upper (List.all_eq_true.mp hdigits.1 c hc)
    · rw [code, ofHex_of_isHexBytes hcode, pairs_map_upper]
    · rw [size, length_pairs]

end ByteLiteral

namespace Statement

/-- The data of a word is six digits for its value, modulo 2^24. -/
theorem writesNumber_wordCode (v : Int) :
    (hex 6 (v % 16777216)).length = 6 ∧
      (∀ d ∈ hex 6 (v % 16777216), isUpperHexDigit d = true) ∧
      hexadecimalValue (hex 6 (v % 16777216)) = v % 16777216 := by
  have hnonneg : 0 ≤ v % 16777216 := Int.emod_nonneg v (by decide)
  refine ⟨(wordCode_whole v).2, fun d hd => isUpperHexDigit_of_mem_hex hnonneg hd, ?_⟩
  obtain ⟨n, hn⟩ := Int.eq_ofNat_of_zero_le hnonneg
  rw [hn, (natOfDigits?_sixteen_eq_some_iff.mp (natOfDigits?_hex 6 n)).2]

/-! ## Reading a literal twice -/

variable {s : Statement}

theorem directiveSize_of_bytes (h : s.directive? = some .bytes) :
    s.directiveSize = s.byteLiteral.map ByteLiteral.size := by
  rw [directiveSize, h]

theorem directiveCode_of_bytes (h : s.directive? = some .bytes) :
    s.directiveCode = s.byteLiteral.map ByteLiteral.code := by
  rw [directiveCode, h]

theorem directiveCode_of_word (h : s.directive? = some .word) :
    s.directiveCode = s.wordValue.map fun n => hex 6 (n % 16777216) := by
  rw [directiveCode, h]

/-- Laying out and encoding reject the same literals, for the same reason. -/
theorem directiveSize_eq_error_iff (h : s.directive? = some .bytes) {e : ProgramError} :
    s.directiveSize = .error e ↔ s.directiveCode = .error e := by
  rw [directiveSize_of_bytes h, directiveCode_of_bytes h, map_eq_error_iff, map_eq_error_iff]

theorem exists_byteLiteral_iff :
    (∃ lit, s.byteLiteral = .ok lit) ↔ ∃ lit : ByteLiteral, lit.WrittenAs s.operand := by
  simp only [byteLiteral_eq_ok_iff, ByteLiteral.parse_eq_ok_iff]

/-- An error about a literal is that of a directive for bytes. -/
theorem directive?_of_code_error {e : BadOperand} (h : s.directiveCode = .error (.badOperand e))
    (hrole : e.role = .byteLiteral) : s.directive? = some .bytes := by
  rw [directiveCode] at h
  split at h
  · obtain ⟨fault, hfault⟩ := operandError_of_wordValue (map_eq_error_iff.mp h)
    cases hfault
    cases hrole
  · assumption
  · cases h

end Statement

namespace Placed

/-- A statement whose code fails with an error about a literal is no instruction. -/
theorem directiveCode_of_code_error {reject : Bool} {table : OpcodeTable} {symbols : SymbolTable}
    {p : Placed} {e : BadOperand} (h : p.code reject table symbols = .error (.badOperand e))
    (hrole : e.role = .byteLiteral) :
    table.lookup p.opcode = none ∧ p.directiveCode = .error (.badOperand e) := by
  rw [Placed.code] at h
  split at h
  · rename_i hlookup
    exact ⟨hlookup, h⟩
  · split at h
    · cases h
    · cases h
      cases hrole
    · split at h <;> cases h

/-- **A literal that was laid out can be encoded.** -/
theorem role_of_code_error {reject : Bool} {table : OpcodeTable} {symbols : SymbolTable}
    {p : Placed} (hsized : Layout.SizedBy table p) {e : BadOperand}
    (h : p.code reject table symbols = .error (.badOperand e)) : e.role ≠ .byteLiteral := by
  intro hrole
  obtain ⟨hlookup, hcode⟩ := directiveCode_of_code_error h hrole
  have hbytes := Statement.directive?_of_code_error hcode hrole
  have hsize := (Statement.directiveSize_eq_error_iff hbytes).mpr hcode
  rcases hsized with ⟨n, hn, -⟩ | ⟨hstart, -⟩
  · rw [Statement.size, OpcodeTable.contains, hlookup] at hn
    exact absurd (hn.symm.trans hsize) (by simp)
  · rw [Statement.isStart, hbytes] at hstart
    cases hstart

end Placed

/-- Encoding a program that was laid out with the same table finds no bad literal. -/
theorem Assembly.role_of_ofLayout_error {options : Options} {unique : Bool} {table : OpcodeTable}
    {source : Text} {l : Layout} (hl : Layout.ofSource unique table source = .ok l) {e : BadOperand}
    (h : Assembly.ofLayout options table l = .error (.badOperand e)) : e.role ≠ .byteLiteral := by
  rw [Assembly.ofLayout_eq_error_iff, Layout.encode, mapM_eq_error_iff] at h
  obtain ⟨before, p, behind, hsplit, -, hp⟩ := h
  have hmem : p ∈ l.placed := by
    refine (Layout.untilFinish_isPrefix l.placed).subset ?_
    rw [← Layout.encoded, hsplit]
    exact List.mem_append_right _ List.mem_cons_self
  exact Placed.role_of_code_error ((Layout.isLaidOut_ofSource hl).sized p hmem)
    (Placed.list_eq_error_iff.mp hp)

/-! ## Exactness -/

/-- **The data of directives is exact.**  A `BYTE` is laid out and encoded for the same operands,
those that write a literal, and both fail with the same error for any other.  Its code is in upper
case and writes the bytes of the literal, of which there are as many as its size.  A `WORD` is
encoded for the integers that it can hold, as six upper-case digits for the integer modulo 2^24.  So
encoding what was laid out with the same table never fails for a literal. -/
theorem directive_data_exact :
    (∀ s : Statement, upperAscii s.opcode = "BYTE" →
      (∀ e, s.directiveSize = .error e ↔ s.directiveCode = .error e) ∧
      ((∃ size, s.directiveSize = .ok size) ↔ ∃ lit : ByteLiteral, lit.WrittenAs s.operand) ∧
      ((∃ code, s.directiveCode = .ok code) ↔ ∃ lit : ByteLiteral, lit.WrittenAs s.operand) ∧
      ∀ lit : ByteLiteral, lit.WrittenAs s.operand → ∃ code bytes,
        s.directiveCode = .ok code ∧ s.directiveSize = .ok bytes.length ∧ lit.Gives bytes ∧
          code.WritesBytes bytes) ∧
    (∀ s : Statement, upperAscii s.opcode = "WORD" →
      ((∃ code, s.directiveCode = .ok code) ↔
        ∃ v, WritesInteger s.operand v ∧ -8388608 ≤ v ∧ v ≤ 16777215) ∧
      ∀ v, WritesInteger s.operand v → -8388608 ≤ v → v ≤ 16777215 → ∃ code,
        s.directiveCode = .ok code ∧ code.length = 6 ∧
          (∀ d ∈ code, isUpperHexDigit d = true) ∧ hexadecimalValue code = v % 16777216) ∧
    (∀ (unique : Bool) (options : Options) (table : OpcodeTable) (source : Text) (l : Layout)
      (e : BadOperand), Layout.ofSource unique table source = .ok l →
        Assembly.ofLayout options table l = .error (.badOperand e) → e.role ≠ .byteLiteral) := by
  refine ⟨fun s hs => ?_, fun s hs => ?_, fun unique options table source l e hl he =>
    Assembly.role_of_ofLayout_error hl he⟩
  · have hbytes : s.directive? = some .bytes := Directive.ofOpcode?_eq_some_iff.mpr hs
    refine ⟨fun e => Statement.directiveSize_eq_error_iff hbytes, ?_, ?_, fun lit hlit => ?_⟩
    · rw [Statement.directiveSize_of_bytes hbytes, ← Statement.exists_byteLiteral_iff]
      simp [map_eq_ok_iff]
    · rw [Statement.directiveCode_of_bytes hbytes, ← Statement.exists_byteLiteral_iff]
      simp [map_eq_ok_iff]
    · have hread : s.byteLiteral = .ok lit :=
        Statement.byteLiteral_eq_ok_iff.mpr (ByteLiteral.parse_eq_ok_iff.mpr hlit)
      obtain ⟨bytes, hgives, hwrites, hsize⟩ := ByteLiteral.writesBytes_code hlit
      refine ⟨lit.code, bytes, ?_, ?_, hgives, hwrites⟩
      · rw [Statement.directiveCode_of_bytes hbytes, hread]
        rfl
      · rw [Statement.directiveSize_of_bytes hbytes, hread, ← hsize]
        rfl
  · have hword : s.directive? = some .word := Directive.ofOpcode?_eq_some_iff.mpr hs
    rw [Statement.directiveCode_of_word hword]
    refine ⟨?_, fun v hv hlow hhigh => ?_⟩
    · rw [← Statement.exists_wordValue_iff]
      simp [map_eq_ok_iff]
    · have hread : s.wordValue = .ok v := by
        refine Statement.wordValue_eq_ok_iff.mpr ⟨?_, hlow, hhigh⟩
        rw [int32OfDigits?, intOfDigits?_ten_eq_some_iff.mpr hv]
        simp only [Option.filter_some, Bool.and_eq_true, decide_eq_true_eq]
        rw [if_pos (by omega)]
      rw [hread]
      exact ⟨_, rfl, Statement.writesNumber_wordCode v⟩

/-- A quote may stand in a literal, opcodes and letters may be in either case, and a program can be
laid out that has a word which cannot be encoded. -/
theorem directive_data_exact_quoted :
    (∃ code bytes, (⟨4, "A", "bYtE", "c'it's'"⟩ : Statement).directiveCode = .ok code ∧
      (⟨4, "A", "bYtE", "c'it's'"⟩ : Statement).directiveSize = .ok bytes.length ∧
      bytes = ("it's" : Text) ∧ code.WritesBytes bytes) ∧
    (∃ e, (⟨5, "B", "BYTE", "X'0'"⟩ : Statement).directiveSize = .error e ∧
      (⟨5, "B", "BYTE", "X'0'"⟩ : Statement).directiveCode = .error e) ∧
    (∃ code, (⟨6, "C", "WORD", "-1"⟩ : Statement).directiveCode = .ok code ∧ code.length = 6 ∧
      hexadecimalValue code = (16777215 : Int)) ∧
    ∃ l e, Layout.ofSource true (.parse "LDA 00") "P START 0\nA BYTE X'4a4B'\nB WORD 16777216" =
        .ok l ∧
      Assembly.ofLayout ⟨.dump, true, true⟩ (.parse "LDA 00") l = .error (.badOperand e) ∧
      e.role ≠ .byteLiteral := by
  obtain ⟨hbytes, hword, hlayout⟩ := directive_data_exact
  have hliteral : (ByteLiteral.characters "it's").WrittenAs "c'it's'" :=
    ⟨by decide, 0x63, Or.inr rfl, by decide⟩
  have hsize : (⟨5, "B", "BYTE", "X'0'"⟩ : Statement).directiveSize =
      .error (.badOperand ⟨5, "B BYTE X'0'", .byteLiteral, .literal, "X'0'", .digitCount⟩) := by
    decide +kernel
  have hrun : (Layout.ofSource true (.parse "LDA 00")
      "P START 0\nA BYTE X'4a4B'\nB WORD 16777216").toOption.map (fun l =>
        (Assembly.ofLayout ⟨.dump, true, true⟩ (.parse "LDA 00") l).map fun _ => ()) =
      some (.error (.badOperand
        ⟨3, "B WORD 16777216", .wordValue, .decimal, "16777216", .wordTooWide⟩)) := by
    decide +kernel
  obtain ⟨code, bytes, hcode, hlength, hgives, hwrites⟩ :=
    (hbytes ⟨4, "A", "bYtE", "c'it's'"⟩ (by decide +kernel)).2.2.2 _ hliteral
  obtain ⟨code', hcode', hsix, -, hvalue⟩ := (hword ⟨6, "C", "WORD", "-1"⟩ (by decide +kernel)).2
    (-1) ⟨"1", by decide +kernel, Or.inr ⟨rfl, by decide⟩⟩ (by decide) (by decide)
  obtain ⟨l, hl, hfails⟩ := exists_ok_of_toOption hrun
  have herror := map_eq_error_iff.mp hfails
  refine ⟨⟨code, bytes, hcode, hlength, hgives, hwrites⟩, ⟨_, hsize, ?_⟩,
    ⟨code', hcode', hsix, hvalue⟩, l, _, hl, herror, hlayout _ _ _ _ _ _ hl herror⟩
  exact ((hbytes ⟨5, "B", "BYTE", "X'0'"⟩ (by decide +kernel)).1 _).mp hsize

end Sic
