import Sic.Assembly
import Sic.Proofs.Cells
import Sic.Proofs.Layout
import Sic.Proofs.OpcodeTable
import Sic.Proofs.Operand

/-!
# Object code and storage

A listing has an address and a size from the layout and object code from the encoding, and nothing
compares the two.  Here they are compared.

* `directiveCode_cases`: the data of a directive fills the storage the directive takes.
* `length_instructionCode`: the code of an instruction fills a word exactly if the target address is
  small enough for the digits that the mnemonic's code leaves.
* `Assembly.assemble_eq_ok_iff` says what assembling does, and `Assembly.IsAssembled` is the
  invariant of an assembly: a layout, its object code and its records.
* `Placed.length_code`: the object code of a statement never takes less than its storage, and takes
  more exactly if it is an instruction whose target does not fit (`Placed.TargetFits`).
-/

set_option autoImplicit false

namespace Sic

open Text

/-! ## The data of directives -/

/-- The code of a literal writes the bytes that the literal gives. -/
theorem ByteLiteral.code_of_parse {t : Text} {lit : ByteLiteral} (h : parse t = .ok lit) :
    IsHexBytes lit.code ∧ lit.code.length = 2 * lit.size := by
  have hwritten := parse_eq_ok_iff.mp h
  cases lit with
  | characters value => exact ⟨isHexBytes_toHex _, length_toHex _⟩
  | hexadecimal digits =>
    obtain ⟨-, ⟨hdigits, heven⟩, -⟩ := hwritten
    refine ⟨⟨List.all_eq_true.mpr fun d hd => ?_, ?_⟩, ?_⟩
    · obtain ⟨c, hc, rfl⟩ := List.mem_map.mp hd
      exact isHexDigit_upper (List.all_eq_true.mp hdigits c hc)
    · rwa [code, List.length_map]
    · rw [code, size, List.length_map]
      omega

namespace Statement

/-- The data of a word is three bytes. -/
theorem wordCode_whole (n : Int) :
    IsHexBytes (hex 6 (n % 16777216)) ∧ (hex 6 (n % 16777216)).length = 2 * wordSize := by
  have hnonneg : 0 ≤ n % 16777216 := Int.emod_nonneg n (by decide)
  obtain ⟨k, hk⟩ := Int.eq_ofNat_of_zero_le hnonneg
  have hlength : (hex 6 (n % 16777216)).length = 6 := by
    rw [hk]
    exact length_hex_of_lt (by decide) (by omega)
  refine ⟨⟨List.all_eq_true.mpr fun b hb => isHexDigit_of_mem_hex hnonneg hb, ?_⟩, hlength⟩
  rw [hlength]

/-- **A directive has no data, or its data fills the storage the directive takes.** -/
theorem directiveCode_cases {s : Statement} {code : Text} (h : s.directiveCode = .ok code) :
    code = [] ∨
      IsHexBytes code ∧ ∃ size : Nat, s.directiveSize = .ok size ∧ code.length = 2 * size := by
  rw [directiveCode] at h
  split at h
  · rename_i hdirective
    right
    cases hvalue : s.wordValue with
    | error e =>
      rw [hvalue] at h
      cases h
    | ok n =>
      rw [hvalue] at h
      cases h
      obtain ⟨hwhole, hlength⟩ := wordCode_whole n
      exact ⟨hwhole, wordSize, by rw [directiveSize, hdirective], hlength⟩
  · rename_i hdirective
    right
    cases hliteral : s.byteLiteral with
    | error e =>
      rw [hliteral] at h
      cases h
    | ok lit =>
      rw [hliteral] at h
      cases h
      obtain ⟨hwhole, hlength⟩ := ByteLiteral.code_of_parse (byteLiteral_eq_ok_iff.mp hliteral)
      refine ⟨hwhole, lit.size, ?_, hlength⟩
      rw [directiveSize, hdirective, hliteral]
      rfl
  · exact Or.inl (Except.ok.inj h).symm

end Statement

/-! ## The code of instructions -/

theorem isHexBytes_evenDigits {code : Text} (h : code.all isHexDigit = true) :
    IsHexBytes (evenDigits code) := by
  refine ⟨?_, by rw [length_evenDigits]; omega⟩
  rw [evenDigits]
  split
  · exact h
  · rw [List.all_cons, h]
    rfl

theorem isHexBytes_instructionCode {op : Text} (hop : isHexNumber op = true) {a : Int}
    (ha : 0 ≤ a) : IsHexBytes (instructionCode op a) := by
  refine isHexBytes_evenDigits ?_
  rw [isHexNumber, Bool.and_eq_true] at hop
  rw [List.all_append, hop.2, Bool.true_and]
  exact List.all_eq_true.mpr fun _ hb => isHexDigit_of_mem_hex ha hb

/-- **The code of an instruction takes at least a word, and takes no more exactly if its target
address has no more digits than the code of the mnemonic leaves of six.** -/
theorem length_instructionCode {op : Text} (hpos : 0 < op.length) (hshort : op.length ≤ 2) {a : Int}
    (ha : 0 ≤ a) :
    2 * wordSize ≤ (instructionCode op a).length ∧
      ((instructionCode op a).length = 2 * wordSize ↔ a < 16 ^ (2 * wordSize - op.length)) := by
  obtain ⟨n, rfl⟩ := Int.eq_ofNat_of_zero_le ha
  have hdigits : (hexNat n).length ≤ 6 - op.length ↔ n < 16 ^ (6 - op.length) :=
    length_hexNat_le_iff (by omega)
  have hcast : (n : Int) < 16 ^ (6 - op.length) ↔ n < 16 ^ (6 - op.length) := by
    exact_mod_cast Iff.rfl
  rw [wordSize, hcast, ← hdigits, instructionCode, length_evenDigits, List.length_append,
    Address.text, length_hex_natCast]
  omega

/-! ## Object code of a line -/

/-- The address that an instruction is encoded with: the one its operand stands for, or zero if the
operand refers to nothing. -/
def Statement.EncodedWith (symbols : SymbolTable) (s : Statement) (a : Int) : Prop :=
  s.target symbols = .address a ∨ s.target symbols = .undefined ∧ a = 0

namespace Layout

/-- An operand stands for an address of the program, or for a number that an instruction can
hold. -/
theorem IsLaidOut.target_bounds {table : OpcodeTable} {l : Layout} (h : IsLaidOut table l)
    {s : Statement} {a : Int} (ha : s.target l.symbols = .address a) :
    0 ≤ a ∧ (a ≤ maxOperandAddress ∨ a ≤ l.program.start + l.program.length) := by
  rw [Statement.target] at ha
  split at ha
  · cases ha
    exact ⟨Int.le_refl 0, Or.inl (by decide)⟩
  · split at ha
    · rename_i x hx
      cases ha
      obtain ⟨hlow, hhigh⟩ := h.symbol_bounds hx
      exact ⟨Int.le_trans h.start_nonneg hlow, Or.inr hhigh⟩
    · -- Only a number is checked against the largest operand; a symbol is taken as it is.
      split at ha
      · split at ha
        · split at ha
          · rename_i hle
            cases ha
            exact ⟨Int.natCast_nonneg _, Or.inl (Int.ofNat_le.mpr hle)⟩
          · cases ha
        · cases ha
      · cases ha

theorem IsLaidOut.encoded_nonneg {table : OpcodeTable} {l : Layout} (h : IsLaidOut table l)
    {s : Statement} {a : Int} (ha : s.EncodedWith l.symbols a) : 0 ≤ a := by
  rcases ha with ha | ⟨-, rfl⟩
  · exact (h.target_bounds ha).1
  · exact Int.le_refl 0

/-- In a program whose addresses have at most four digits, so has every address that an instruction
is encoded with. -/
theorem IsLaidOut.encoded_le {table : OpcodeTable} {l : Layout} (h : IsLaidOut table l)
    (hsmall : l.program.start + l.program.length ≤ maxOperandAddress) {s : Statement} {a : Int}
    (ha : s.EncodedWith l.symbols a) : a ≤ maxOperandAddress := by
  rcases ha with ha | ⟨-, rfl⟩
  · rcases (h.target_bounds ha).2 with hle | hle
    · exact hle
    · exact Int.le_trans hle hsmall
  · decide

end Layout

namespace Placed

/-- The target address of an instruction has no more digits than the code of the mnemonic leaves of
a word.  Other statements have no target. -/
def TargetFits (table : OpcodeTable) (symbols : SymbolTable) (p : Placed) : Prop :=
  ∀ op a, table.lookup p.opcode = some op → p.target symbols = .address a →
    a < 16 ^ (2 * wordSize - op.length)

section TargetFits

variable {table : OpcodeTable} {symbols : SymbolTable} {p : Placed}

theorem targetFits_of_directive (h : table.lookup p.opcode = none) :
    p.TargetFits table symbols := by
  intro op a hop
  rw [h] at hop
  cases hop

/-- In terms of the address that the instruction is encoded with. -/
theorem targetFits_iff {op : Text} {a : Int} (hop : table.lookup p.opcode = some op)
    (ha : p.EncodedWith symbols a) :
    p.TargetFits table symbols ↔ a < 16 ^ (2 * wordSize - op.length) := by
  constructor
  · intro h
    rcases ha with ha | ⟨-, rfl⟩
    · exact h op a hop ha
    · exact Int.pow_pos (by decide)
  · intro hlt op' a' hop' ha'
    rw [hop] at hop'
    cases hop'
    rcases ha with ha | ⟨ha, -⟩
    · rw [ha] at ha'
      cases ha'
      exact hlt
    · rw [ha] at ha'
      cases ha'

end TargetFits

section Code

variable {reject : Bool} {table : OpcodeTable} {l : Layout} {p : Placed} {code : Text}

/-- What the object code of a statement is: the data of a directive, or the code of an
instruction. -/
theorem code_cases {symbols : SymbolTable} (h : p.code reject table symbols = .ok code) :
    (table.lookup p.opcode = none ∧ p.directiveCode = .ok code) ∨
      ∃ op a, table.lookup p.opcode = some op ∧ p.EncodedWith symbols a ∧
        code = instructionCode op a := by
  rw [Placed.code] at h
  split at h
  · rename_i hlookup
    exact Or.inl ⟨hlookup, h⟩
  · rename_i op hlookup
    right
    split at h
    · rename_i a ha
      exact ⟨op, a, hlookup, Or.inl ha, (Except.ok.inj h).symm⟩
    · cases h
    · rename_i hundefined
      split at h
      · cases h
      · exact ⟨op, 0, hlookup, Or.inr ⟨hundefined, rfl⟩, (Except.ok.inj h).symm⟩

theorem isHexBytes_code (htable : table.IsHexadecimal) (hl : l.IsLaidOut table)
    (h : p.code reject table l.symbols = .ok code) : IsHexBytes code := by
  rcases code_cases h with ⟨-, h⟩ | ⟨op, a, hlookup, ha, rfl⟩
  · rcases Statement.directiveCode_cases h with rfl | ⟨hhex, -⟩
    · exact ⟨rfl, rfl⟩
    · exact hhex
  · exact isHexBytes_instructionCode (htable _ _ hlookup) (hl.encoded_nonneg ha)

/-- A directive that is placed has the size that it takes, also the `START` that begins the
program. -/
theorem size_of_directive {size : Nat} (hsized : Layout.SizedBy table p)
    (hlookup : table.lookup p.opcode = none) (hsize : p.directiveSize = .ok size) :
    p.size = size := by
  rcases hsized with ⟨n, hn, hp⟩ | ⟨hstart, hp⟩
  · rw [Statement.size, OpcodeTable.contains, hlookup] at hn
    rw [hp, ← Except.ok.inj (hn.symm.trans hsize)]
  · have hdirective : p.directive? = some .start := by simpa [Statement.isStart] using hstart
    rw [Statement.directiveSize, hdirective] at hsize
    rw [hp, ← Except.ok.inj hsize]
    rfl

/-- An instruction that is placed takes a word. -/
theorem size_of_instruction (htable : table.IsRegular) {op : Text}
    (hsized : Layout.SizedBy table p) (hlookup : table.lookup p.opcode = some op) :
    p.size = wordSize := by
  rcases hsized with ⟨n, hn, hp⟩ | ⟨hstart, -⟩
  · rw [Statement.size, OpcodeTable.contains, hlookup] at hn
    rw [hp, ← Except.ok.inj hn]
  · rw [OpcodeTable.isStart_of_lookup htable.no_start hlookup] at hstart
    cases hstart

/-- **When object code fills the storage of its statement.**  It never takes less, and it takes
more exactly if it is the code of an instruction whose target does not fit. -/
theorem length_code (htable : table.IsRegular) (hl : l.IsLaidOut table) (hp : p ∈ l.placed)
    (h : p.code reject table l.symbols = .ok code) (hcode : code ≠ []) :
    2 * p.size ≤ code.length ∧
      ((code.length : Int) = 2 * p.size ↔ p.TargetFits table l.symbols) := by
  rcases code_cases h with ⟨hlookup, h⟩ | ⟨op, a, hlookup, ha, rfl⟩
  · rcases Statement.directiveCode_cases h with rfl | ⟨-, size, hsize, hlength⟩
    · exact absurd rfl hcode
    · have hequal : (code.length : Int) = 2 * p.size := by
        rw [size_of_directive (hl.sized p hp) hlookup hsize, hlength]
        omega
      exact ⟨Int.le_of_eq hequal.symm, iff_of_true hequal (targetFits_of_directive hlookup)⟩
  · obtain ⟨hle, hiff⟩ := length_instructionCode (htable.hexadecimal.length_pos hlookup)
      (htable.short _ _ hlookup) (hl.encoded_nonneg ha)
    rw [targetFits_iff hlookup ha, ← hiff,
      size_of_instruction htable (hl.sized p hp) hlookup]
    omega

end Code

end Placed

/-! ## Listings -/

namespace Layout

theorem untilFinish_isPrefix (placed : List Placed) : untilFinish placed <+: placed := by
  induction placed with
  | nil => exact List.prefix_rfl
  | cons p rest ih =>
    rw [untilFinish]
    split
    · exact ⟨rest, rfl⟩
    · exact (List.prefix_cons_inj p).mpr ih

/-- **What listing statements does**: each line is a statement with its object code. -/
theorem mapM_list_eq_ok_iff {reject : Bool} {table : OpcodeTable} {symbols : SymbolTable}
    {placed : List Placed} {lines : List Listed} :
    placed.mapM (Placed.list reject table symbols) = .ok lines ↔
      lines.map Listed.toPlaced = placed ∧
        ∀ x ∈ lines, x.toPlaced.code reject table symbols = .ok x.code := by
  constructor
  · intro h
    induction placed generalizing lines with
    | nil =>
      cases h
      exact ⟨rfl, fun _ hx => absurd hx List.not_mem_nil⟩
    | cons p placed ih =>
      rw [List.mapM_cons] at h
      cases hcode : p.code reject table symbols with
      | error e =>
        rw [Placed.list, hcode] at h
        cases h
      | ok code =>
        cases hrest : placed.mapM (Placed.list reject table symbols) with
        | error e =>
          rw [Placed.list, hcode, hrest] at h
          cases h
        | ok rest =>
          rw [Placed.list, hcode, hrest] at h
          cases h
          obtain ⟨hplaced, hcodes⟩ := ih hrest
          refine ⟨by rw [List.map_cons, hplaced], fun x hx => ?_⟩
          rcases List.mem_cons.mp hx with rfl | hx
          · exact hcode
          · exact hcodes x hx
  · rintro ⟨rfl, hcodes⟩
    induction lines with
    | nil => rfl
    | cons x lines ih =>
      rw [List.map_cons, List.mapM_cons, Placed.list, hcodes x List.mem_cons_self,
        ih fun y hy => hcodes y (List.mem_cons_of_mem _ hy)]
      rfl

end Layout

/-- **The invariant of an assembly.** -/
structure Assembly.IsAssembled (options : Options) (table : OpcodeTable) (a : Assembly) : Prop where
  laidOut : a.layout.IsLaidOut table
  encoded : a.listing.map Listed.toPlaced = a.layout.encoded
  code : ∀ x ∈ a.listing,
    x.toPlaced.code options.rejectUndefined table a.layout.symbols = .ok x.code
  records : a.records = options.emitter.emit a.program a.listing

namespace Assembly

/-- **What encoding a layout does.** -/
theorem ofLayout_eq_ok_iff {options : Options} {table : OpcodeTable} {l : Layout} {a : Assembly} :
    ofLayout options table l = .ok a ↔
      a.layout = l ∧ l.encode options.rejectUndefined table = .ok a.listing ∧
        a.records = options.emitter.emit l.program a.listing ∧
        a.undefined = l.undefinedReferences table := by
  constructor
  · intro h
    rw [ofLayout] at h
    split at h
    · cases h
    · rename_i hlisting
      cases h
      exact ⟨rfl, hlisting, rfl, rfl⟩
  · rintro ⟨rfl, hlisting, hrecords, hundefined⟩
    simp only [ofLayout, hlisting, ← hrecords, ← hundefined]

/-- **What assembling a source program does.** -/
theorem assemble_eq_ok_iff {options : Options} {table : OpcodeTable} {source : Text}
    {a : Assembly} :
    assemble options (some table) source = .ok a ↔
      source.isBlank = false ∧
        Layout.ofSource options.rejectDuplicates table source = .ok a.layout ∧
        a.layout.encode options.rejectUndefined table = .ok a.listing ∧
        a.records = options.emitter.emit a.program a.listing ∧
        a.undefined = a.layout.undefinedReferences table := by
  constructor
  · intro h
    simp only [assemble] at h
    split at h
    · cases h
    rename_i hblank
    split at h
    · cases h
    rename_i layout hlayout
    split at h
    · cases h
    rename_i assembly hassembly
    cases h
    obtain ⟨rfl, hrest⟩ := ofLayout_eq_ok_iff.mp hassembly
    exact ⟨Bool.eq_false_iff.mpr hblank, hlayout, hrest⟩
  · rintro ⟨hblank, hlayout, hrest⟩
    simp only [assemble, hblank, hlayout, ofLayout_eq_ok_iff.mpr ⟨rfl, hrest⟩]
    rfl

/-- A layout that can be encoded is assembled. -/
theorem isAssembled_ofLayout {options : Options} {table : OpcodeTable} {l : Layout} {a : Assembly}
    (hl : l.IsLaidOut table) (h : ofLayout options table l = .ok a) :
    a.IsAssembled options table := by
  obtain ⟨rfl, hlisting, hrecords, -⟩ := ofLayout_eq_ok_iff.mp h
  obtain ⟨hencoded, hcode⟩ := Layout.mapM_list_eq_ok_iff.mp hlisting
  exact ⟨hl, hencoded, hcode, hrecords⟩

/-- A source program that can be assembled is assembled. -/
theorem isAssembled_assemble {options : Options} {table : OpcodeTable} {source : Text}
    {a : Assembly} (h : assemble options (some table) source = .ok a) :
    a.IsAssembled options table := by
  obtain ⟨-, hlayout, hrest⟩ := assemble_eq_ok_iff.mp h
  exact isAssembled_ofLayout (Layout.isLaidOut_ofSource hlayout)
    (ofLayout_eq_ok_iff.mpr ⟨rfl, hrest⟩)

namespace IsAssembled

variable {options : Options} {table : OpcodeTable} {a : Assembly} {x : Listed}

theorem mem_placed (h : a.IsAssembled options table) (hx : x ∈ a.listing) :
    x.toPlaced ∈ a.layout.placed := by
  have hmem : x.toPlaced ∈ a.layout.encoded := h.encoded ▸ List.mem_map_of_mem hx
  exact (Layout.untilFinish_isPrefix _).subset hmem

theorem bounds (h : a.IsAssembled options table) (hx : x ∈ a.listing) :
    a.program.start ≤ x.address ∧ 0 ≤ x.size ∧
      x.address + x.size ≤ a.program.start + a.program.length :=
  h.laidOut.consecutive.bounds (h.mem_placed hx)

/-- The storage of lines does not overlap. -/
theorem pairwise (h : a.IsAssembled options table) :
    a.listing.Pairwise fun x y => x.address + x.size ≤ y.address := by
  have hplaced := h.laidOut.consecutive.pairwise.sublist
    (Layout.untilFinish_isPrefix a.layout.placed).sublist
  rwa [← Layout.encoded, ← h.encoded, List.pairwise_map] at hplaced

theorem isHexBytes (h : a.IsAssembled options table) (htable : table.IsHexadecimal)
    (hx : x ∈ a.listing) : IsHexBytes x.code :=
  Placed.isHexBytes_code htable h.laidOut (h.code x hx)

theorem length_code (h : a.IsAssembled options table) (htable : table.IsRegular)
    (hx : x ∈ a.listing) (hcode : x.code ≠ []) :
    2 * x.size ≤ x.code.length ∧
      ((x.code.length : Int) = 2 * x.size ↔ x.TargetFits table a.layout.symbols) :=
  Placed.length_code htable h.laidOut (h.mem_placed hx) (h.code x hx) hcode

/-- In a program whose addresses have at most four digits every target fits. -/
theorem targetFits (h : a.IsAssembled options table) (htable : table.IsRegular)
    (hsmall : a.program.start + a.program.length ≤ maxOperandAddress) (p : Placed) :
    p.TargetFits table a.layout.symbols := by
  intro op t hop ht
  have hle : t ≤ maxOperandAddress := h.laidOut.encoded_le hsmall (Or.inl ht)
  have hfour : (16 : Int) ^ 4 ≤ 16 ^ (2 * wordSize - op.length) := by
    have hshort := htable.short _ _ hop
    rw [wordSize]
    gcongr
    · decide
    · omega
  have hmax : (maxOperandAddress : Int) < 16 ^ 4 := by decide
  omega

end IsAssembled

/-- **Object code against storage.**  The object code of a line is bytes in hexadecimal, never fewer
of them than the layout has given the statement storage, and exactly as many if and only if the line
is no instruction with a target address of too many digits. -/
theorem codeBytes_eq_size_iff {options : Options} {table : OpcodeTable} (htable : table.IsRegular)
    {source : Text} {a : Assembly} (h : assemble options (some table) source = .ok a) {x : Listed}
    (hx : x ∈ a.listing) (hcode : x.code ≠ []) :
    ∃ bytes, Text.ofHex x.code = .ok bytes ∧ x.size ≤ bytes.length ∧
      ((bytes.length : Int) = x.size ↔ x.TargetFits table a.layout.symbols) := by
  have ha := isAssembled_assemble h
  have hhex := ha.isHexBytes htable.hexadecimal hx
  obtain ⟨hle, hiff⟩ := ha.length_code htable hx hcode
  have heven := hhex.2
  refine ⟨pairs x.code, ofHex_of_isHexBytes hhex, ?_, ?_⟩
  · rw [length_pairs]
    omega
  · rw [length_pairs, ← hiff]
    omega

/-- Behind the first 64 KiB an instruction that refers to itself has code of four bytes in storage
of three, and one that refers to a low address has code of three. -/
theorem codeBytes_eq_size_iff_far :
    ∃ a x y, assemble ⟨.object .usual, true, true⟩ (some (OpcodeTable.parse "LDA 00"))
        "P START 10000\nA LDA A\n- LDA 5\n" = .ok a ∧ x ∈ a.listing ∧ y ∈ a.listing ∧
      x.code = ("00010000" : Text) ∧ x.size = 3 ∧ y.code = ("000005" : Text) ∧ y.size = 3 ∧
      ¬ x.TargetFits (OpcodeTable.parse "LDA 00") a.layout.symbols ∧
      y.TargetFits (OpcodeTable.parse "LDA 00") a.layout.symbols := by
  have hregular : (OpcodeTable.parse "LDA 00").IsRegular :=
    OpcodeTable.isRegular_parse (by decide +kernel)
  have hrun : (assemble ⟨.object .usual, true, true⟩ (some (OpcodeTable.parse "LDA 00"))
      "P START 10000\nA LDA A\n- LDA 5\n").toOption.map listing =
      some [⟨⟨⟨1, "P", "START", "10000"⟩, 65536, 0⟩, []⟩,
        ⟨⟨⟨2, "A", "LDA", "A"⟩, 65536, 3⟩, "00010000"⟩,
        ⟨⟨⟨3, "-", "LDA", "5"⟩, 65539, 3⟩, "000005"⟩] := by
    decide +kernel
  obtain ⟨a, ha, hlisting⟩ := exists_ok_of_toOption hrun
  have hx : ⟨⟨⟨2, "A", "LDA", "A"⟩, 65536, 3⟩, "00010000"⟩ ∈ a.listing := by simp [hlisting]
  have hy : ⟨⟨⟨3, "-", "LDA", "5"⟩, 65539, 3⟩, "000005"⟩ ∈ a.listing := by simp [hlisting]
  obtain ⟨bytes, hbytes, -, hfits⟩ := codeBytes_eq_size_iff hregular ha hx (by decide)
  obtain ⟨bytes', hbytes', -, hfits'⟩ := codeBytes_eq_size_iff hregular ha hy (by decide)
  refine ⟨a, _, _, ha, hx, hy, rfl, rfl, rfl, rfl, ?_, ?_⟩
  · cases hbytes
    exact mt hfits.mpr (by decide)
  · cases hbytes'
    exact hfits'.mp (by decide)

end Assembly

end Sic
