import Sic.Proofs.Moved
import Sic.Proofs.OpcodeTable.Format
import Sic.Proofs.Packing.Moved

/-!
# Relocation

A program that starts at another address is the same program at other addresses.  The operand of its
`START` is the only place where a source program says an address, so two source programs that differ
only there lead to the same layout but for a distance (`exists_ofSource_moved`), and, if all
addresses have at most four digits, to object code of the same lengths (`length_code_moved`) and so
to text records that are cut alike (`exists_ofLayout_moved`).

Digits matter because an instruction holds the address of a symbol in as many digits as that has.
The `START` itself is encoded where the opcode table knows an instruction of that name, and then its
operand counts as an operand of that instruction; such tables are left out.
-/

set_option autoImplicit false

namespace Sic

open Address Text

/-- Source programs with the same statements but for the operand of the first `START`, which is the
address `a` in one program and `b` in the other. -/
def DifferInStart (a b : Int) (source source' : Text) : Prop :=
  ∃ (before : List Statement) (start : Statement) (operand : Text) (behind : List Statement),
    Statement.ofSource source = before ++ start :: behind ∧
    Statement.ofSource source' = before ++ { start with operand := operand } :: behind ∧
    (∀ s ∈ before, s.isStart = false) ∧ start.isStart = true ∧
    start.startAddress = .ok a ∧ Statement.startAddress { start with operand := operand } = .ok b

theorem DifferInStart.symm {a b : Int} {source source' : Text}
    (h : DifferInStart a b source source') : DifferInStart b a source' source := by
  obtain ⟨before, start, operand, behind, hsource, hsource', hbefore, hstart, ha, hb⟩ := h
  exact ⟨before, { start with operand := operand }, start.operand, behind, hsource', hsource,
    hbefore, hstart, hb, ha⟩

/-! ## Layout -/

namespace Layout

/-- A layout moved by `d`, but for the operand of its `START`. -/
structure IsMoved (d : Int) (l l' : Layout) : Prop where
  start : l'.program.start = l.program.start + d
  length : l'.program.length = l.program.length
  symbols : SymbolTable.IsMoved d l.symbols l'.symbols
  placed : ∃ p operand ps ps', p.isStart = true ∧ l.placed = p :: ps ∧
    l'.placed = { p.move d with operand := operand } :: ps' ∧
    ps'.map Placed.unnumbered = ps.map (fun p => (p.move d).unnumbered)

/-- **A program that starts at another address is laid out alike.** -/
theorem exists_ofSource_moved {unique : Bool} {table : OpcodeTable} {a b : Int}
    {source source' : Text} (h : DifferInStart a b source source') {l : Layout}
    (hl : ofSource unique table source = .ok l) :
    ∃ l', ofSource unique table source' = .ok l' ∧ l.program.start = a ∧ l.IsMoved (b - a) l' := by
  obtain ⟨before, start, operand, behind, hsource, hsource', hbefore, hstart, ha, hb⟩ := h
  rw [ofSource, body_of_ofSource hsource hbefore hstart] at hl
  obtain ⟨first, run, hfirst, hrun, rfl⟩ := ofStatements_cons_eq_ok_iff.mp hl
  cases ha.symm.trans hfirst
  obtain ⟨run', hrun', hplaced, hsymbols, hnext⟩ :=
    exists_place_moved rfl (SymbolTable.IsMoved.empty (d := b - a)) hrun
  have hba : a + (b - a) = b := by omega
  rw [hba] at hrun'
  refine ⟨⟨⟨start.label, b, run'.next - b⟩, ⟨{ start with operand := operand }, b, 0⟩ ::
    run'.placed, run'.symbols⟩, ?_, rfl, hba.symm, ?_, hsymbols,
    ⟨start, a, 0⟩, operand, run.placed, run'.placed, hstart, rfl, ?_, hplaced⟩
  · rw [ofSource, body_of_ofSource hsource' hbefore hstart]
    exact ofStatements_cons_eq_ok_iff.mpr ⟨b, run', hb, hrun', rfl⟩
  · show run'.next - b = run.next - a
    omega
  · rw [Placed.move, hba]

namespace IsMoved

variable {d : Int} {l l' : Layout}

/-- The statements of a moved layout are moved, and have their sizes, labels and opcodes. -/
theorem forall₂_placed (h : l.IsMoved d l') :
    List.Forall₂ (fun p p' : Placed => p'.size = p.size ∧ p'.label = p.label ∧
      p'.opcode = p.opcode ∧ p'.address = p.address + d) l.placed l'.placed := by
  obtain ⟨p, operand, ps, ps', -, hps, hps', hmap⟩ := h.placed
  rw [hps, hps']
  refine List.Forall₂.cons ⟨rfl, rfl, rfl, rfl⟩ ?_
  have hsame : List.Forall₂ (· = ·) (ps.map fun p => (p.move d).unnumbered)
      (ps'.map Placed.unnumbered) := by
    rw [List.forall₂_eq_eq_eq, hmap]
  rw [List.forall₂_map_left_iff, List.forall₂_map_right_iff] at hsame
  exact hsame.imp fun q q' hq => ⟨congrArg (fun p => p.size) hq.symm,
    congrArg (fun p => p.label) hq.symm, congrArg (fun p => p.opcode) hq.symm,
    congrArg (fun p => p.address) hq.symm⟩

end IsMoved

end Layout

/-! ## Object code -/

/-- The code of an instruction takes as much for one address of four digits as for another. -/
theorem length_instructionCode_of_le (op : Text) {a : Int} (ha : 0 ≤ a)
    (hle : a ≤ maxOperandAddress) :
    (instructionCode op a).length = 2 * ((op.length + 5) / 2) := by
  obtain ⟨n, rfl⟩ := Int.eq_ofNat_of_zero_le ha
  have hdigits : (Address.text n).length = 4 := length_hex_of_lt (by decide) (by
    rw [maxOperandAddress] at hle
    omega)
  rw [instructionCode, length_evenDigits, List.length_append, hdigits]

namespace Layout

variable {table : OpcodeTable} {l l' : Layout} {d : Int}

section Code

variable {reject : Bool} {p p' : Placed} {code code' : Text}

/-- **Object code has the same length in both of two small programs.** -/
theorem length_code_moved (hl : l.IsLaidOut table) (hl' : l'.IsLaidOut table)
    (hsmall : l.program.start + l.program.length ≤ maxOperandAddress)
    (hsmall' : l'.program.start + l'.program.length ≤ maxOperandAddress)
    (hopcode : p'.opcode = p.opcode) (hoperand : p'.operand = p.operand)
    (h : p.code reject table l.symbols = .ok code)
    (h' : p'.code reject table l'.symbols = .ok code') : code'.length = code.length := by
  obtain ⟨hnone, hcode⟩ | ⟨op, a, hop, ha, rfl⟩ := Placed.code_cases h
  · obtain ⟨-, hcode'⟩ | ⟨op, -, hop, -⟩ := Placed.code_cases h'
    · have hsame := (Statement.directiveCode_eq_ok_iff hopcode hoperand).mp hcode'
      rw [Except.ok.inj (hcode.symm.trans hsame)]
    · rw [hopcode, hnone] at hop
      cases hop
  · obtain ⟨hnone, -⟩ | ⟨op', a', hop', ha', rfl⟩ := Placed.code_cases h'
    · rw [hopcode, hop] at hnone
      cases hnone
    · rw [hopcode, hop] at hop'
      cases hop'
      rw [length_instructionCode_of_le op (hl.encoded_nonneg ha) (hl.encoded_le hsmall ha),
        length_instructionCode_of_le op (hl'.encoded_nonneg ha') (hl'.encoded_le hsmall' ha')]

/-- Object code ends not far behind a small program, if the table was read from a text, whose lines
leave no room for long codes. -/
theorem code_end_le (htable : table.IsRead) (hl : l.IsLaidOut table)
    (hsmall : l.program.start + l.program.length ≤ maxOperandAddress) (hp : p ∈ l.placed)
    (h : p.code reject table l.symbols = .ok code) :
    p.address + ((evenDigits code).length / 2 : Nat) ≤ 0x20000 := by
  obtain ⟨-, hsize, hend⟩ := hl.consecutive.bounds hp
  have hmax : maxOperandAddress = 0xFFFF := rfl
  rw [length_evenDigits]
  obtain ⟨hnone, hcode⟩ | ⟨op, a, hop, ha, rfl⟩ := Placed.code_cases h
  · rcases Statement.directiveCode_cases hcode with rfl | ⟨-, size, hdirective, hlength⟩
    · rw [List.length_nil]
      omega
    · have hfills := Placed.size_of_directive (hl.sized p hp) hnone hdirective
      omega
  · have hshort := (OpcodeTable.isEntry_of_lookup htable hop).short
    rw [OpcodeTable.lineLimit] at hshort
    rw [length_instructionCode_of_le op (hl.encoded_nonneg ha) (hl.encoded_le hsmall ha)]
    omega

end Code

section Encode

variable {reject : Bool}
  (htable : ∀ mnemonic code, table.lookup mnemonic = some code → upperAscii mnemonic ≠ "START")
include htable

/-- A `START` that is no instruction is listed without object code. -/
theorem encode_cons_eq_ok_iff {p : Placed} {ps : List Placed} (hplaced : l.placed = p :: ps)
    (hstart : p.isStart = true) {lines : List Listed} :
    l.encode reject table = .ok lines ↔
      ∃ rest, (untilFinish ps).mapM (Placed.list reject table l.symbols) = .ok rest ∧
        lines = ⟨p, []⟩ :: rest := by
  have hlookup : table.lookup p.opcode = none := by
    cases hlookup : table.lookup p.opcode with
    | none => rfl
    | some code =>
      rw [OpcodeTable.isStart_of_lookup htable hlookup] at hstart
      cases hstart
  have hdirective : p.directive? = some .start := by simpa [Statement.isStart] using hstart
  have hlist : p.list reject table l.symbols = .ok ⟨p, []⟩ := by
    rw [Placed.list, Placed.code, hlookup]
    simp only [Statement.directiveCode, hdirective]
    rfl
  have hencoded : l.encoded = p :: untilFinish ps := by
    rw [encoded, hplaced, untilFinish, Statement.isFinish, hdirective]
    rfl
  rw [encode, hencoded, List.mapM_cons, hlist]
  cases (untilFinish ps).mapM (Placed.list reject table l.symbols) with
  | error e => simp [bind, Except.bind]
  | ok rest => simp [bind, Except.bind, pure, Except.pure, eq_comm]

/-- **A moved program has a moved listing**, if the addresses of both have at most four digits. -/
theorem IsMoved.exists_encode (h : l.IsMoved d l') (hl : l.IsLaidOut table)
    (hl' : l'.IsLaidOut table)
    (hsmall : l.program.start + l.program.length ≤ maxOperandAddress)
    (hsmall' : l'.program.start + l'.program.length ≤ maxOperandAddress)
    {lines : List Listed} (hlines : l.encode reject table = .ok lines) :
    ∃ lines', l'.encode reject table = .ok lines' ∧
      List.Forall₂ (Listed.IsMoved d) lines lines' := by
  obtain ⟨p, operand, ps, ps', hstart, hps, hps', hmap⟩ := h.placed
  obtain ⟨rest, hrest, rfl⟩ := (encode_cons_eq_ok_iff htable hps hstart).mp hlines
  obtain ⟨rest', hrest', hmoved⟩ :=
    exists_listing_moved h.symbols (untilFinish_moved hmap) hrest
  have hrange {q : Placed} (hq : q ∈ l'.placed) : InRange q.address := by
    have hstart := hl'.start_nonneg
    obtain ⟨hlow, hsize, hhigh⟩ := hl'.consecutive.bounds hq
    rw [maxOperandAddress] at hsmall'
    exact ⟨by omega, by omega⟩
  refine ⟨⟨{ p.move d with operand := operand }, []⟩ :: rest',
    (encode_cons_eq_ok_iff htable hps' hstart).mpr ⟨rest', hrest', rfl⟩,
    List.Forall₂.cons ⟨?_, rfl, rfl⟩ ?_⟩
  · exact (offset_eq_add (hrange (hps' ▸ List.mem_cons_self))).symm
  · obtain ⟨-, hcode⟩ := mapM_list_eq_ok_iff.mp hrest
    obtain ⟨hplaced', hcode'⟩ := mapM_list_eq_ok_iff.mp hrest'
    have hmem' : ∀ x ∈ rest', x.toPlaced ∈ l'.placed := by
      intro x hx
      rw [hps']
      exact List.mem_cons_of_mem _
        ((untilFinish_isPrefix ps').subset (hplaced' ▸ List.mem_map_of_mem hx))
    have hlisted := (List.forall₂_and_left _ _).mpr ⟨hcode, List.Forall₂.flip
      ((List.forall₂_and_left _ _).mpr ⟨fun x hx => And.intro (hmem' x hx) (hcode' x hx),
        List.Forall₂.flip hmoved⟩)⟩
    refine hlisted.imp fun x x' hx => ?_
    obtain ⟨hx, ⟨hmem, hx'⟩, hsame, -⟩ := hx
    have haddress : x'.address = x.address + d := congrArg (fun q => q.address) hsame
    refine ⟨?_, congrArg (fun q => q.size) hsame, length_code_moved hl hl' hsmall hsmall'
      (congrArg (fun q => q.opcode) hsame) (congrArg (fun q => q.operand) hsame) hx hx'⟩
    rw [haddress]
    exact (offset_eq_add (haddress ▸ hrange hmem)).symm

end Encode

end Layout

/-! ## Records -/

namespace Assembly

variable {options : Options} {table : OpcodeTable} {packing : Packing} {d : Int} {l l' : Layout}
  {x x' : Assembly}

/-- The text records of a small program start in a small range of addresses. -/
theorem start_bounds_of_mem_texts (htable : table.IsRead)
    (hemitter : options.emitter = .object packing) (hx : x.IsAssembled options table)
    (hsmall : x.program.start + x.program.length ≤ maxOperandAddress) :
    ∀ r ∈ Record.texts x.records, 0 ≤ r.start ∧ r.start ≤ 0x20000 := by
  rw [hx.records, hemitter, texts_emit]
  refine Packing.start_bounds_of_mem_pack ⟨by decide, by decide⟩ ⟨by decide, by decide⟩
    fun y hy => ⟨?_, ?_⟩
  · exact Int.le_trans hx.laidOut.start_nonneg (hx.bounds hy).1
  · exact Layout.code_end_le htable hx.laidOut hsmall (hx.mem_placed hy) (hx.code y hy)

/-- Moving records from a small range by a start address leads to the sum. -/
theorem start_eq_add_of_isMoved {rs rs' : List TextRecord}
    (hbounds : ∀ r ∈ rs, 0 ≤ r.start ∧ r.start ≤ 0x20000)
    (hd : -2147483648 ≤ d ∧ d ≤ 2147483648) (h : List.Forall₂ (TextRecord.IsMoved d) rs rs') :
    List.Forall₂ (fun r r' : TextRecord => r'.start = r.start + d) rs rs' := by
  refine ((List.forall₂_and_left _ _).mpr ⟨hbounds, h⟩).imp fun r r' hr => ?_
  obtain ⟨⟨hlow, hhigh⟩, hmoved⟩ := hr
  rw [hmoved.start]
  exact offset_eq_add ⟨by omega, by omega⟩

/-- **A moved program is encoded alike**: its text records are moved, and cut alike. -/
theorem exists_ofLayout_moved
    (htable : ∀ mnemonic code, table.lookup mnemonic = some code → upperAscii mnemonic ≠ "START")
    (hemitter : options.emitter = .object packing) (h : l.IsMoved d l') (hl : l.IsLaidOut table)
    (hl' : l'.IsLaidOut table) (hsmall : l.program.start + l.program.length ≤ maxOperandAddress)
    (hsmall' : l'.program.start + l'.program.length ≤ maxOperandAddress)
    (hx : ofLayout options table l = .ok x) :
    ∃ x', ofLayout options table l' = .ok x' ∧
      List.Forall₂ (TextRecord.IsMoved d) (Record.texts x.records) (Record.texts x'.records) := by
  have hassembled := isAssembled_ofLayout hl hx
  obtain ⟨rfl, hlisting, hrecords, -⟩ := ofLayout_eq_ok_iff.mp hx
  obtain ⟨lines', hlines', hmoved⟩ := h.exists_encode htable hl hl' hsmall hsmall' hlisting
  refine ⟨⟨l', lines', options.emitter.emit l'.program lines', l'.undefinedReferences table⟩,
    ofLayout_eq_ok_iff.mpr ⟨rfl, hlines', rfl, rfl⟩, ?_⟩
  rw [hrecords, hemitter, texts_emit, texts_emit]
  refine Packing.pack_moved packing Option.Rel.none hmoved fun y hy => ?_
  obtain ⟨hlow, hsize, hhigh⟩ := hassembled.bounds hy
  have hstart := hl.start_nonneg
  rw [program] at hlow hhigh
  rw [maxOperandAddress] at hsmall
  exact ⟨by omega, by omega⟩

/-- **Relocation.**  Two source programs that differ only in the operand of the first `START`, which
is the address `a` in one and `b` in the other, are both laid out or neither of them.  The layouts
have the same length, the same symbols and the same statements with the same sizes, and all their
addresses differ by `b - a`.

If moreover both programs end at an address of at most four digits, and the opcode table has no
instruction of the name of the directive, then both are encoded as object programs or neither of
them.  The text records of one are those of the other, moved by `b - a`, with the same number of
codes of the same lengths.  For a table that was read from a text, moving does not lead around the
range of addresses. -/
theorem relocation {a b : Int} {source source' : Text} (h : DifferInStart a b source source')
    (options : Options) (table : OpcodeTable) :
    ((∃ l, Layout.ofSource options.rejectDuplicates table source = .ok l) ↔
      ∃ l', Layout.ofSource options.rejectDuplicates table source' = .ok l') ∧
    ∀ l l', Layout.ofSource options.rejectDuplicates table source = .ok l →
      Layout.ofSource options.rejectDuplicates table source' = .ok l' →
      l'.program.length = l.program.length ∧
      List.Forall₂ (fun p p' : Placed => p'.size = p.size ∧ p'.label = p.label ∧
        p'.opcode = p.opcode ∧ p'.address = p.address + (b - a)) l.placed l'.placed ∧
      (∀ symbol, l'.symbols.lookup symbol = (l.symbols.lookup symbol).map (· + (b - a))) ∧
      ∀ packing, options.emitter = .object packing →
        a + l.program.length ≤ 0xFFFF → b + l.program.length ≤ 0xFFFF →
        (∀ mnemonic code, table.lookup mnemonic = some code → upperAscii mnemonic ≠ "START") →
        ((∃ x, ofLayout options table l = .ok x) ↔ ∃ x', ofLayout options table l' = .ok x') ∧
        ∀ x x', ofLayout options table l = .ok x → ofLayout options table l' = .ok x' →
          List.Forall₂ (TextRecord.IsMoved (b - a)) (Record.texts x.records)
            (Record.texts x'.records) ∧
          ∀ tableText, table = .parse tableText →
            List.Forall₂ (fun r r' : TextRecord => r'.start = r.start + (b - a))
              (Record.texts x.records) (Record.texts x'.records) := by
  refine ⟨⟨?_, ?_⟩, fun l l' hl hl' => ?_⟩
  · rintro ⟨l, hl⟩
    obtain ⟨l', hl', -⟩ := Layout.exists_ofSource_moved h hl
    exact ⟨l', hl'⟩
  · rintro ⟨l', hl'⟩
    obtain ⟨l, hl, -⟩ := Layout.exists_ofSource_moved h.symm hl'
    exact ⟨l, hl⟩
  · obtain ⟨l₁, hl₁, ha, hmoved⟩ := Layout.exists_ofSource_moved h hl
    cases hl'.symm.trans hl₁
    obtain ⟨l₂, hl₂, hb, hback⟩ := Layout.exists_ofSource_moved h.symm hl'
    cases hl.symm.trans hl₂
    refine ⟨hmoved.length, hmoved.forall₂_placed, hmoved.symbols.lookup_eq, ?_⟩
    intro packing hemitter hsmall hsmall' htable
    rw [← hmoved.length, ← hb] at hsmall'
    rw [← ha] at hsmall
    have hlaid := Layout.isLaidOut_ofSource hl
    have hlaid' := Layout.isLaidOut_ofSource hl'
    refine ⟨⟨?_, ?_⟩, fun x x' hx hx' => ?_⟩
    · rintro ⟨x, hx⟩
      obtain ⟨x', hx', -⟩ :=
        exists_ofLayout_moved htable hemitter hmoved hlaid hlaid' hsmall hsmall' hx
      exact ⟨x', hx'⟩
    · rintro ⟨x', hx'⟩
      obtain ⟨x, hx, -⟩ :=
        exists_ofLayout_moved htable hemitter hback hlaid' hlaid hsmall' hsmall hx'
      exact ⟨x, hx⟩
    · obtain ⟨x₁, hx₁, htexts⟩ :=
        exists_ofLayout_moved htable hemitter hmoved hlaid hlaid' hsmall hsmall' hx
      cases hx'.symm.trans hx₁
      refine ⟨htexts, fun tableText htext => start_eq_add_of_isMoved ?_ ?_ htexts⟩
      · have hassembled := isAssembled_ofLayout hlaid hx
        obtain ⟨rfl, -⟩ := ofLayout_eq_ok_iff.mp hx
        exact start_bounds_of_mem_texts (htext ▸ .parse tableText) hemitter hassembled hsmall
      · have hnonneg := hlaid.start_nonneg
        have hnonneg' := hlaid'.start_nonneg
        have hlt := hlaid.start_lt
        have hlt' := hlaid'.start_lt
        omega

/-- A program with a symbol, storage between its statements and a code that is longer than a small
record. -/
def sourceAt (operand : Text) : Text :=
  "P START " ++ operand ++ "\nA LDA B\n- RESB 5\nB BYTE C'ABCDE'"

/-- From the first address to another one. -/
theorem relocation_of_zero :
    ∃ l l' x x', Layout.ofSource false (.parse "LDA 00") (sourceAt "0") = .ok l ∧
      Layout.ofSource false (.parse "LDA 00") (sourceAt "1000") = .ok l' ∧
      ofLayout ⟨.object (.ofSettings 4 true), false, false⟩ (.parse "LDA 00") l = .ok x ∧
      ofLayout ⟨.object (.ofSettings 4 true), false, false⟩ (.parse "LDA 00") l' = .ok x' ∧
      l'.symbols.lookup "B" = some 0x1008 ∧
      Record.texts x.records = [⟨0, ["000008"]⟩, ⟨8, ["41424344"]⟩, ⟨12, ["45"]⟩] ∧
      List.Forall₂ (fun r r' : TextRecord => r'.start = r.start + 0x1000)
        (Record.texts x.records) (Record.texts x'.records) := by
  have hdiffer : DifferInStart 0 0x1000 (sourceAt "0") (sourceAt "1000") :=
    ⟨[], ⟨1, "P", "START", "0"⟩, "1000",
      [⟨2, "A", "LDA", "B"⟩, ⟨3, "-", "RESB", "5"⟩, ⟨4, "B", "BYTE", "C'ABCDE'"⟩],
      by decide +kernel, by decide +kernel, fun _ hs => absurd hs List.not_mem_nil,
      by decide +kernel, Statement.startAddress_eq_ok_iff.mpr (by decide +kernel),
      Statement.startAddress_eq_ok_iff.mpr (by decide +kernel)⟩
  have hstart : ∀ mnemonic code, (OpcodeTable.parse "LDA 00").lookup mnemonic = some code →
      upperAscii mnemonic ≠ "START" :=
    (OpcodeTable.isRegular_parse (by decide +kernel)).no_start
  have hrun : (Layout.ofSource false (.parse "LDA 00") (sourceAt "0")).toOption.map (fun l =>
      (l.program.length, l.symbols.lookup "B",
        (ofLayout ⟨.object (.ofSettings 4 true), false, false⟩ (.parse "LDA 00") l).toOption.map
          fun x => Record.texts x.records)) =
      some (13, some 8, some [⟨0, ["000008"]⟩, ⟨8, ["41424344"]⟩, ⟨12, ["45"]⟩]) := by
    decide +kernel
  obtain ⟨l, hl, hresult⟩ := exists_ok_of_toOption hrun
  simp only [Prod.mk.injEq] at hresult
  obtain ⟨hlength, hsymbol, hencoded⟩ := hresult
  obtain ⟨x, hx, htexts⟩ := exists_ok_of_toOption hencoded
  obtain ⟨hlaid, hmoved⟩ := relocation hdiffer ⟨.object (.ofSettings 4 true), false, false⟩
    (.parse "LDA 00")
  obtain ⟨l', hl'⟩ := hlaid.mp ⟨l, hl⟩
  obtain ⟨-, -, hsymbols, hpass⟩ := hmoved l l' hl hl'
  obtain ⟨hsucceed, hrecords⟩ := hpass _ rfl (by omega) (by omega) hstart
  obtain ⟨x', hx'⟩ := hsucceed.mp ⟨x, hx⟩
  refine ⟨l, l', x, x', hl, hl', hx, hx', ?_, htexts, (hrecords x x' hx hx').2 _ rfl⟩
  rw [hsymbols, hsymbol]
  rfl

end Assembly

end Sic
