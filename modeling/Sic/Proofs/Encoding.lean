import Sic.Proofs.Symbols

/-!
# When a layout can be encoded

Encoding goes through the placed statements up to the one that ends the program, whatever layout
they come from.  With references to nothing passed over, only three kinds of statement stop it: an
instruction whose operand is a number too large for an address, and a word or a literal that cannot
be read.

* `Directive.ofOpcode?_eq_some_iff` says which opcodes name a directive.
* `target_eq_outOfRange_iff` and `target_eq_undefined_iff` tell a number that is no address from an
  operand that refers to nothing.
* `Placed.Faulty` gives the three kinds, in terms of the text of the operand, and
  `exists_faulty_of_code` and `exists_code_of_faulty` say that these statements are the ones without
  code.
* `untilFinish_eq_self` and `untilFinish_append` say which statements are encoded, and
  `undefinedReferences_eq` which of them refer to nothing.

An instruction comes before a directive of the same name, so a word or a literal in the place of an
instruction's operand is never looked at, and the statement that ends the program may itself be an
instruction.
-/

set_option autoImplicit false

namespace Sic

open Text

/-! ## Directives -/

/-- The keyword of a directive. -/
def Directive.keyword : Directive → Text
  | .start => "START"
  | .finish => "END"
  | .word => "WORD"
  | .bytes => "BYTE"
  | .reserveWords => "RESW"
  | .reserveBytes => "RESB"

/-- **Which opcode names a directive**: one whose upper case is the keyword. -/
theorem Directive.ofOpcode?_eq_some_iff {opcode : Text} {d : Directive} :
    Directive.ofOpcode? opcode = some d ↔ upperAscii opcode = d.keyword := by
  rw [Directive.ofOpcode?]
  generalize upperAscii opcode = keyword
  constructor
  · intro h
    split_ifs at h <;> cases h <;> assumption
  · rintro rfl
    cases d <;> rfl

theorem Statement.isFinish_iff {s : Statement} :
    s.isFinish = true ↔ upperAscii s.opcode = "END" := by
  rw [Statement.isFinish, decide_eq_true_eq]
  exact Directive.ofOpcode?_eq_some_iff

/-! ## What an operand stands for -/

namespace Statement

variable {symbols : SymbolTable} {s : Statement}

theorem target_of_foreign (habsent : s.operand ≠ absent)
    (hlookup : symbols.lookup s.operand = none) :
    s.target symbols =
      if IsDecimal s.operand then
        if decimalValue s.operand ≤ maxOperandAddress then .address (decimalValue s.operand)
        else .outOfRange
      else .undefined := by
  split_ifs with hdecimal hle
  · rw [target_of_number hlookup (natOfDigits?_ten_eq_some_iff.mpr ⟨hdecimal, rfl⟩), if_pos hle]
  · rw [target_of_number hlookup (natOfDigits?_ten_eq_some_iff.mpr ⟨hdecimal, rfl⟩), if_neg hle]
  · exact target_of_neither habsent hlookup (natOfDigits?_ten_eq_none_iff.mpr hdecimal)

/-- **Which operand is a number that is no address.** -/
theorem target_eq_outOfRange_iff :
    s.target symbols = .outOfRange ↔
      s.operand ≠ absent ∧ symbols.lookup s.operand = none ∧ IsDecimal s.operand ∧
        maxOperandAddress < decimalValue s.operand := by
  by_cases habsent : s.operand = absent
  · simp [target_of_absent habsent, habsent]
  cases hlookup : symbols.lookup s.operand with
  | some a => simp [target_of_lookup habsent hlookup]
  | none =>
    rw [target_of_foreign habsent hlookup]
    split_ifs <;> simp_all

/-- **Which operand refers to nothing.** -/
theorem target_eq_undefined_iff :
    s.target symbols = .undefined ↔
      s.operand ≠ absent ∧ symbols.lookup s.operand = none ∧ ¬ IsDecimal s.operand := by
  by_cases habsent : s.operand = absent
  · simp [target_of_absent habsent, habsent]
  cases hlookup : symbols.lookup s.operand with
  | some a => simp [target_of_lookup habsent hlookup]
  | none =>
    rw [target_of_foreign habsent hlookup]
    split_ifs <;> simp_all

end Statement

/-! ## Statements without code -/

namespace Placed

/-- A statement that has no code, with what its operand was to be read as: an instruction whose
operand is no symbol but a number that is no address, and a directive whose operand does not write
an integer of a word or a literal. -/
inductive Faulty (table : OpcodeTable) (symbols : SymbolTable) (p : Placed) :
    OperandRole → OperandForm → Prop where
  | address (hop : table.contains p.opcode = true) (hne : p.operand ≠ Statement.absent)
      (hlookup : symbols.lookup p.operand = none) (hdecimal : IsDecimal p.operand)
      (hlarge : 0xFFFF < decimalValue p.operand) : Faulty table symbols p .address .decimal
  | word (hop : table.contains p.opcode = false) (hword : upperAscii p.opcode = "WORD")
      (hvalue : ¬ ∃ v, WritesInteger p.operand v ∧ -8388608 ≤ v ∧ v ≤ 16777215) :
      Faulty table symbols p .wordValue .decimal
  | literal (hop : table.contains p.opcode = false) (hbytes : upperAscii p.opcode = "BYTE")
      (hliteral : ¬ ∃ lit : ByteLiteral, lit.WrittenAs p.operand) :
      Faulty table symbols p .byteLiteral .literal

variable {table : OpcodeTable} {symbols : SymbolTable} {p : Placed}

/-- A statement without code is faulty, and the error is about its operand. -/
theorem exists_faulty_of_code {e : ProgramError} (h : p.code false table symbols = .error e) :
    ∃ role form, p.Faulty table symbols role form ∧ p.OperandError role form e := by
  rw [Placed.code] at h
  cases hop : table.lookup p.opcode with
  | none =>
    have hcontains : table.contains p.opcode = false := by simp [OpcodeTable.contains, hop]
    simp only [hop] at h
    rw [Statement.directiveCode] at h
    split at h
    · rename_i hword
      have herror := map_eq_error_iff.mp h
      refine ⟨_, _, .word hcontains (Directive.ofOpcode?_eq_some_iff.mp hword) fun hvalue => ?_,
        Statement.operandError_of_wordValue herror⟩
      obtain ⟨n, hn⟩ := Statement.exists_wordValue_iff.mpr hvalue
      exact absurd (herror.symm.trans hn) (by simp)
    · rename_i hbytes
      have herror := map_eq_error_iff.mp h
      refine ⟨_, _, .literal hcontains (Directive.ofOpcode?_eq_some_iff.mp hbytes)
        fun hliteral => ?_, Statement.operandError_of_byteLiteral herror⟩
      obtain ⟨lit, hlit⟩ := hliteral
      have hok := Statement.byteLiteral_eq_ok_iff.mpr (ByteLiteral.parse_eq_ok_iff.mpr hlit)
      exact absurd (herror.symm.trans hok) (by simp)
    · cases h
  | some op =>
    have hcontains : table.contains p.opcode = true := by simp [OpcodeTable.contains, hop]
    simp only [hop] at h
    split at h
    · cases h
    · rename_i htarget
      obtain ⟨hne, hlookup, hdecimal, hlarge⟩ := Statement.target_eq_outOfRange_iff.mp htarget
      cases h
      exact ⟨_, _, .address hcontains hne hlookup hdecimal hlarge, _, rfl⟩
    · cases h

/-- A faulty statement has no code. -/
theorem exists_code_of_faulty {role : OperandRole} {form : OperandForm}
    (h : p.Faulty table symbols role form) : ∃ e, p.code false table symbols = .error e := by
  cases hcode : p.code false table symbols with
  | error e => exact ⟨e, rfl⟩
  | ok code =>
    exfalso
    cases h with
    | address hop hne hlookup hdecimal hlarge =>
      have htarget := Statement.target_eq_outOfRange_iff.mpr ⟨hne, hlookup, hdecimal, hlarge⟩
      obtain ⟨op, hop⟩ := Option.isSome_iff_exists.mp hop
      simp [Placed.code, hop, htarget] at hcode
    | word hop hword hvalue =>
      have hop : table.lookup p.opcode = none := by simpa [OpcodeTable.contains] using hop
      have hword : p.directive? = some .word := Directive.ofOpcode?_eq_some_iff.mpr hword
      simp only [Placed.code, hop, Statement.directiveCode, hword] at hcode
      obtain ⟨n, hn, -⟩ := map_eq_ok_iff.mp hcode
      exact hvalue (Statement.exists_wordValue_iff.mp ⟨n, hn⟩)
    | literal hop hbytes hliteral =>
      have hop : table.lookup p.opcode = none := by simpa [OpcodeTable.contains] using hop
      have hbytes : p.directive? = some .bytes := Directive.ofOpcode?_eq_some_iff.mpr hbytes
      simp only [Placed.code, hop, Statement.directiveCode, hbytes] at hcode
      obtain ⟨lit, hlit, -⟩ := map_eq_ok_iff.mp hcode
      exact hliteral ⟨lit, ByteLiteral.parse_eq_ok_iff.mp (Statement.byteLiteral_eq_ok_iff.mp hlit)⟩

theorem list_eq_error_iff {reject : Bool} {e : ProgramError} :
    p.list reject table symbols = .error e ↔ p.code reject table symbols = .error e :=
  map_eq_error_iff

/-- A statement has code exactly if it is not faulty. -/
theorem exists_list_iff :
    (∃ x, p.list false table symbols = .ok x) ↔
      ∀ role form, ¬ p.Faulty table symbols role form := by
  constructor
  · rintro ⟨x, hx⟩ role form hfaulty
    obtain ⟨e, he⟩ := exists_code_of_faulty hfaulty
    exact absurd (hx.symm.trans (list_eq_error_iff.mpr he)) (by simp)
  · intro hnot
    cases hlist : p.list false table symbols with
    | error e =>
      obtain ⟨role, form, hfaulty, -⟩ := exists_faulty_of_code (list_eq_error_iff.mp hlist)
      exact absurd hfaulty (hnot role form)
    | ok x => exact ⟨x, rfl⟩

end Placed

/-! ## Statements that are encoded -/

namespace Layout

theorem untilFinish_eq_self {placed : List Placed}
    (h : ∀ p ∈ placed, upperAscii p.opcode ≠ "END") : untilFinish placed = placed := by
  induction placed with
  | nil => rfl
  | cons p placed ih =>
    obtain ⟨hp, hrest⟩ := List.forall_mem_cons.mp h
    simp [untilFinish, Statement.isFinish_iff, hp, ih hrest]

theorem untilFinish_append {before behind : List Placed} {p : Placed}
    (hbefore : ∀ q ∈ before, upperAscii q.opcode ≠ "END") (hp : upperAscii p.opcode = "END") :
    untilFinish (before ++ p :: behind) = before ++ [p] := by
  induction before with
  | nil => simp [untilFinish, Statement.isFinish_iff, hp]
  | cons q before ih =>
    obtain ⟨hq, hrest⟩ := List.forall_mem_cons.mp hbefore
    simp [untilFinish, Statement.isFinish_iff, hq, ih hrest]

/-- The references to nothing are those of the instructions whose operand refers to nothing. -/
theorem undefinedReferences_eq (table : OpcodeTable) (l : Layout) :
    l.undefinedReferences table =
      (l.encoded.filter fun p => table.contains p.opcode = true ∧ p.operand ≠ Statement.absent ∧
        l.symbols.lookup p.operand = none ∧ ¬ IsDecimal p.operand).map Placed.reference := by
  rw [undefinedReferences]
  induction l.encoded with
  | nil => rfl
  | cons p ps ih =>
    have hp : p.undefinedReference? table l.symbols =
        if table.contains p.opcode = true ∧ p.operand ≠ Statement.absent ∧
          l.symbols.lookup p.operand = none ∧ ¬ IsDecimal p.operand then some p.reference
        else none := by
      simp only [Placed.undefinedReference?, Bool.and_eq_true, beq_iff_eq,
        Statement.target_eq_undefined_iff]
    rw [List.filterMap_cons, List.filter_cons, ih, hp]
    simp only [decide_eq_true_eq]
    split_ifs <;> rfl

/-- **When encoding fails**: its error is that of the first statement without code. -/
theorem encode_eq_error_iff {table : OpcodeTable} {l : Layout} {e : ProgramError} :
    l.encode false table = .error e ↔
      ∃ before p behind, l.encoded = before ++ p :: behind ∧
        (∀ q ∈ before, ∀ role form, ¬ q.Faulty table l.symbols role form) ∧
        p.code false table l.symbols = .error e := by
  simp only [encode, mapM_eq_error_iff, Placed.exists_list_iff, Placed.list_eq_error_iff]

theorem exists_encode_eq_error_iff {table : OpcodeTable} {l : Layout} :
    (∃ e, l.encode false table = .error e) ↔
      ∃ p ∈ l.encoded, ∃ role form, p.Faulty table l.symbols role form := by
  constructor
  · rintro ⟨e, he⟩
    obtain ⟨before, p, behind, hsplit, -, hcode⟩ := encode_eq_error_iff.mp he
    obtain ⟨role, form, hfaulty, -⟩ := Placed.exists_faulty_of_code hcode
    exact ⟨p, by simp [hsplit], role, form, hfaulty⟩
  · rintro ⟨p, hp, role, form, hfaulty⟩
    cases hlines : l.encode false table with
    | error e => exact ⟨e, rfl⟩
    | ok lines =>
      obtain ⟨hencoded, hcode⟩ := mapM_list_eq_ok_iff.mp hlines
      rw [← hencoded] at hp
      obtain ⟨x, hx, rfl⟩ := List.mem_map.mp hp
      obtain ⟨e, he⟩ := Placed.exists_code_of_faulty hfaulty
      exact absurd (he.symm.trans (hcode x hx)) (by simp)

end Layout

namespace Assembly

theorem ofLayout_eq_error_iff {options : Options} {table : OpcodeTable} {l : Layout}
    {e : ProgramError} :
    ofLayout options table l = .error e ↔ l.encode options.rejectUndefined table = .error e := by
  rw [ofLayout]
  split <;> simp [*]

/-- **What encoding lists and when it fails.**  Of any layout, the statements up to the first that
ends the program are encoded, or all if none does.  With references to nothing passed over, encoding
fails exactly if one of these is faulty, with the error of the first that is, about its operand.
Otherwise it lists these statements in order, and as references to nothing it has those of the
instructions among them whose operand is there, is no symbol and is not made of decimal digits. -/
theorem ofLayout_lenient (emitter : Emitter) (unique : Bool) (table : OpcodeTable) (l : Layout) :
    ((∀ p ∈ l.placed, upperAscii p.opcode ≠ "END") → l.encoded = l.placed) ∧
    (∀ before p behind, l.placed = before ++ p :: behind →
      (∀ q ∈ before, upperAscii q.opcode ≠ "END") → upperAscii p.opcode = "END" →
        l.encoded = before ++ [p]) ∧
    ((∃ e, ofLayout ⟨emitter, unique, false⟩ table l = .error e) ↔
      ∃ p ∈ l.encoded, ∃ role form, p.Faulty table l.symbols role form) ∧
    (∀ e, ofLayout ⟨emitter, unique, false⟩ table l = .error e ↔
      ∃ before p behind, l.encoded = before ++ p :: behind ∧
        (∀ q ∈ before, ∀ role form, ¬ q.Faulty table l.symbols role form) ∧
        p.code false table l.symbols = .error e ∧
        ∃ role form, p.Faulty table l.symbols role form ∧ p.OperandError role form e) ∧
    (∀ a, ofLayout ⟨emitter, unique, false⟩ table l = .ok a →
      a.listing.map Listed.toPlaced = l.encoded ∧
      a.undefined =
        (l.encoded.filter fun p => table.contains p.opcode = true ∧ p.operand ≠ Statement.absent ∧
          l.symbols.lookup p.operand = none ∧ ¬ IsDecimal p.operand).map Placed.reference) := by
  refine ⟨Layout.untilFinish_eq_self, fun before p behind hplaced hbefore hp => ?_, ?_, fun e => ?_,
    fun a ha => ?_⟩
  · rw [Layout.encoded, hplaced]
    exact Layout.untilFinish_append hbefore hp
  · simp only [ofLayout_eq_error_iff, Layout.exists_encode_eq_error_iff]
  · rw [ofLayout_eq_error_iff, Layout.encode_eq_error_iff]
    constructor
    · rintro ⟨before, p, behind, hsplit, hbefore, hcode⟩
      exact ⟨before, p, behind, hsplit, hbefore, hcode, Placed.exists_faulty_of_code hcode⟩
    · rintro ⟨before, p, behind, hsplit, hbefore, hcode, -⟩
      exact ⟨before, p, behind, hsplit, hbefore, hcode⟩
  · obtain ⟨rfl, hlisting, -, hundefined⟩ := ofLayout_eq_ok_iff.mp ha
    exact ⟨(Layout.mapM_list_eq_ok_iff.mp hlisting).1,
      hundefined.trans (Layout.undefinedReferences_eq table _)⟩

/-- A layout whose second statement ends the program though it may be an instruction too, with a
word behind it that cannot be read. -/
def stoppingLayout (operand : Text) : Layout :=
  ⟨⟨"P", 0, 9⟩, [⟨⟨1, "-", "LDA", "Q"⟩, 0, 3⟩, ⟨⟨2, "-", "end", operand⟩, 3, 3⟩,
    ⟨⟨3, "-", "WORD", "x"⟩, 6, 3⟩], .empty⟩

/-- The word behind the end is never read.  The end itself is encoded as an instruction, so that its
operand has to be an address, however many zeros it begins with. -/
theorem ofLayout_lenient_stopping :
    (∃ a, ofLayout ⟨.dump, true, false⟩ (.parse "LDA 00\nend 0C") (stoppingLayout "0065535") =
        .ok a ∧
      a.listing.map Listed.toPlaced =
        [⟨⟨1, "-", "LDA", "Q"⟩, 0, 3⟩, ⟨⟨2, "-", "end", "0065535"⟩, 3, 3⟩] ∧
      a.undefined = [⟨"Q", 1, 0⟩]) ∧
    ∃ e, ofLayout ⟨.dump, true, false⟩ (.parse "LDA 00\nend 0C") (stoppingLayout "0065536") =
      .error e := by
  have hrun : (ofLayout ⟨.dump, true, false⟩ (.parse "LDA 00\nend 0C")
      (stoppingLayout "0065535")).toOption.map (fun _ => ()) = some () := by
    decide +kernel
  obtain ⟨a, ha, -⟩ := exists_ok_of_toOption hrun
  obtain ⟨-, hprefix, -, -, hok⟩ := ofLayout_lenient .dump true (.parse "LDA 00\nend 0C")
    (stoppingLayout "0065535")
  obtain ⟨-, -, hfails, -⟩ := ofLayout_lenient .dump true (.parse "LDA 00\nend 0C")
    (stoppingLayout "0065536")
  have hencoded := hprefix [⟨⟨1, "-", "LDA", "Q"⟩, 0, 3⟩] ⟨⟨2, "-", "end", "0065535"⟩, 3, 3⟩
    [⟨⟨3, "-", "WORD", "x"⟩, 6, 3⟩] rfl (by decide +kernel) (by decide +kernel)
  obtain ⟨hlisting, hundefined⟩ := hok a ha
  refine ⟨⟨a, ha, hlisting.trans hencoded, ?_⟩, hfails.mpr ⟨⟨⟨2, "-", "end", "0065536"⟩, 3, 3⟩,
    by decide +kernel, _, _, .address ?_ ?_ ?_ ?_ ?_⟩⟩
  · rw [hundefined, hencoded]
    decide +kernel
  all_goals decide +kernel

end Assembly

end Sic
