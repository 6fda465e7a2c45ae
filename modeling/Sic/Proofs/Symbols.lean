import Mathlib.Data.List.Nodup
import Sic.Proofs.Listing

/-!
# Symbols and what operands stand for

The value of an operand depends on the whole program and not only on what stands before it: a symbol
may be defined behind its use, behind the statement that ends the program, and more than once.

* `exists_last_label` and `lookup_eq_none`: a label behind the `START` has the address of the last
  statement that carries it; nothing else is a symbol, also not the label of the `START` itself.
* `Statement.target_of_lookup`, `target_of_number` and `target_of_neither` say what an operand
  stands for: a symbol comes before a number, and a number before nothing.
* `line_ne_of_target`: the references of a program are told apart by their lines, so a line whose
  operand stands for something has none.
-/

set_option autoImplicit false

namespace Sic

open Text

/-! ## Symbols -/

namespace Layout

theorem definition?_eq_some_iff {placed : List Placed} {symbol : Text} {p : Placed} :
    definition? placed symbol = some p ↔
      symbol ≠ Statement.absent ∧ p.label = symbol ∧ ∃ before behind,
        placed = before ++ p :: behind ∧ ∀ q ∈ behind, q.label ≠ symbol := by
  rw [definition?, List.find?_eq_some_iff_append]
  simp only [Statement.isLabelled, Bool.and_eq_true, decide_eq_true_eq, Bool.not_eq_true',
    Bool.and_eq_false_iff, decide_eq_false_iff_not]
  constructor
  · rintro ⟨⟨hne, rfl⟩, behind, before, hreverse, hbehind⟩
    refine ⟨hne, rfl, before.reverse, behind.reverse, ?_, fun q hq => ?_⟩
    · rw [← List.reverse_reverse placed, hreverse]
      simp
    · rcases hbehind q (List.mem_reverse.mp hq) with h | h
      · exact fun heq => h (heq ▸ hne)
      · exact h
  · rintro ⟨hne, rfl, before, behind, rfl, hbehind⟩
    refine ⟨⟨hne, rfl⟩, behind.reverse, before.reverse, by simp, fun q hq => Or.inr ?_⟩
    exact hbehind q (List.mem_reverse.mp hq)

theorem definition?_eq_none_iff {placed : List Placed} {symbol : Text} :
    definition? placed symbol = none ↔
      symbol = Statement.absent ∨ ∀ p ∈ placed, p.label ≠ symbol := by
  rw [definition?, List.find?_eq_none]
  simp only [List.mem_reverse, Statement.isLabelled, Bool.and_eq_true, decide_eq_true_eq, not_and]
  constructor
  · intro h
    by_cases hne : symbol = Statement.absent
    · exact Or.inl hne
    · exact Or.inr fun p hp heq => h p hp (heq ▸ hne) heq
  · rintro (rfl | h) p hp hne
    · exact hne
    · exact h p hp

section Symbols

variable {unique : Bool} {table : OpcodeTable} {source : Text} {l : Layout} {symbol : Text}

/-- **A label is a symbol for the last statement that carries it.** -/
theorem exists_last_label (h : ofSource unique table source = .ok l)
    (hne : symbol ≠ Statement.absent) (hlabel : ∃ p ∈ l.placed.tail, p.label = symbol) :
    ∃ before p behind, l.placed.tail = before ++ p :: behind ∧ p.label = symbol ∧
      (∀ q ∈ behind, q.label ≠ symbol) ∧ l.symbols.lookup symbol = some p.address := by
  cases hp : definition? l.placed.tail symbol with
  | none =>
    obtain ⟨q, hq, hlabel⟩ := hlabel
    rcases definition?_eq_none_iff.mp hp with habsent | hnot
    · exact absurd habsent hne
    · exact absurd hlabel (hnot q hq)
  | some p =>
    obtain ⟨-, hlabel, before, behind, htail, hlast⟩ := definition?_eq_some_iff.mp hp
    refine ⟨before, p, behind, htail, hlabel, hlast, ?_⟩
    rw [lookup_ofSource h, hp, Option.map_some]

/-- What is no label behind the `START` is no symbol. -/
theorem lookup_eq_none (h : ofSource unique table source = .ok l)
    (hnot : ∀ p ∈ l.placed.tail, p.label ≠ symbol) : l.symbols.lookup symbol = none := by
  rw [lookup_ofSource h, definition?_eq_none_iff.mpr (Or.inr hnot), Option.map_none]

/-- The first placed statement is the `START` of the source program. -/
theorem isStart_of_placed_eq_cons (h : ofSource unique table source = .ok l) {first : Placed}
    {rest : List Placed} (hplaced : l.placed = first :: rest) : first.isStart = true := by
  have hhead : first.toStatement ∈ (body source).head? := by
    rw [← map_toStatement_ofSource h, hplaced]
    rfl
  exact isStart_of_mem_head?_body hhead

/-- Later statements of a layout stand on later lines. -/
theorem pairwise_line (h : ofSource unique table source = .ok l) :
    l.placed.Pairwise fun p q => p.line < q.line := by
  have hbody := (pairwise_line_ofSource source).sublist
    (List.dropWhile_sublist fun s => !s.isStart)
  rwa [← body, ← map_toStatement_ofSource h, List.pairwise_map] at hbody

/-- Placed statements are told apart by their lines. -/
theorem eq_of_line_eq (h : ofSource unique table source = .ok l) {p q : Placed}
    (hp : p ∈ l.placed) (hq : q ∈ l.placed) (hline : p.line = q.line) : p = q := by
  have hnodup : (l.placed.map fun p => p.line).Nodup := by
    rw [List.Nodup, List.pairwise_map]
    exact (pairwise_line h).imp fun hlt => Int.ne_of_lt hlt
  exact List.inj_on_of_nodup_map hnodup hp hq hline

end Symbols

end Layout

/-! ## Operands -/

namespace Statement

variable {symbols : SymbolTable} {s : Statement}

theorem target_of_absent (h : s.operand = absent) : s.target symbols = .address 0 := by
  rw [target, if_pos h]

theorem target_of_lookup {a : Int} (hne : s.operand ≠ absent)
    (h : symbols.lookup s.operand = some a) : s.target symbols = .address a := by
  rw [target, if_neg hne, h]

/-- A number stands for itself, if it is no symbol and small enough. -/
theorem target_of_number {n : Nat} (h : symbols.lookup s.operand = none)
    (hn : natOfDigits? 10 s.operand = some n) :
    s.target symbols = if n ≤ maxOperandAddress then .address n else .outOfRange := by
  have hdigits := isSome_natOfDigits?_ten s.operand
  rw [hn, Option.isSome_some] at hdigits
  have hne : s.operand ≠ absent := by
    intro heq
    rw [heq] at hn
    cases hn
  rw [target, if_neg hne, h]
  simp only [← hdigits, hn, if_true]

/-- An operand that is neither a symbol nor a number stands for nothing. -/
theorem target_of_neither (hne : s.operand ≠ absent) (h : symbols.lookup s.operand = none)
    (hn : natOfDigits? 10 s.operand = none) : s.target symbols = .undefined := by
  have hdigits := isSome_natOfDigits?_ten s.operand
  rw [hn, Option.isSome_none] at hdigits
  rw [target, if_neg hne, h]
  simp only [← hdigits, Bool.false_eq_true, if_false]

end Statement

/-! ## Instructions of a program -/

namespace Assembly

section Instruction

variable {options : Options} {table : OpcodeTable} {source : Text} {a : Assembly} {x : Listed}
  {op : Text}

theorem IsAssembled.exists_encodedWith (h : a.IsAssembled options table) (hx : x ∈ a.listing)
    (hop : table.lookup x.opcode = some op) :
    ∃ t, x.EncodedWith a.layout.symbols t ∧ x.code = evenDigits (op ++ hex 4 t) := by
  rcases Placed.code_cases (h.code x hx) with ⟨hnone, -⟩ | ⟨op', t, hop', ht, hcode⟩
  · rw [hop] at hnone
    cases hnone
  · rw [hop] at hop'
    cases hop'
    exact ⟨t, ht, hcode⟩

/-- An instruction is encoded with the address that its operand stands for. -/
theorem IsAssembled.code_of_target (h : a.IsAssembled options table) (hx : x ∈ a.listing)
    (hop : table.lookup x.opcode = some op) {t : Int}
    (ht : x.target a.layout.symbols = .address t) : x.code = evenDigits (op ++ hex 4 t) := by
  obtain ⟨t', ht', hcode⟩ := h.exists_encodedWith hx hop
  rcases ht' with ht' | ⟨ht', -⟩
  · rw [ht] at ht'
    cases ht'
    exact hcode
  · rw [ht] at ht'
    cases ht'

/-- An instruction whose operand is neither a symbol nor an address in range is encoded with address
zero. -/
theorem IsAssembled.code_of_nothing (h : a.IsAssembled options table) (hx : x ∈ a.listing)
    (hop : table.lookup x.opcode = some op) (hlookup : a.layout.symbols.lookup x.operand = none)
    (hnumber : ∀ n, natOfDigits? 10 x.operand = some n → maxOperandAddress < n) :
    x.code = evenDigits (op ++ hex 4 0) := by
  by_cases hne : x.operand = Statement.absent
  · exact h.code_of_target hx hop (Statement.target_of_absent hne)
  obtain ⟨t, ht, hcode⟩ := h.exists_encodedWith hx hop
  cases hn : natOfDigits? 10 x.operand with
  | some n =>
    -- A number too large for an operand has no code.
    have htarget := Statement.target_of_number hlookup hn
    rw [if_neg (Nat.not_le.mpr (hnumber n hn))] at htarget
    simp [Statement.EncodedWith, htarget] at ht
  | none =>
    have htarget := Statement.target_of_neither hne hlookup hn
    simp only [Statement.EncodedWith, htarget, reduceCtorEq, true_and, false_or] at ht
    rw [hcode, ht]

/-- A line whose operand stands for something is not among the references to nothing. -/
theorem line_ne_of_target (h : assemble options (some table) source = .ok a) (hx : x ∈ a.listing)
    (ht : x.target a.layout.symbols ≠ .undefined) : ∀ r ∈ a.undefined, r.line ≠ x.line := by
  obtain ⟨-, hlayout, -, -, hundefined⟩ := assemble_eq_ok_iff.mp h
  intro r hr hline
  rw [hundefined, Layout.undefinedReferences, List.mem_filterMap] at hr
  obtain ⟨p, hp, hr⟩ := hr
  rw [Placed.undefinedReference?] at hr
  split at hr
  · rename_i hundefined
    cases hr
    have heq : p = x.toPlaced := Layout.eq_of_line_eq hlayout
      ((Layout.untilFinish_isPrefix _).subset hp) ((isAssembled_assemble h).mem_placed hx) hline
    rw [Bool.and_eq_true, beq_iff_eq, heq] at hundefined
    exact ht hundefined.2
  · cases hr

end Instruction

/-- **What instructions are encoded with.**  In an assembled program, an instruction whose operand
is a label of a statement behind the `START`, wherever that statement stands, has the address of the
last such statement in its code, and is not among the references to nothing.  Otherwise a number in
range stands for itself, and any other operand, like an absent one, for address zero.  The label of
the `START` is no symbol unless a later statement carries it too. -/
theorem code_of_operand {options : Options} {table : OpcodeTable} {source : Text} {a : Assembly}
    (h : assemble options (some table) source = .ok a) {x : Listed} (hx : x ∈ a.listing) {op : Text}
    (hop : table.lookup x.opcode = some op) :
    (x.operand ≠ Statement.absent → (∃ p ∈ a.layout.placed.tail, p.label = x.operand) →
      (∃ before p behind, a.layout.placed.tail = before ++ p :: behind ∧ p.label = x.operand ∧
        (∀ q ∈ behind, q.label ≠ x.operand) ∧ x.code = evenDigits (op ++ hex 4 p.address)) ∧
      ∀ r ∈ a.undefined, r.line ≠ x.line) ∧
    (x.operand = Statement.absent → x.code = evenDigits (op ++ hex 4 0)) ∧
    ((∀ p ∈ a.layout.placed.tail, p.label ≠ x.operand) →
      (∀ n : Nat, natOfDigits? 10 x.operand = some n → n ≤ maxOperandAddress →
        x.code = evenDigits (op ++ hex 4 n)) ∧
      ((∀ n, natOfDigits? 10 x.operand = some n → maxOperandAddress < n) →
        x.code = evenDigits (op ++ hex 4 0))) ∧
    (∀ first rest, a.layout.placed = first :: rest → first.isStart = true ∧
      ((∀ p ∈ rest, p.label ≠ first.label) → a.layout.symbols.lookup first.label = none)) := by
  have ha := isAssembled_assemble h
  obtain ⟨-, hlayout, -⟩ := assemble_eq_ok_iff.mp h
  refine ⟨fun hne hlabel => ?_, fun habsent => ?_, fun hnot => ⟨fun n hn hle => ?_, ?_⟩,
    fun first rest hplaced => ⟨Layout.isStart_of_placed_eq_cons hlayout hplaced, fun hnot => ?_⟩⟩
  · obtain ⟨before, p, behind, htail, hp, hlast, hlookup⟩ :=
      Layout.exists_last_label hlayout hne hlabel
    have htarget := Statement.target_of_lookup hne hlookup
    refine ⟨⟨before, p, behind, htail, hp, hlast, ha.code_of_target hx hop htarget⟩, ?_⟩
    exact line_ne_of_target h hx (by simp [htarget])
  · exact ha.code_of_target hx hop (Statement.target_of_absent habsent)
  · have htarget := Statement.target_of_number (Layout.lookup_eq_none hlayout hnot) hn
    rw [if_pos hle] at htarget
    exact ha.code_of_target hx hop htarget
  · exact ha.code_of_nothing hx hop (Layout.lookup_eq_none hlayout hnot)
  · exact Layout.lookup_eq_none hlayout (by rwa [hplaced, List.tail_cons])

/-- A label defined again behind the end of the program, a label that is a number, and a reference
to the label of the `START`. -/
theorem code_of_operand_forward :
    ∃ a x y z, assemble ⟨.object .usual, false, false⟩ (some (OpcodeTable.parse "LDA 00"))
        "P START 1000\nA LDA B\nB LDA 12\n- LDA P\n12 RESB 1\n- END A\nB WORD 5\n" = .ok a ∧
      x ∈ a.listing ∧ y ∈ a.listing ∧ z ∈ a.listing ∧
      x.operand = ("B" : Text) ∧ x.code = ("00100A" : Text) ∧
      y.operand = ("12" : Text) ∧ y.code = ("001009" : Text) ∧
      (∀ r ∈ a.undefined, r.line ≠ x.line ∧ r.line ≠ y.line) ∧
      z.operand = a.program.name ∧ a.layout.symbols.lookup z.operand = none ∧
      z.code = ("000000" : Text) := by
  have hrun : (assemble ⟨.object .usual, false, false⟩ (some (OpcodeTable.parse "LDA 00"))
      "P START 1000\nA LDA B\nB LDA 12\n- LDA P\n12 RESB 1\n- END A\nB WORD 5\n").toOption.map
        (fun a => (a.program, a.layout.placed, a.listing)) =
      some (⟨"P", 0x1000, 13⟩,
        [⟨⟨1, "P", "START", "1000"⟩, 0x1000, 0⟩, ⟨⟨2, "A", "LDA", "B"⟩, 0x1000, 3⟩,
          ⟨⟨3, "B", "LDA", "12"⟩, 0x1003, 3⟩, ⟨⟨4, "-", "LDA", "P"⟩, 0x1006, 3⟩,
          ⟨⟨5, "12", "RESB", "1"⟩, 0x1009, 1⟩, ⟨⟨6, "-", "END", "A"⟩, 0x100A, 0⟩,
          ⟨⟨7, "B", "WORD", "5"⟩, 0x100A, 3⟩],
        [⟨⟨⟨1, "P", "START", "1000"⟩, 0x1000, 0⟩, []⟩,
          ⟨⟨⟨2, "A", "LDA", "B"⟩, 0x1000, 3⟩, "00100A"⟩,
          ⟨⟨⟨3, "B", "LDA", "12"⟩, 0x1003, 3⟩, "001009"⟩,
          ⟨⟨⟨4, "-", "LDA", "P"⟩, 0x1006, 3⟩, "000000"⟩, ⟨⟨⟨5, "12", "RESB", "1"⟩, 0x1009, 1⟩, []⟩,
          ⟨⟨⟨6, "-", "END", "A"⟩, 0x100A, 0⟩, []⟩]) := by
    decide +kernel
  obtain ⟨a, ha, hresult⟩ := exists_ok_of_toOption hrun
  obtain ⟨hprogram, hresult⟩ := Prod.mk.inj hresult
  obtain ⟨hplaced, hlisting⟩ := Prod.mk.inj hresult
  have hop : (OpcodeTable.parse "LDA 00").lookup "LDA" = some "00" := by decide +kernel
  have hx : ⟨⟨⟨2, "A", "LDA", "B"⟩, 0x1000, 3⟩, "00100A"⟩ ∈ a.listing := by simp [hlisting]
  have hy : ⟨⟨⟨3, "B", "LDA", "12"⟩, 0x1003, 3⟩, "001009"⟩ ∈ a.listing := by simp [hlisting]
  have hz : ⟨⟨⟨4, "-", "LDA", "P"⟩, 0x1006, 3⟩, "000000"⟩ ∈ a.listing := by simp [hlisting]
  obtain ⟨-, hxline⟩ := (code_of_operand ha hx hop).1 (by decide) (by rw [hplaced]; decide)
  obtain ⟨-, hyline⟩ := (code_of_operand ha hy hop).1 (by decide) (by rw [hplaced]; decide)
  obtain ⟨-, hname⟩ := (code_of_operand ha hz hop).2.2.2 _ _ hplaced
  refine ⟨a, _, _, _, ha, hx, hy, hz, rfl, rfl, rfl, rfl,
    fun r hr => ⟨hxline r hr, hyline r hr⟩, by rw [hprogram], hname (by decide), rfl⟩

end Assembly

end Sic
