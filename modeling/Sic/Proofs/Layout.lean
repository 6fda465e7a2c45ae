import Sic.Layout
import Sic.Proofs.Operand
import Sic.Proofs.Text.Blank

/-!
# Laid-out programs

What laying out a program establishes, whatever the source and the opcode table.

* `Consecutive` says that statements stand one behind the other, and `Layout.IsLaidOut` is the
  invariant of a layout: it starts at a 31-bit address, its statements are consecutive and fill the
  program's length, each has the size that its statement takes, and every symbol is the label of a
  statement, bound to the address of that statement.
* `isLaidOut_ofSource`: a source program that can be laid out is laid out.
* `definition?` is the statement that a symbol has its address from, and `lookup_ofSource` says that
  the symbols of a layout are those that have one.

`place` is opened once, in `place_cons_eq_ok_iff`, and `ofStatements` in
`ofStatements_cons_eq_ok_iff`; each part of the invariant is an induction over the statements from
there.
-/

set_option autoImplicit false

namespace Sic

/-! ## Statements in a row -/

/-- Statements that stand one behind the other, from the first address to the second. -/
def Consecutive : Int → List Placed → Int → Prop
  | a, [], b => a = b
  | a, p :: ps, b => p.address = a ∧ 0 ≤ p.size ∧ Consecutive (a + p.size) ps b

namespace Consecutive

theorem le {a b : Int} {ps : List Placed} (h : Consecutive a ps b) : a ≤ b := by
  induction ps generalizing a with
  | nil => exact Int.le_of_eq h
  | cons p ps ih =>
    obtain ⟨-, hsize, hrest⟩ := h
    have := ih hrest
    omega

/-- Every statement lies between the two addresses. -/
theorem bounds {a b : Int} {ps : List Placed} (h : Consecutive a ps b) {p : Placed}
    (hp : p ∈ ps) : a ≤ p.address ∧ 0 ≤ p.size ∧ p.address + p.size ≤ b := by
  induction ps generalizing a with
  | nil => cases hp
  | cons q ps ih =>
    obtain ⟨haddress, hsize, hrest⟩ := h
    rcases List.mem_cons.mp hp with rfl | hp
    · have := hrest.le
      omega
    · have := ih hrest hp
      omega

/-- No statement begins before an earlier one ends. -/
theorem pairwise {a b : Int} {ps : List Placed} (h : Consecutive a ps b) :
    ps.Pairwise fun p q => p.address + p.size ≤ q.address := by
  induction ps generalizing a with
  | nil => exact List.Pairwise.nil
  | cons p ps ih =>
    obtain ⟨haddress, -, hrest⟩ := h
    refine List.pairwise_cons.mpr ⟨fun q hq => ?_, ih hrest⟩
    have := (hrest.bounds hq).1
    omega

end Consecutive

/-! ## Symbols -/

namespace SymbolTable

theorem lookup_empty (symbol : Text) : empty.lookup symbol = none := Std.TreeMap.getElem?_emptyc

theorem lookup_define (t : SymbolTable) (name symbol : Text) (a : Int) :
    (t.define name a).lookup symbol = if name = symbol then some a else t.lookup symbol := by
  rw [define, lookup, Std.TreeMap.getElem?_insert]
  by_cases h : name = symbol
  · rw [if_pos (Std.LawfulEqCmp.compare_eq_iff_eq.mpr h), if_pos h]
  · rw [if_neg (mt Std.LawfulEqCmp.compare_eq_iff_eq.mp h), if_neg h]
    rfl

/-- **What entering a statement's label does.** -/
theorem enter_eq_ok_iff {unique : Bool} {t u : SymbolTable} {s : Statement} {a : Int} :
    t.enter unique s a = .ok u ↔
      (s.isLabelled = false ∧ u = t) ∨
        (s.isLabelled = true ∧ (unique = true → t.lookup s.label = none) ∧
          u = t.define s.label a) := by
  unfold enter
  cases s.isLabelled with
  | false => simp [eq_comm]
  | true => cases unique <;> cases t.lookup s.label <;> simp [eq_comm]

/-- What the symbols are when a statement's label has been entered. -/
theorem lookup_enter {unique : Bool} {t t' : SymbolTable} {s : Statement} {a : Int}
    (h : t.enter unique s a = .ok t') (symbol : Text) :
    t'.lookup symbol =
      if s.isLabelled = true ∧ s.label = symbol then some a else t.lookup symbol := by
  obtain ⟨hlabel, rfl⟩ | ⟨hlabel, -, rfl⟩ := enter_eq_ok_iff.mp h
  · simp [hlabel]
  · simp [hlabel, lookup_define]

end SymbolTable

/-! ## Placing statements -/

namespace Layout

/-- The statement that a symbol has its address from: of those labelled with it, the last. -/
def definition? (placed : List Placed) (symbol : Text) : Option Placed :=
  placed.reverse.find? fun p => p.isLabelled && p.label = symbol

theorem definition?_cons (p : Placed) (ps : List Placed) (symbol : Text) :
    definition? (p :: ps) symbol = (definition? ps symbol).or
      (if p.isLabelled = true ∧ p.label = symbol then some p else none) := by
  rw [definition?, List.reverse_cons, List.find?_append, List.find?_singleton]
  simp [definition?]

theorem mem_of_definition? {placed : List Placed} {symbol : Text} {p : Placed}
    (h : definition? placed symbol = some p) :
    p ∈ placed ∧ p.isLabelled = true ∧ p.label = symbol := by
  have hmem := List.mem_of_find?_eq_some h
  have hlabel := List.find?_some h
  rw [Bool.and_eq_true, decide_eq_true_eq] at hlabel
  exact ⟨List.mem_reverse.mp hmem, hlabel⟩

section Place

variable {unique : Bool} {table : OpcodeTable} {a : Int} {symbols : SymbolTable}
  {statements : List Statement} {run : Run}

/-- **What placing a statement does.** -/
theorem place_cons_eq_ok_iff {s : Statement} :
    place unique table a symbols (s :: statements) = .ok run ↔
      ∃ (size : Nat) (symbols' : SymbolTable) (rest : Run),
        s.size table = .ok size ∧ symbols.enter unique s a = .ok symbols' ∧
        place unique table (a + size) symbols' statements = .ok rest ∧
        run = ⟨⟨s, a, size⟩ :: rest.placed, rest.symbols, rest.next⟩ := by
  constructor
  · intro h
    rw [place] at h
    split at h
    · cases h
    · rename_i size hsize
      split at h
      · cases h
      · rename_i symbols' hsymbols
        split at h
        · cases h
        · rename_i rest hrest
          exact ⟨size, symbols', rest, hsize, hsymbols, hrest, (Except.ok.inj h).symm⟩
  · rintro ⟨size, symbols', rest, hsize, hsymbols, hrest, rfl⟩
    simp only [place, hsize, hsymbols, hrest]

theorem consecutive_place (h : place unique table a symbols statements = .ok run) :
    Consecutive a run.placed run.next := by
  induction statements generalizing a symbols run with
  | nil =>
    cases h
    exact rfl
  | cons s statements ih =>
    obtain ⟨size, symbols', rest, -, -, hrest, rfl⟩ := place_cons_eq_ok_iff.mp h
    exact ⟨rfl, Int.natCast_nonneg size, ih hrest⟩

/-- Each placed statement has the size that it takes. -/
theorem size_of_mem_place (h : place unique table a symbols statements = .ok run) :
    ∀ p ∈ run.placed, ∃ size : Nat, p.toStatement.size table = .ok size ∧ p.size = size := by
  induction statements generalizing a symbols run with
  | nil =>
    cases h
    exact fun _ hp => absurd hp List.not_mem_nil
  | cons s statements ih =>
    obtain ⟨size, symbols', rest, hsize, -, hrest, rfl⟩ := place_cons_eq_ok_iff.mp h
    intro p hp
    rcases List.mem_cons.mp hp with rfl | hp
    · exact ⟨size, hsize, rfl⟩
    · exact ih hrest p hp

/-- The placed statements are the statements that were to be placed. -/
theorem map_toStatement_place (h : place unique table a symbols statements = .ok run) :
    run.placed.map Placed.toStatement = statements := by
  induction statements generalizing a symbols run with
  | nil =>
    cases h
    rfl
  | cons s statements ih =>
    obtain ⟨size, symbols', rest, -, -, hrest, rfl⟩ := place_cons_eq_ok_iff.mp h
    exact congrArg (s :: ·) (ih hrest)

/-- **A symbol has the address of its definition**, or what address it had before. -/
theorem lookup_place (h : place unique table a symbols statements = .ok run) (symbol : Text) :
    run.symbols.lookup symbol =
      ((definition? run.placed symbol).map Placed.address).or (symbols.lookup symbol) := by
  induction statements generalizing a symbols run with
  | nil =>
    cases h
    rfl
  | cons s statements ih =>
    obtain ⟨size, symbols', rest, -, hsymbols, hrest, rfl⟩ := place_cons_eq_ok_iff.mp h
    rw [ih hrest, SymbolTable.lookup_enter hsymbols, definition?_cons]
    cases definition? rest.placed symbol with
    | some p => rfl
    | none =>
      by_cases hs : s.isLabelled = true ∧ s.label = symbol
      · rw [if_pos hs, if_pos hs]
        rfl
      · rw [if_neg hs, if_neg hs]
        rfl

end Place

/-! ## Laying out a program -/

/-- The size of a statement agrees with the storage it takes.  The `START` that begins a program
takes none, also where the opcode table knows an instruction of that name. -/
def SizedBy (table : OpcodeTable) (p : Placed) : Prop :=
  (∃ size : Nat, p.toStatement.size table = .ok size ∧ p.size = size) ∨
    (p.isStart = true ∧ p.size = 0)

/-- **The invariant of a layout.** -/
structure IsLaidOut (table : OpcodeTable) (l : Layout) : Prop where
  start_nonneg : 0 ≤ l.program.start
  start_lt : l.program.start < 2147483648
  consecutive : Consecutive l.program.start l.placed (l.program.start + l.program.length)
  sized : ∀ p ∈ l.placed, SizedBy table p
  /-- Symbols are labels. -/
  symbols : ∀ symbol x, l.symbols.lookup symbol = some x →
    ∃ p ∈ l.placed, p.label = symbol ∧ p.isLabelled = true ∧ p.address = x
  /-- The name is a field of a line. -/
  name : ∀ b ∈ l.program.name, Text.isAsciiBlank b = false

namespace IsLaidOut

variable {table : OpcodeTable} {l : Layout}

theorem length_nonneg (h : IsLaidOut table l) : 0 ≤ l.program.length := by
  have := h.consecutive.le
  omega

/-- Symbols stand for addresses of the program. -/
theorem symbol_bounds (h : IsLaidOut table l) {symbol : Text} {x : Int}
    (hx : l.symbols.lookup symbol = some x) :
    l.program.start ≤ x ∧ x ≤ l.program.start + l.program.length := by
  obtain ⟨p, hp, -, -, rfl⟩ := h.symbols symbol x hx
  have := h.consecutive.bounds hp
  omega

end IsLaidOut

theorem isLaidOut_empty (table : OpcodeTable) : IsLaidOut table empty where
  start_nonneg := Int.le_refl 0
  start_lt := by decide
  consecutive := rfl
  sized := fun _ hp => absurd hp List.not_mem_nil
  symbols := fun symbol x hx => by
    rw [empty, SymbolTable.lookup_empty] at hx
    cases hx
  name := fun _ hb => absurd hb List.not_mem_nil

/-- A start address is never negative and has at most 31 bits. -/
theorem startAddress_bounds {s : Statement} {a : Int} (h : s.startAddress = .ok a) :
    0 ≤ a ∧ a < 2147483648 := by
  obtain ⟨ha, hpos⟩ := Statement.startAddress_eq_ok_iff.mp h
  have hbounds := Text.bounds_of_int32OfDigits? ha
  omega

/-- **What laying out a program does.** -/
theorem ofStatements_cons_eq_ok_iff {unique : Bool} {table : OpcodeTable} {s : Statement}
    {statements : List Statement} {l : Layout} :
    ofStatements unique table (s :: statements) = .ok l ↔
      ∃ (start : Int) (run : Run), s.startAddress = .ok start ∧
        place unique table start .empty statements = .ok run ∧
        l = ⟨⟨s.label, start, run.next - start⟩, ⟨s, start, 0⟩ :: run.placed, run.symbols⟩ := by
  constructor
  · intro h
    rw [ofStatements] at h
    split at h
    · cases h
    · rename_i start hstart
      split at h
      · cases h
      · rename_i run hrun
        exact ⟨start, run, hstart, hrun, (Except.ok.inj h).symm⟩
  · rintro ⟨start, run, hstart, hrun, rfl⟩
    simp only [ofStatements, hstart, hrun]

theorem isLaidOut_ofStatements {unique : Bool} {table : OpcodeTable} {statements : List Statement}
    {l : Layout} (hstart : ∀ s ∈ statements.head?, s.isStart = true)
    (hname : ∀ s ∈ statements, ∀ b ∈ s.label, Text.isAsciiBlank b = false)
    (h : ofStatements unique table statements = .ok l) : IsLaidOut table l := by
  match statements, h with
  | [], h =>
    cases h
    exact isLaidOut_empty table
  | s :: rest, h =>
    obtain ⟨start, run, haddress, hrun, rfl⟩ := ofStatements_cons_eq_ok_iff.mp h
    have hbounds := startAddress_bounds haddress
    refine ⟨hbounds.1, hbounds.2, ⟨rfl, Int.le_refl 0, ?_⟩, ?_, ?_, hname s List.mem_cons_self⟩
    · have hnext : start + (run.next - start) = run.next := by omega
      simpa only [Int.add_zero, hnext] using consecutive_place hrun
    · intro p hp
      rcases List.mem_cons.mp hp with rfl | hp
      · exact Or.inr ⟨hstart s rfl, rfl⟩
      · exact Or.inl (size_of_mem_place hrun p hp)
    · intro symbol x hx
      rw [lookup_place hrun, SymbolTable.lookup_empty, Option.or_none,
        Option.map_eq_some_iff] at hx
      obtain ⟨p, hp, rfl⟩ := hx
      obtain ⟨hmem, hlabelled, hlabel⟩ := mem_of_definition? hp
      exact ⟨p, List.mem_cons_of_mem _ hmem, hlabel, hlabelled, rfl⟩

/-- The placed statements are those of the source program, from its `START` on. -/
theorem map_toStatement_ofSource {unique : Bool} {table : OpcodeTable} {source : Text} {l : Layout}
    (h : ofSource unique table source = .ok l) :
    l.placed.map Placed.toStatement = body source := by
  rw [ofSource] at h
  cases hbody : body source with
  | nil =>
    rw [hbody] at h
    cases h
    rfl
  | cons s rest =>
    rw [hbody] at h
    obtain ⟨start, run, -, hrun, rfl⟩ := ofStatements_cons_eq_ok_iff.mp h
    exact congrArg (s :: ·) (map_toStatement_place hrun)

/-- **The symbols of a layout** are the labels behind its `START`, each at the address of the last
statement that has it. -/
theorem lookup_ofSource {unique : Bool} {table : OpcodeTable} {source : Text} {l : Layout}
    (h : ofSource unique table source = .ok l) (symbol : Text) :
    l.symbols.lookup symbol = (definition? l.placed.tail symbol).map Placed.address := by
  rw [ofSource] at h
  cases hbody : body source with
  | nil =>
    rw [hbody] at h
    cases h
    exact SymbolTable.lookup_empty symbol
  | cons s rest =>
    rw [hbody] at h
    obtain ⟨start, run, -, hrun, rfl⟩ := ofStatements_cons_eq_ok_iff.mp h
    rw [lookup_place hrun, SymbolTable.lookup_empty, Option.or_none]
    rfl

/-- Labels have no white space. -/
theorem label_of_mem_ofSource {source : Text} {s : Statement} (hs : s ∈ Statement.ofSource source) :
    ∀ b ∈ s.label, Text.isAsciiBlank b = false := by
  obtain ⟨⟨t, n⟩, -, ht⟩ := List.mem_filterMap.mp hs
  simp only [Statement.ofLine?] at ht
  split at ht
  · cases ht
  · rename_i label rest hfields
    split at ht
    · cases ht
    · cases ht
      intro b hb
      exact Text.isAsciiBlank_of_mem_fields (hfields ▸ List.mem_cons_self) hb

/-- The statement of a line has the number of the line. -/
theorem line_of_ofLine? {line : Int} {t : Text} {s : Statement}
    (h : Statement.ofLine? line t = some s) : s.line = line := by
  rw [Statement.ofLine?] at h
  split at h
  · cases h
  · split at h
    · cases h
    · cases h
      rfl

/-- Later statements stand on later lines. -/
theorem pairwise_line_ofSource (source : Text) :
    (Statement.ofSource source).Pairwise fun s s' => s.line < s'.line := by
  rw [Statement.ofSource, List.pairwise_filterMap]
  refine (Text.pairwise_zipIdx _ 1).imp fun {x y} hlt s hs s' hs' => ?_
  rw [line_of_ofLine? hs, line_of_ofLine? hs']
  exact Int.ofNat_lt.mpr hlt

/-- A program begins with a `START`. -/
theorem isStart_of_mem_head?_body {source : Text} {s : Statement} (hs : s ∈ (body source).head?) :
    s.isStart = true := by
  have hhead := List.head?_dropWhile_not (fun s : Statement => !s.isStart)
    (Statement.ofSource source)
  rw [← body, hs] at hhead
  simpa using hhead

/-- A program is what stands from the first `START` on. -/
theorem body_of_ofSource {source : Text} {before behind : List Statement} {s : Statement}
    (h : Statement.ofSource source = before ++ s :: behind)
    (hbefore : ∀ s ∈ before, s.isStart = false) (hs : s.isStart = true) :
    body source = s :: behind := by
  rw [body, h, List.dropWhile_append_of_pos fun x hx => by simp [hbefore x hx],
    List.dropWhile_cons_of_neg (by simp [hs])]

/-- **A source program that can be laid out is laid out.** -/
theorem isLaidOut_ofSource {unique : Bool} {table : OpcodeTable} {source : Text} {l : Layout}
    (h : ofSource unique table source = .ok l) : IsLaidOut table l :=
  isLaidOut_ofStatements (fun _ hs => isStart_of_mem_head?_body hs)
    (fun _ hs => label_of_mem_ofSource (List.dropWhile_subset _ hs)) h

end Layout

end Sic
