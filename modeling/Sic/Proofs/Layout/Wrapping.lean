import Sic.Proofs.Layout.Steps
import Sic.Proofs.Text.Fields

/-!
# The location counter in 64 bits

A layout counts with integers, of which there is no largest.  A machine counts in registers: with 64
bits and a sign, a number past the largest comes out at the smallest.  Here a program is laid out in
such registers, and as long as its source has less than half a gigabyte the outcome is the same, be
it a layout or an error.

* `Wrapping.ofSource` lays out a source program in registers.  It differs from `Layout.ofSource` in
  the arithmetic only.
* `Layout.storage` is the storage that statements take together.  `next_place` says that the counter
  moves by that much, and `storage_ofSource_le` that no byte of a source program accounts for more
  than `Statement.largestSize`.
* `Wrapping.ofStatements_eq`: registers are exact as long as the storage behind the highest start
  address stays below 2^63.
* `wrapping_ofSource` puts the two together, and `ofSource_counter_exact` adds what is in the
  registers on the way.  `assemble_eq_ok_iff_wrapping` says it of whole assemblies, so that what is
  known of them is known of those in registers.
-/

set_option autoImplicit false

namespace Sic

open Text

/-! ## Laying out in registers -/

namespace Wrapping

/-- A number that a register holds, and that is not negative. -/
def Fits (n : Int) : Prop := 0 ≤ n ∧ n < 2 ^ 63

instance (n : Int) : Decidable (Fits n) := inferInstanceAs (Decidable (_ ∧ _))

/-- A statement with its address and the storage it takes, in registers. -/
structure Placed extends Statement where
  address : Int64
  size : Int64

/-- Statements placed one behind the other, the symbols defined by then, and the location counter
behind the last of them.  A symbol is entered with the number that the counter stands for. -/
structure Run where
  placed : List Placed
  symbols : SymbolTable
  next : Int64

/-- The operand as a count. -/
def count (s : Statement) (role : OperandRole) : Except ProgramError Int64 :=
  match s.number role with
  | .error e => .error e
  | .ok n =>
    if Int64.ofInt n < 0 then .error (s.badOperand role .decimal .negativeCount)
    else .ok (Int64.ofInt n)

/-- The operand as the address that the program starts at. -/
def startAddress (s : Statement) : Except ProgramError Int64 :=
  match Text.int32OfDigits? 16 s.operand with
  | none => .error (s.badOperand .startAddress .hexadecimal .notANumber)
  | some a =>
    if Int64.ofInt a < 0 then .error (s.badOperand .startAddress .hexadecimal .negativeAddress)
    else .ok (Int64.ofInt a)

/-- How many bytes a literal gives. -/
def literalSize : ByteLiteral → Int64
  | .characters value => Int64.ofNat value.length
  | .hexadecimal digits => Int64.ofNat digits.length / 2

/-- The storage a directive takes. -/
def directiveSize (s : Statement) : Except ProgramError Int64 :=
  match s.directive? with
  | some .word => .ok (Int64.ofNat wordSize)
  | some .reserveWords => (count s .wordCount).map (Int64.ofNat wordSize * ·)
  | some .reserveBytes => count s .byteCount
  | some .bytes => s.byteLiteral.map literalSize
  | _ => .ok 0

/-- The storage a statement takes. -/
def size (table : OpcodeTable) (s : Statement) : Except ProgramError Int64 :=
  if table.contains s.opcode then .ok (Int64.ofNat wordSize) else directiveSize s

/-- Places statements from a value of the location counter on. -/
def place (unique : Bool) (table : OpcodeTable) (counter : Int64) (symbols : SymbolTable) :
    List Statement → Except ProgramError Run
  | [] => .ok ⟨[], symbols, counter⟩
  | s :: rest =>
    match size table s with
    | .error e => .error e
    | .ok size =>
      match symbols.enter unique s counter.toInt with
      | .error e => .error e
      | .ok symbols =>
        match place unique table (counter + size) symbols rest with
        | .error e => .error e
        | .ok run => .ok { run with placed := ⟨s, counter, size⟩ :: run.placed }

/-- A placed statement with the numbers that its registers stand for. -/
def Placed.exact (p : Placed) : Sic.Placed := ⟨p.toStatement, p.address.toInt, p.size.toInt⟩

/-- Placed statements with the numbers that their registers stand for. -/
def Run.exact (run : Run) : Layout.Run := ⟨run.placed.map Placed.exact, run.symbols, run.next.toInt⟩

/-- Lays out statements that begin with a `START`. -/
def ofStatements (unique : Bool) (table : OpcodeTable) :
    List Statement → Except ProgramError Layout
  | [] => .ok .empty
  | s :: rest =>
    match startAddress s with
    | .error e => .error e
    | .ok start =>
      match place unique table start .empty rest with
      | .error e => .error e
      | .ok run =>
        .ok ⟨⟨s.label, start.toInt, (run.next - start).toInt⟩,
          Placed.exact ⟨s, start, 0⟩ :: run.placed.map Placed.exact, run.symbols⟩

/-- The statements of a source program, with the numbers of their lines counted in a register. -/
def statements (source : Text) : List Statement :=
  source.lines.zipIdx.filterMap fun e => Statement.ofLine? (Int64.ofNat e.2 + 1).toInt e.1

/-- Lays out a source program. -/
def ofSource (unique : Bool) (table : OpcodeTable) (source : Text) : Except ProgramError Layout :=
  ofStatements unique table ((statements source).dropWhile fun s => !s.isStart)

end Wrapping

/-! ## Sizes -/

namespace Statement

variable {s : Statement} {table : OpcodeTable} {n : Nat}

/-- The storage of the largest count of words, the most that a statement takes whose operand is not
a literal. -/
def largestSize : Nat := wordSize * 2147483647

theorem largestSize_eq : largestSize = 6442450941 := rfl

/-- **The storage of a statement** is at most that of the largest count of words, or less than its
operand has bytes. -/
theorem size_le (h : s.size table = .ok n) : n ≤ largestSize ∨ n < s.operand.length := by
  rw [size] at h
  split at h
  · cases h
    exact Or.inl (by decide)
  · rw [directiveSize] at h
    split at h
    · cases h
      exact Or.inl (by decide)
    · obtain ⟨k, hk, rfl⟩ := map_eq_ok_iff.mp h
      exact Or.inl (Nat.mul_le_mul_left wordSize (count_le hk))
    · have hcount := count_le h
      rw [largestSize_eq]
      omega
    · obtain ⟨lit, hlit, rfl⟩ := map_eq_ok_iff.mp h
      exact Or.inr (Nat.lt_of_le_of_lt lit.size_le_length (length_lt_of_byteLiteral hlit))
    · cases h
      exact Or.inl (by decide)

/-- An operand has no more bytes than its line and the line feed, also where it is absent. -/
theorem length_operand_le {line : Int} {t : Text} (h : ofLine? line t = some s) :
    s.operand.length ≤ t.length + 1 := by
  have hfields := length_fields_le t
  rw [ofLine?] at h
  split at h
  · cases h
  · rename_i label rest heq
    split at h
    · cases h
    · cases h
      rw [heq] at hfields
      cases rest with
      | nil => simp [absent, ofAscii]
      | cons opcode rest =>
        cases rest with
        | nil => simp [absent, ofAscii]
        | cons operand rest =>
          simp at hfields ⊢
          omega

/-- The storage of a statement in terms of the text of its line. -/
theorem size_le_of_ofLine? {line : Int} {t : Text} (hs : ofLine? line t = some s)
    (h : s.size table = .ok n) : n ≤ largestSize * (t.length + 1) := by
  have hoperand := length_operand_le hs
  rw [largestSize_eq]
  rcases size_le h with hle | hlt
  · rw [largestSize_eq] at hle
    omega
  · omega

end Statement

/-! ## Storage -/

namespace Layout

/-- The storage that statements take together.  One that cannot be sized takes none. -/
def storage (table : OpcodeTable) : List Statement → Nat
  | [] => 0
  | s :: ss => (s.size table).toOption.getD 0 + storage table ss

section Storage

variable {unique : Bool} {table : OpcodeTable} {ss ss' : List Statement}

theorem storage_cons_of_ok {s : Statement} {n : Nat} (h : s.size table = .ok n) :
    storage table (s :: ss) = n + storage table ss := by
  rw [storage, h]
  rfl

theorem storage_le_of_sublist (table : OpcodeTable) (h : ss.Sublist ss') :
    storage table ss ≤ storage table ss' := by
  induction h with
  | slnil => exact Nat.le_refl _
  | cons s _ ih => exact Nat.le_trans ih (Nat.le_add_left _ _)
  | cons_cons s _ ih => exact Nat.add_le_add_left ih _

/-- **Placing statements moves the counter by the storage they take.** -/
theorem next_place {a : Int} {symbols : SymbolTable} {run : Run}
    (h : place unique table a symbols ss = .ok run) : run.next = a + storage table ss := by
  induction ss generalizing a symbols run with
  | nil =>
    cases h
    exact (Int.add_zero a).symm
  | cons s ss ih =>
    obtain ⟨size, symbols', rest, hsize, -, hrest, rfl⟩ := place_cons_eq_ok_iff.mp h
    refine (ih hrest).trans ?_
    rw [storage_cons_of_ok hsize]
    omega

/-- A layout ends no further behind its start than the storage of its statements reaches. -/
theorem next_le_of_ofStatements {l : Layout} (h : ofStatements unique table ss = .ok l) :
    l.next ≤ l.program.start + storage table ss := by
  cases ss with
  | nil =>
    cases h
    exact Int.le_refl 0
  | cons s ss =>
    obtain ⟨start, run, -, hrun, rfl⟩ := ofStatements_cons_eq_ok_iff.mp h
    have hnext := next_place hrun
    have hrest : storage table ss ≤ storage table (s :: ss) := Nat.le_add_left _ _
    simp only [next]
    omega

/-- **The storage of a text's statements**: no byte accounts for more than the largest size, if each
line counts with its line feed. -/
theorem storage_ofLines_le (table : OpcodeTable) (n : Nat) (ls : List Text) :
    storage table (Statement.ofLines n ls) ≤
      Statement.largestSize * (ls.flatten.length + ls.length) := by
  induction ls generalizing n with
  | nil => exact Nat.zero_le _
  | cons t ls ih =>
    have hrest := ih (n + 1)
    have hlength : (t :: ls).flatten.length + (t :: ls).length =
        (t.length + 1) + (ls.flatten.length + ls.length) := by
      simp
      omega
    rw [Statement.ofLines, List.zipIdx_cons, List.filterMap_cons, ← Statement.ofLines, hlength,
      Nat.mul_add]
    cases hs : Statement.ofLine? n t with
    | none => exact Nat.le_trans hrest (Nat.le_add_left _ _)
    | some s =>
      have hsize : (s.size table).toOption.getD 0 ≤ Statement.largestSize * (t.length + 1) := by
        cases hsize : s.size table with
        | error e => exact Nat.zero_le _
        | ok k => exact Statement.size_le_of_ofLine? hs hsize
      exact Nat.add_le_add hsize hrest

theorem storage_ofSource_le (table : OpcodeTable) (source : Text) :
    storage table (Statement.ofSource source) ≤ Statement.largestSize * (source.length + 1) := by
  rw [Statement.ofSource_eq_ofLines, ← length_lines]
  exact storage_ofLines_le table 1 source.lines

end Storage

end Layout

/-! ## Registers -/

namespace Wrapping

theorem toInt_ofInt_of_int32 {base : Nat} {t : Text} {n : Int}
    (h : int32OfDigits? base t = some n) : (Int64.ofInt n).toInt = n := by
  have hbounds := bounds_of_int32OfDigits? h
  exact Int64.toInt_ofInt_of_le (by omega) (by omega)

theorem toInt_add_of_fits {a b : Int64} {m n : Int} (ha : a.toInt = m) (hb : b.toInt = n)
    (h : Fits (m + n)) : (a + b).toInt = m + n := by
  obtain ⟨hlow, hhigh⟩ := h
  rw [Int64.toInt_add, ha, hb]
  exact Int.bmod_eq_of_le (by omega) (by omega)

theorem toInt_sub_of_fits {a b : Int64} {m n : Int} (ha : a.toInt = m) (hb : b.toInt = n)
    (h : Fits (m - n)) : (a - b).toInt = m - n := by
  obtain ⟨hlow, hhigh⟩ := h
  rw [Int64.toInt_sub, ha, hb]
  exact Int.bmod_eq_of_le (by omega) (by omega)

section Size

variable {s : Statement}

/-- A number read from an operand has the sign of its register. -/
theorem ofInt_lt_zero_iff {base : Nat} {t : Text} {n : Int} (h : int32OfDigits? base t = some n) :
    Int64.ofInt n < 0 ↔ n < 0 := by
  rw [Int64.lt_iff_toInt_lt, toInt_ofInt_of_int32 h, Int64.toInt_zero]

theorem count_eq (role : OperandRole) : count s role = (s.count role).map Int64.ofNat := by
  rw [count, Statement.count, Statement.number]
  cases hn : int32OfDigits? 10 s.operand with
  | none => rfl
  | some n =>
    by_cases hneg : n < 0
    · simp [ofInt_lt_zero_iff hn, hneg, Except.map]
    · have hregister : Int64.ofInt n = Int64.ofNat n.toNat := by
        rw [← Int64.ofInt_eq_ofNat, Int.toNat_of_nonneg (Int.not_lt.mp hneg)]
      simp only [ofInt_lt_zero_iff hn, hneg, if_false, Except.map]
      rw [hregister]

theorem startAddress_eq : startAddress s = s.startAddress.map Int64.ofInt := by
  rw [startAddress, Statement.startAddress]
  cases ha : int32OfDigits? 16 s.operand with
  | none => rfl
  | some a => by_cases hneg : a < 0 <;> simp [ofInt_lt_zero_iff ha, hneg, Except.map]

theorem literalSize_eq {lit : ByteLiteral} (h : lit.length < 2 ^ 63) :
    literalSize lit = Int64.ofNat lit.size := by
  cases lit with
  | characters value => rfl
  | hexadecimal digits => exact (Int64.ofNat_div h (by decide)).symm

theorem directiveSize_eq (h : s.operand.length < 2 ^ 63) :
    directiveSize s = s.directiveSize.map Int64.ofNat := by
  rw [directiveSize, Statement.directiveSize]
  cases s.directive? with
  | none => rfl
  | some d =>
    cases d with
    | reserveWords =>
      simp only [count_eq]
      cases s.count .wordCount with
      | error e => rfl
      | ok n => exact congrArg Except.ok (Int64.ofNat_mul wordSize n).symm
    | reserveBytes => exact count_eq .byteCount
    | bytes =>
      cases hlit : s.byteLiteral with
      | error e => rfl
      | ok lit =>
        have hlength := Statement.length_lt_of_byteLiteral hlit
        exact congrArg Except.ok (literalSize_eq (Nat.lt_trans hlength h))
    | word => rfl
    | start => rfl
    | finish => rfl

/-- **The storage of a statement in a register.** -/
theorem size_eq {table : OpcodeTable} (h : s.operand.length < 2 ^ 63) :
    size table s = (s.size table).map Int64.ofNat := by
  rw [size, Statement.size]
  split
  · rfl
  · exact directiveSize_eq h

end Size

section Place

variable {unique : Bool} {table : OpcodeTable} {ss : List Statement}

/-- **Placing statements in registers is exact** as long as the counter stays below 2^63. -/
theorem place_eq {counter : Int64} {symbols : SymbolTable}
    (hoperand : ∀ s ∈ ss, s.operand.length < 2 ^ 63) (hcounter : 0 ≤ counter.toInt)
    (h : counter.toInt + Layout.storage table ss < 2 ^ 63) :
    (place unique table counter symbols ss).map Run.exact =
      Layout.place unique table counter.toInt symbols ss := by
  -- The bound goes from one statement to the next: it is on the counter and the storage still to
  -- come together, and what the one gains the other loses.
  induction ss generalizing counter symbols with
  | nil => rfl
  | cons s ss ih =>
    obtain ⟨hs, hss⟩ := List.forall_mem_cons.mp hoperand
    rw [place, Layout.place, size_eq hs]
    cases hsize : s.size table with
    | error e => rfl
    | ok n =>
      rw [Layout.storage_cons_of_ok hsize] at h
      have hn : (Int64.ofNat n).toInt = n := Int64.toInt_ofNat_of_lt (by omega)
      have hnext : (counter + Int64.ofNat n).toInt = counter.toInt + n :=
        toInt_add_of_fits rfl hn ⟨by omega, by omega⟩
      simp only [Except.map]
      cases symbols.enter unique s counter.toInt with
      | error e => rfl
      | ok symbols' =>
        have hrest : (place unique table (counter + Int64.ofNat n) symbols' ss).map Run.exact =
            Layout.place unique table (counter.toInt + n) symbols' ss := by
          rw [ih hss (by omega) (by omega), hnext]
        simp only [← hrest]
        cases place unique table (counter + Int64.ofNat n) symbols' ss with
        | error e => rfl
        | ok run => simp only [Except.map, Run.exact, List.map_cons, Placed.exact, hn]

/-- Behind the highest address comes the lowest. -/
example : (place false .empty 0x7FFFFFFFFFFFFFFF .empty [⟨1, "A", "RESB", "1"⟩]).toOption.map
    (fun run => run.next.toInt) = some (-0x8000000000000000) := by
  decide +kernel

/-- **Laying out statements in registers is exact** as long as their storage, behind the highest
start address, stays below 2^63. -/
theorem ofStatements_eq (hoperand : ∀ s ∈ ss, s.operand.length < 2 ^ 63)
    (h : 2 ^ 31 + Layout.storage table ss ≤ 2 ^ 63) :
    ofStatements unique table ss = Layout.ofStatements unique table ss := by
  cases ss with
  | nil => rfl
  | cons s ss =>
    obtain ⟨-, hss⟩ := List.forall_mem_cons.mp hoperand
    rw [ofStatements, Layout.ofStatements, startAddress_eq]
    cases hstart : s.startAddress with
    | error e => rfl
    | ok start =>
      have hbounds := Layout.startAddress_bounds hstart
      have hregister : (Int64.ofInt start).toInt = start :=
        Int64.toInt_ofInt_of_le (by omega) (by omega)
      have hstorage : Layout.storage table ss ≤ Layout.storage table (s :: ss) :=
        Nat.le_add_left _ _
      have hplace : (place unique table (Int64.ofInt start) .empty ss).map Run.exact =
          Layout.place unique table start .empty ss := by
        rw [place_eq hss (by omega) (by omega), hregister]
      simp only [Except.map]
      cases hrun : place unique table (Int64.ofInt start) .empty ss with
      | error e =>
        rw [hrun] at hplace
        simp only [← hplace, Except.map]
      | ok run =>
        rw [hrun] at hplace
        have hnext : run.next.toInt = start + Layout.storage table ss :=
          Layout.next_place hplace.symm
        have hlength : (run.next - Int64.ofInt start).toInt = run.next.toInt - start :=
          toInt_sub_of_fits rfl hregister ⟨by omega, by omega⟩
        simp only [← hplace, Except.map, hlength, hregister, Run.exact, Placed.exact,
          Int64.toInt_zero]

end Place

/-- **Lines are counted exactly**: there is at most one more than there are bytes. -/
theorem statements_eq {source : Text} (h : source.length + 1 < 2 ^ 63) :
    statements source = Statement.ofSource source := by
  have hlines := length_lines source
  rw [Statement.ofSource_eq_ofLines, Statement.ofLines, List.zipIdx_eq_map_add, List.filterMap_map,
    statements]
  refine List.filterMap_congr fun e he => ?_
  have hindex := List.snd_lt_of_mem_zipIdx he
  have hn : (Int64.ofNat e.2).toInt = e.2 := Int64.toInt_ofNat_of_lt (by omega)
  have hone : Int64.toInt 1 = 1 := by decide
  have hline : (Int64.ofNat e.2 + 1).toInt = e.2 + 1 :=
    toInt_add_of_fits hn hone ⟨by omega, by omega⟩
  simp [hline, Int.add_comm]

end Wrapping

/-! ## Source programs -/

namespace Layout

open Wrapping (Fits)

variable {unique : Bool} {table : OpcodeTable} {source : Text}

theorem length_operand_of_mem_ofSource {s : Statement} (hs : s ∈ Statement.ofSource source) :
    s.operand.length ≤ source.length + 1 := by
  obtain ⟨⟨t, n⟩, hmem, ht⟩ := List.mem_filterMap.mp hs
  have hline : t <:+: source := infix_of_mem_splitOnP (List.fst_mem_of_mem_zipIdx hmem)
  have hlength := hline.length_le
  have hoperand := Statement.length_operand_le ht
  omega

/-- A layout whose numbers all fit a register. -/
structure FitsRegisters (l : Layout) : Prop where
  start : Fits l.program.start
  length : Fits l.program.length
  next : Fits l.next
  placed : ∀ p ∈ l.placed, Fits p.address ∧ Fits p.size
  symbols : ∀ symbol x, l.symbols.lookup symbol = some x → Fits x

/-- The numbers of a layout are bounded by its end. -/
theorem IsLaidOut.fitsRegisters {l : Layout} (h : IsLaidOut table l) (hnext : l.next < 2 ^ 63) :
    FitsRegisters l := by
  have hstart := h.start_nonneg
  have hlength := h.length_nonneg
  rw [Layout.next] at hnext
  refine ⟨⟨hstart, by omega⟩, ⟨hlength, by omega⟩, ⟨Int.add_nonneg hstart hlength, hnext⟩,
    fun p hp => ?_, fun symbol x hx => ?_⟩
  · have hbounds := h.consecutive.bounds hp
    exact ⟨⟨by omega, by omega⟩, by omega, by omega⟩
  · have hbounds := h.symbol_bounds hx
    exact ⟨by omega, by omega⟩

/-- The first statements of a program are laid out as a program. -/
theorem isLaidOut_of_isPrefix {ss : List Statement} {l : Layout} (hss : ss <+: body source)
    (h : ofStatements unique table ss = .ok l) : IsLaidOut table l := by
  refine isLaidOut_ofStatements (fun s hs => ?_) (fun s hs => ?_) h
  · obtain ⟨rest, hrest⟩ := hss
    have hhead : s ∈ (body source).head? := by
      rw [← hrest, List.head?_append, Option.mem_def.mp hs]
      rfl
    exact isStart_of_mem_head?_body hhead
  · exact label_of_mem_ofSource (List.dropWhile_subset _ (hss.subset hs))

/-- The storage of a short source program leaves room behind the highest start address. -/
theorem storage_add_le (table : OpcodeTable) (hsource : source.length < 2 ^ 29)
    {ss : List Statement} (hss : ss <+: body source) : 2 ^ 31 + storage table ss ≤ 2 ^ 63 := by
  have hbody : (body source).Sublist (Statement.ofSource source) := List.dropWhile_sublist _
  have hpart := storage_le_of_sublist table (hss.sublist.trans hbody)
  have hwhole := storage_ofSource_le table source
  rw [Statement.largestSize_eq] at hwhole
  omega

theorem length_operand_lt (hsource : source.length < 2 ^ 29) {s : Statement}
    (hs : s ∈ Statement.ofSource source) : s.operand.length < 2 ^ 63 := by
  have hlength := length_operand_of_mem_ofSource hs
  omega

/-- The first statements of a short program are laid out in registers as they are with integers. -/
theorem wrapping_ofStatements (hsource : source.length < 2 ^ 29) {ss : List Statement}
    (hss : ss <+: body source) :
    Wrapping.ofStatements unique table ss = ofStatements unique table ss := by
  refine Wrapping.ofStatements_eq (fun s hs => ?_) (storage_add_le table hsource hss)
  exact length_operand_lt hsource (List.dropWhile_subset _ (hss.subset hs))

/-- **A short source program is laid out in registers as it is with integers.** -/
theorem wrapping_ofSource (hsource : source.length < 2 ^ 29) :
    Wrapping.ofSource unique table source = ofSource unique table source := by
  rw [Wrapping.ofSource, Wrapping.statements_eq (by omega)]
  exact wrapping_ofStatements hsource List.prefix_rfl

/-- **The location counter does not wrap.**  A source program of fewer than 2^29 bytes is laid out
in 64-bit registers as it is with integers, whatever the opcode table and whether or not labels must
be unique; if it cannot be laid out, the error is the same.  The storage of each of its statements
is exact, and so is all that is laid out by the time the first statements of the program have been
placed, be they all or only those before an error: addresses, sizes, the counter behind the last and
the length up to there are not negative and below 2^63. -/
theorem ofSource_counter_exact {source : Text} (hsource : source.length < 2 ^ 29) (unique : Bool)
    (table : OpcodeTable) :
    Wrapping.ofSource unique table source = ofSource unique table source ∧
    (∀ s ∈ Statement.ofSource source,
      Wrapping.size table s = (s.size table).map Int64.ofNat ∧
      ∀ n, s.size table = .ok n → Fits n ∧ (Int64.ofNat n).toInt = n) ∧
    ∀ ss, ss <+: body source →
      Wrapping.ofStatements unique table ss = ofStatements unique table ss ∧
      ∀ l, ofStatements unique table ss = .ok l → FitsRegisters l := by
  refine ⟨wrapping_ofSource hsource,
    fun s hs => ⟨Wrapping.size_eq (length_operand_lt hsource hs), fun n hn => ?_⟩,
    fun ss hss => ⟨wrapping_ofStatements hsource hss, fun l hl => ?_⟩⟩
  · have hlength := length_operand_of_mem_ofSource hs
    have hsize := Statement.size_le hn
    rw [Statement.largestSize_eq] at hsize
    exact ⟨⟨by omega, by omega⟩, Int64.toInt_ofNat_of_lt (by omega)⟩
  · have hlaid := isLaidOut_of_isPrefix hss hl
    have hstart := hlaid.start_lt
    have hnext := next_le_of_ofStatements hl
    have hroom := storage_add_le table hsource hss
    exact hlaid.fitsRegisters (by omega)

/-- The highest start address, twice the largest count of words, and bytes in pairs of digits.  The
counter leaves 32 bits behind and goes on; where labels must be unique, the error tells the address
that the label had. -/
theorem ofSource_counter_exact_vast :
    (∃ l, Wrapping.ofSource false .empty
        "P START 7FFFFFFF\nA RESW 2147483647\n. \n- BYTE X'0F1E'\nA RESW 2147483647\n" = .ok l ∧
      l.placed = [⟨⟨1, "P", "START", "7FFFFFFF"⟩, 2147483647, 0⟩,
        ⟨⟨2, "A", "RESW", "2147483647"⟩, 2147483647, 6442450941⟩,
        ⟨⟨4, "-", "BYTE", "X'0F1E'"⟩, 8589934588, 2⟩,
        ⟨⟨5, "A", "RESW", "2147483647"⟩, 8589934590, 6442450941⟩] ∧
      l.program.length = 12884901884 ∧ FitsRegisters l) ∧
    Wrapping.ofSource true .empty
        "P START 7FFFFFFF\nA RESW 2147483647\n. \n- BYTE X'0F1E'\nA RESW 2147483647\n" =
      .error (.duplicate "A" 5 2147483647) := by
  have hrun : (ofSource false .empty
      "P START 7FFFFFFF\nA RESW 2147483647\n. \n- BYTE X'0F1E'\nA RESW 2147483647\n").toOption.map
        (fun l => (l.placed, l.program.length)) =
      some ([⟨⟨1, "P", "START", "7FFFFFFF"⟩, 2147483647, 0⟩,
        ⟨⟨2, "A", "RESW", "2147483647"⟩, 2147483647, 6442450941⟩,
        ⟨⟨4, "-", "BYTE", "X'0F1E'"⟩, 8589934588, 2⟩,
        ⟨⟨5, "A", "RESW", "2147483647"⟩, 8589934590, 6442450941⟩], 12884901884) := by
    decide +kernel
  have herror : ofSource true .empty
      "P START 7FFFFFFF\nA RESW 2147483647\n. \n- BYTE X'0F1E'\nA RESW 2147483647\n" =
        .error (.duplicate "A" 5 2147483647) := by
    refine map_eq_error_iff (f := fun _ => ()).mp ?_
    decide +kernel
  have hlength : List.length
      ("P START 7FFFFFFF\nA RESW 2147483647\n. \n- BYTE X'0F1E'\nA RESW 2147483647\n" : Text) <
        2 ^ 29 := by
    decide +kernel
  obtain ⟨l, hl, hresult⟩ := exists_ok_of_toOption hrun
  obtain ⟨hplaced, hlen⟩ := Prod.mk.inj hresult
  obtain ⟨hsame, -, hexact⟩ := ofSource_counter_exact hlength false .empty
  refine ⟨⟨l, hsame.trans hl, hplaced, hlen, (hexact _ List.prefix_rfl).2 l hl⟩, ?_⟩
  exact (ofSource_counter_exact hlength true .empty).1.trans herror

end Layout

/-- **An assembly in registers** of a short source program is the assembly of it: its layout is the
one in registers, and the rest is made from the layout. -/
theorem Assembly.assemble_eq_ok_iff_wrapping {options : Options} {table : OpcodeTable}
    {source : Text} {a : Assembly} (hsource : source.length < 2 ^ 29) :
    assemble options (some table) source = .ok a ↔
      source.isBlank = false ∧
        Wrapping.ofSource options.rejectDuplicates table source = .ok a.layout ∧
        ofLayout options table a.layout = .ok a := by
  rw [Layout.wrapping_ofSource hsource, assemble_eq_ok_iff, ofLayout_eq_ok_iff]
  simp [program]

end Sic
