import Mathlib.Data.List.Forall2
import Sic.Proofs.Listing

/-!
# The same statements, on other lines and at other addresses

Two assemblies go through the same steps if their statements have the same fields: the number of a
line is only ever shown, and an address is only ever added to.  So what stands on other lines, or
starts at another address, is laid out and encoded alike.

* `unnumbered` forgets the number of a line, and `Placed.move` moves a statement.
* `SymbolTable.IsMoved` relates tables that were built by the same definitions at addresses that
  differ by a constant.
* `exists_place_moved` is the run of the layout: if statements can be placed, then statements with
  the same fields can be placed from the other address, and everything is moved by the difference.
* `target_moved` and `exists_code_moved` are the step of the encoding, and `exists_listing_moved`
  its run.

Either of two such programs can be taken for the one that is moved, so a run that fails has no
counterpart that succeeds.
-/

set_option autoImplicit false

namespace Sic

open Text

/-! ## Numbers of lines -/

/-- A statement without the number of its line. -/
def Statement.unnumbered (s : Statement) : Statement := { s with line := 0 }

/-- A placed statement without the number of its line. -/
def Placed.unnumbered (p : Placed) : Placed := { p with line := 0 }

/-- A line of a listing without its number. -/
def Listed.unnumbered (x : Listed) : Listed := { x with line := 0 }

/-- A reference without the number of the line it is made on. -/
def Reference.unnumbered (r : Reference) : Reference := { r with line := 0 }

/-- A placed statement at an address `d` places behind its own. -/
def Placed.move (d : Int) (p : Placed) : Placed := { p with address := p.address + d }

namespace Statement

variable {s s' : Statement}

theorem unnumbered_eq_iff :
    s'.unnumbered = s.unnumbered ↔
      s'.label = s.label ∧ s'.opcode = s.opcode ∧ s'.operand = s.operand := by
  simp [unnumbered]

theorem isStart_of_unnumbered (h : s'.unnumbered = s.unnumbered) : s'.isStart = s.isStart := by
  rw [isStart, isStart, directive?, directive?, (unnumbered_eq_iff.mp h).2.1]

end Statement

/-! ## The same fields -/

namespace Statement

variable {s s' : Statement}

/-- A statement with the same opcode and operand takes the same storage. -/
theorem size_eq_ok_iff (hopcode : s'.opcode = s.opcode) (hoperand : s'.operand = s.operand)
    {table : OpcodeTable} {n : Nat} : s'.size table = .ok n ↔ s.size table = .ok n := by
  rw [size, size, hopcode]
  split
  · rfl
  · rw [directiveSize, directiveSize, directive?, directive?, hopcode]
    split <;> simp only [map_eq_ok_iff, count_eq_ok_iff, byteLiteral_eq_ok_iff, hoperand]

/-- A directive with the same operand has the same data. -/
theorem directiveCode_eq_ok_iff (hopcode : s'.opcode = s.opcode) (hoperand : s'.operand = s.operand)
    {code : Text} : s'.directiveCode = .ok code ↔ s.directiveCode = .ok code := by
  rw [directiveCode, directiveCode, directive?, directive?, hopcode]
  split <;> simp only [map_eq_ok_iff, wordValue_eq_ok_iff, byteLiteral_eq_ok_iff, hoperand]

end Statement

/-! ## Symbols -/

namespace SymbolTable

/-- Symbol tables built by the same definitions, at addresses that differ by `d`. -/
inductive IsMoved (d : Int) : SymbolTable → SymbolTable → Prop
  | empty : IsMoved d .empty .empty
  | define {t t' : SymbolTable} (h : IsMoved d t t') (symbol : Text) (a : Int) :
      IsMoved d (t.define symbol a) (t'.define symbol (a + d))

namespace IsMoved

variable {d : Int} {t t' : SymbolTable}

/-- The same symbols are defined, at addresses that differ by `d`. -/
theorem lookup_eq (h : IsMoved d t t') (symbol : Text) :
    t'.lookup symbol = (t.lookup symbol).map (· + d) := by
  induction h with
  | empty => rw [lookup_empty, Option.map_none]
  | define h name a ih =>
    rw [lookup_define, lookup_define, ih]
    split <;> rfl

/-- Tables that are not moved at all are equal. -/
theorem eq (h : IsMoved 0 t t') : t' = t := by
  induction h with
  | empty => rfl
  | define h symbol a ih => rw [ih, Int.add_zero]

/-- A label that is entered into a table is entered into a moved one. -/
theorem exists_enter {unique : Bool} {s s' : Statement} {a : Int} {u : SymbolTable}
    (h : IsMoved d t t') (hlabel : s'.label = s.label) (hu : t.enter unique s a = .ok u) :
    ∃ u', t'.enter unique s' (a + d) = .ok u' ∧ IsMoved d u u' := by
  have hlabelled : s'.isLabelled = s.isLabelled := by
    rw [Statement.isLabelled, Statement.isLabelled, hlabel]
  simp only [enter_eq_ok_iff, hlabelled, hlabel, h.lookup_eq, Option.map_eq_none_iff] at hu ⊢
  rcases hu with ⟨hs, rfl⟩ | ⟨hs, hnew, rfl⟩
  · exact ⟨t', Or.inl ⟨hs, rfl⟩, h⟩
  · exact ⟨t'.define s.label (a + d), Or.inr ⟨hs, hnew, rfl⟩, h.define s.label a⟩

end IsMoved

end SymbolTable

/-! ## Layout -/

namespace Layout

variable {unique : Bool} {table : OpcodeTable} {d : Int}

/-- **Statements with the same fields are placed alike** from an address that differs by `d`. -/
theorem exists_place_moved {a : Int} {t t' : SymbolTable} {ss ss' : List Statement} {run : Run}
    (hss : ss'.map Statement.unnumbered = ss.map Statement.unnumbered)
    (ht : SymbolTable.IsMoved d t t') (h : place unique table a t ss = .ok run) :
    ∃ run', place unique table (a + d) t' ss' = .ok run' ∧
      run'.placed.map Placed.unnumbered = run.placed.map (fun p => (p.move d).unnumbered) ∧
      SymbolTable.IsMoved d run.symbols run'.symbols ∧ run'.next = run.next + d := by
  induction ss generalizing a t t' ss' run with
  | nil =>
    cases h
    rw [List.map_nil, List.map_eq_nil_iff] at hss
    subst hss
    exact ⟨⟨[], t', a + d⟩, rfl, rfl, ht, rfl⟩
  | cons s ss ih =>
    obtain ⟨s', ss', rfl, hs, hrest⟩ := List.map_eq_cons_iff.mp hss
    obtain ⟨hlabel, hopcode, hoperand⟩ := Statement.unnumbered_eq_iff.mp hs
    obtain ⟨size, u, rest, hsize, hu, hplace, rfl⟩ := place_cons_eq_ok_iff.mp h
    obtain ⟨u', hu', hmoved⟩ := ht.exists_enter hlabel hu
    obtain ⟨rest', hplace', hplaced, hsymbols, hnext⟩ := ih hrest hmoved hplace
    have haddress : a + d + size = a + size + d := by omega
    refine ⟨⟨⟨s', a + d, size⟩ :: rest'.placed, rest'.symbols, rest'.next⟩,
      place_cons_eq_ok_iff.mpr ⟨size, u', rest', ?_, hu', ?_, rfl⟩, ?_, hsymbols, hnext⟩
    · exact (Statement.size_eq_ok_iff hopcode hoperand).mpr hsize
    · rw [haddress]
      exact hplace'
    · rw [List.map_cons, List.map_cons, hplaced]
      simp [Placed.unnumbered, Placed.move, hlabel, hopcode, hoperand]

end Layout

/-! ## Encoding -/

namespace Statement

variable {d : Int} {t t' : SymbolTable} {s s' : Statement}

/-- What an operand stands for when symbols are moved: a symbol is moved with them, and anything
else is not. -/
theorem target_moved (ht : SymbolTable.IsMoved d t t') (hoperand : s'.operand = s.operand) :
    s'.target t' = s.target t ∨
      ∃ a, s.target t = .address a ∧ s'.target t' = .address (a + d) := by
  rw [target, target, hoperand, ht.lookup_eq]
  split
  · exact Or.inl rfl
  · cases t.lookup s.operand with
    | none => exact Or.inl rfl
    | some a => exact Or.inr ⟨a, rfl, rfl⟩

end Statement

namespace Placed

variable {reject : Bool} {table : OpcodeTable} {d : Int} {t t' : SymbolTable} {p p' : Placed}

/-- A statement that has object code has object code when it is moved, and the same if it stays
where it is. -/
theorem exists_code_moved (ht : SymbolTable.IsMoved d t t')
    (hp : p'.unnumbered = (p.move d).unnumbered) {code : Text}
    (h : p.code reject table t = .ok code) :
    ∃ code', p'.code reject table t' = .ok code' ∧ (d = 0 → code' = code) := by
  have hopcode : p'.opcode = p.opcode := congrArg (fun q => q.opcode) hp
  have hoperand : p'.operand = p.operand := congrArg (fun q => q.operand) hp
  rw [Placed.code] at h ⊢
  rw [hopcode]
  cases hlookup : table.lookup p.opcode with
  | none =>
    rw [hlookup] at h
    exact ⟨code, (Statement.directiveCode_eq_ok_iff hopcode hoperand).mpr h, fun _ => rfl⟩
  | some op =>
    simp only [hlookup] at h ⊢
    rcases Statement.target_moved ht hoperand with htarget | ⟨a, ha, ha'⟩
    · rw [htarget]
      cases hvalue : p.target t with
      | address a => exact ⟨code, by rwa [hvalue] at h, fun _ => rfl⟩
      | outOfRange => simp [hvalue] at h
      | undefined => cases reject <;> simp_all
    · rw [ha] at h
      rw [ha']
      exact ⟨instructionCode op (a + d), rfl, fun hd => by simpa [hd] using h⟩

end Placed

namespace Layout

/-- Statements end where the fields of a statement say so. -/
theorem map_untilFinish {f : Placed → Placed} (hf : ∀ p, (f p).isFinish = p.isFinish)
    (ps : List Placed) : (untilFinish ps).map f = untilFinish (ps.map f) := by
  induction ps with
  | nil => rfl
  | cons p ps ih =>
    rw [List.map_cons, untilFinish, untilFinish, hf p]
    split
    · rfl
    · rw [List.map_cons, ih]

theorem untilFinish_moved {d : Int} {ps ps' : List Placed}
    (h : ps'.map Placed.unnumbered = ps.map (fun p => (p.move d).unnumbered)) :
    (untilFinish ps').map Placed.unnumbered =
      (untilFinish ps).map (fun p => (p.move d).unnumbered) := by
  rw [map_untilFinish (f := Placed.unnumbered) fun _ => rfl, h,
    ← map_untilFinish (f := fun p => (p.move d).unnumbered) fun _ => rfl]

/-- **Statements with object code have object code when they are moved.** -/
theorem exists_listing_moved {reject : Bool} {table : OpcodeTable} {d : Int} {t t' : SymbolTable}
    (ht : SymbolTable.IsMoved d t t') {ps ps' : List Placed} {lines : List Listed}
    (hps : ps'.map Placed.unnumbered = ps.map (fun p => (p.move d).unnumbered))
    (h : ps.mapM (Placed.list reject table t) = .ok lines) :
    ∃ lines', ps'.mapM (Placed.list reject table t') = .ok lines' ∧
      List.Forall₂ (fun x x' : Listed => x'.toPlaced.unnumbered = (x.toPlaced.move d).unnumbered ∧
        (d = 0 → x'.code = x.code)) lines lines' := by
  simp only [mapM_list_eq_ok_iff] at h ⊢
  obtain ⟨rfl, hcodes⟩ := h
  induction lines generalizing ps' with
  | nil =>
    rw [List.map_nil, List.map_nil, List.map_eq_nil_iff] at hps
    subst hps
    exact ⟨[], ⟨rfl, fun _ hx => absurd hx List.not_mem_nil⟩, List.Forall₂.nil⟩
  | cons x lines ih =>
    obtain ⟨p', ps', rfl, hp', hrest⟩ := List.map_eq_cons_iff.mp hps
    obtain ⟨code', hcode', hsame⟩ := Placed.exists_code_moved ht hp' (hcodes x List.mem_cons_self)
    obtain ⟨lines', ⟨hplaced, hlines'⟩, hmoved⟩ :=
      ih (fun y hy => hcodes y (List.mem_cons_of_mem _ hy)) hrest
    refine ⟨⟨p', code'⟩ :: lines', ⟨?_, List.forall_mem_cons.mpr ⟨hcode', hlines'⟩⟩,
      List.Forall₂.cons ⟨hp', hsame⟩ hmoved⟩
    rw [List.map_cons, hplaced]

end Layout

end Sic
