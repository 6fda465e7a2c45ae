import Sic.Proofs.Layout.Steps
import Sic.Proofs.Moved
import Sic.Proofs.Text.Returns

/-!
# A layout depends on the fields alone

How a source program is written, with what white space, remarks and blank lines, and what stands
before its `START`, shows in nothing but the numbers of lines.

* `unnumbered` forgets the numbers in an error or in a layout.  It commutes with everything that a
  layout is made by: the size of a statement (`size_unnumbered`), the entry of its label
  (`enter_unnumbered`), the run over the statements (`place_unnumbered`) and the whole
  (`ofStatements_unnumbered`).  Each of these is an equation between outcomes, so that it speaks
  of errors as well as of results.
* `ofSource_dropReturns`: statements do not depend on how lines end.
-/

set_option autoImplicit false

namespace Sic

open Text

/-! ## Forgetting the numbers of lines -/

/-- An error without the number of the line it arises in. -/
def ProgramError.unnumbered : ProgramError → ProgramError
  | .badOperand e => .badOperand { e with line := 0 }
  | .duplicate symbol _ previous => .duplicate symbol 0 previous
  | .undefined r => .undefined r.unnumbered

/-- A run of statements without the numbers of their lines. -/
def Layout.Run.unnumbered (run : Layout.Run) : Layout.Run :=
  { run with placed := run.placed.map Placed.unnumbered }

/-- A layout without the numbers of its lines. -/
def Layout.unnumbered (l : Layout) : Layout :=
  { l with placed := l.placed.map Placed.unnumbered }

/-- What comes out of a computation, with the number of the line forgotten in an error. -/
def forgetLine {α : Type} (r : Except ProgramError α) : Except ProgramError α :=
  r.mapError ProgramError.unnumbered

theorem forgetLine_map {α β : Type} (f : α → β) (r : Except ProgramError α) :
    forgetLine (r.map f) = (forgetLine r).map f := by
  cases r <;> rfl

/-! ## Statements -/

namespace Statement

variable (s : Statement)

theorem number_unnumbered (role : OperandRole) :
    s.unnumbered.number role = forgetLine (s.number role) := by
  have hoperand : s.unnumbered.operand = s.operand := rfl
  rw [number, number, hoperand]
  cases int32OfDigits? 10 s.operand <;> rfl

theorem count_unnumbered (role : OperandRole) :
    s.unnumbered.count role = forgetLine (s.count role) := by
  rw [count, count, number_unnumbered]
  cases s.number role with
  | error e => rfl
  | ok n =>
    show (if n < 0 then _ else _) = forgetLine (if n < 0 then _ else _)
    split <;> rfl

theorem startAddress_unnumbered :
    s.unnumbered.startAddress = forgetLine s.startAddress := by
  have hoperand : s.unnumbered.operand = s.operand := rfl
  rw [startAddress, startAddress, hoperand]
  cases int32OfDigits? 16 s.operand with
  | none => rfl
  | some a =>
    show (if a < 0 then _ else _) = forgetLine (if a < 0 then _ else _)
    split <;> rfl

theorem byteLiteral_unnumbered : s.unnumbered.byteLiteral = forgetLine s.byteLiteral := by
  have hoperand : s.unnumbered.operand = s.operand := rfl
  rw [byteLiteral, byteLiteral, hoperand]
  cases ByteLiteral.parse s.operand <;> rfl

theorem directiveSize_unnumbered : s.unnumbered.directiveSize = forgetLine s.directiveSize := by
  have hdirective : s.unnumbered.directive? = s.directive? := rfl
  rw [directiveSize, directiveSize, hdirective]
  split
  · rfl
  · rw [count_unnumbered, forgetLine_map]
  · rw [count_unnumbered]
  · rw [byteLiteral_unnumbered, forgetLine_map]
  · rfl

/-- The storage a statement takes does not depend on its line. -/
theorem size_unnumbered (table : OpcodeTable) :
    s.unnumbered.size table = forgetLine (s.size table) := by
  have hopcode : s.unnumbered.opcode = s.opcode := rfl
  rw [size, size, hopcode]
  split
  · rfl
  · exact s.directiveSize_unnumbered

end Statement

/-- Neither does the entry of its label. -/
theorem SymbolTable.enter_unnumbered (unique : Bool) (t : SymbolTable) (s : Statement) (a : Int) :
    t.enter unique s.unnumbered a = forgetLine (t.enter unique s a) := by
  have hlabelled : s.unnumbered.isLabelled = s.isLabelled := rfl
  have hlabel : s.unnumbered.label = s.label := rfl
  unfold enter
  rw [hlabelled, hlabel]
  split
  · cases unique <;> cases t.lookup s.label <;> rfl
  · rfl

/-! ## Layout -/

namespace Layout

variable (unique : Bool) (table : OpcodeTable)

/-- **Statements without numbers are placed like those with them.** -/
theorem place_unnumbered (a : Int) (t : SymbolTable) (ss : List Statement) :
    place unique table a t (ss.map Statement.unnumbered) =
      forgetLine ((place unique table a t ss).map Run.unnumbered) := by
  induction ss generalizing a t with
  | nil => rfl
  | cons s ss ih =>
    rw [List.map_cons, place, place, s.size_unnumbered]
    cases s.size table with
    | error e => rfl
    | ok size =>
      simp only [forgetLine, Except.mapError]
      rw [SymbolTable.enter_unnumbered]
      cases t.enter unique s a with
      | error e => rfl
      | ok symbols =>
        simp only [forgetLine, Except.mapError]
        rw [ih]
        cases place unique table (a + size) symbols ss <;> rfl

/-- **Statements without numbers are laid out like those with them.** -/
theorem ofStatements_unnumbered (ss : List Statement) :
    ofStatements unique table (ss.map Statement.unnumbered) =
      forgetLine ((ofStatements unique table ss).map Layout.unnumbered) := by
  cases ss with
  | nil => rfl
  | cons s ss =>
    rw [List.map_cons, ofStatements, ofStatements, s.startAddress_unnumbered]
    cases s.startAddress with
    | error e => rfl
    | ok start =>
      simp only [forgetLine, Except.mapError]
      rw [place_unnumbered]
      cases place unique table start .empty ss <;> rfl

end Layout

/-! ## Sources -/

/-- A line says the same with a return at its end. -/
theorem Statement.ofLine?_append_return (n : Int) (line : Text) :
    ofLine? n (line ++ [0x0D]) = ofLine? n line := by
  rw [ofLine?, ofLine?, fields_append_return]

/-- **Statements do not depend on how lines end.** -/
theorem Statement.ofSource_dropReturns (source : Text) :
    ofSource (dropReturns source) = ofSource source :=
  filterMap_lines_dropReturns (f := fun line n => ofLine? n line)
    (fun line n => ofLine?_append_return n line) source 1

namespace Layout

/-- **How a source is written does not matter.**  A carriage return before every line feed, or
before none, leaves the statements and the numbers of their lines as they are.  Two sources whose
statements from the first `START` on have the same fields are both laid out, or neither is.  If they
are, the programs and the symbols are equal, and so are the placed statements but for their lines;
if not, the errors are equal but for their lines. -/
theorem ofSource_same_fields (unique : Bool) (table : OpcodeTable) (source source' : Text) :
    Statement.ofSource (addReturns source) = Statement.ofSource source ∧
    Statement.ofSource (dropReturns source) = Statement.ofSource source ∧
    ((body source').map Statement.unnumbered = (body source).map Statement.unnumbered →
      (∃ l l', ofSource unique table source = .ok l ∧ ofSource unique table source' = .ok l' ∧
        l'.program = l.program ∧ l'.symbols = l.symbols ∧
        l'.placed.map Placed.unnumbered = l.placed.map Placed.unnumbered) ∨
      ∃ e e', ofSource unique table source = .error e ∧ ofSource unique table source' = .error e' ∧
        e'.unnumbered = e.unnumbered) := by
  refine ⟨?_, Statement.ofSource_dropReturns source, fun hbody => ?_⟩
  · rw [← Statement.ofSource_dropReturns (addReturns source), dropReturns_addReturns]
  · have hsame := ofStatements_unnumbered unique table (body source')
    rw [hbody, ofStatements_unnumbered, ← ofSource, ← ofSource] at hsame
    cases hl : ofSource unique table source with
    | error e =>
      cases hl' : ofSource unique table source' with
      | error e' =>
        rw [hl, hl'] at hsame
        exact Or.inr ⟨e, e', rfl, rfl, (Except.error.inj hsame).symm⟩
      | ok l' =>
        rw [hl, hl'] at hsame
        cases hsame
    | ok l =>
      cases hl' : ofSource unique table source' with
      | error e' =>
        rw [hl, hl'] at hsame
        cases hsame
      | ok l' =>
        rw [hl, hl'] at hsame
        have hequal : l'.unnumbered = l.unnumbered := (Except.ok.inj hsame).symm
        have hparts : l'.program = l.program ∧
            l'.placed.map Placed.unnumbered = l.placed.map Placed.unnumbered ∧
            l'.symbols = l.symbols := Layout.mk.inj hequal
        exact Or.inl ⟨l, l', rfl, rfl, hparts.1, hparts.2.2, hparts.2.1⟩

/-- A program that defines a label again. -/
def tidySource : Text := "P START 10\nA RESB 2\nA LDA A"

/-- The same program behind a bad statement and a remark, with a remark of its own, a blank line, a
carriage return too many and odd white space. -/
def untidySource : Text :=
  "Q RESB x\r\n. START\nP\tSTART 10 remark\n\nA RESB 2\r\r\n\x0BA\x0BLDA A\n"

/-- The two are laid out alike, and where labels must be unique they fail alike, on other lines. -/
theorem ofSource_same_fields_untidy :
    (∃ l l', ofSource false (.parse "LDA 00") tidySource = .ok l ∧
      ofSource false (.parse "LDA 00") untidySource = .ok l' ∧
      l'.program = l.program ∧ l'.symbols = l.symbols ∧
      l'.placed.map Placed.unnumbered = l.placed.map Placed.unnumbered) ∧
    ∃ e e', ofSource true (.parse "LDA 00") tidySource = .error e ∧
      ofSource true (.parse "LDA 00") untidySource = .error e' ∧
      e.line = 3 ∧ e'.line = 6 ∧ e'.unnumbered = e.unnumbered := by
  have hbody : (body untidySource).map Statement.unnumbered =
      (body tidySource).map Statement.unnumbered := by
    decide +kernel
  have hrun : (ofSource false (.parse "LDA 00") tidySource).toOption.map (fun _ => ()) =
      some () := by
    decide +kernel
  have hfail : (ofSource true (.parse "LDA 00") tidySource).map (fun _ => ()) =
        .error (.duplicate "A" 3 0x10) ∧
      (ofSource true (.parse "LDA 00") untidySource).map (fun _ => ()) =
        .error (.duplicate "A" 6 0x10) := by
    decide +kernel
  obtain ⟨l, hl, -⟩ := exists_ok_of_toOption hrun
  have he := map_eq_error_iff.mp hfail.1
  have he' := map_eq_error_iff.mp hfail.2
  refine ⟨?_, _, _, he, he', rfl, rfl, ?_⟩
  · rcases (ofSource_same_fields false _ _ _).2.2 hbody with hok | ⟨e, e', herror, -⟩
    · exact hok
    · exact absurd (hl.symm.trans herror) (by simp)
  · rcases (ofSource_same_fields true _ _ _).2.2 hbody with ⟨l, l', hok, -⟩ | ⟨e, e', h, h', hsame⟩
    · exact absurd (he.symm.trans hok) (by simp)
    · rw [← Except.error.inj (he.symm.trans h), ← Except.error.inj (he'.symm.trans h')] at hsame
      exact hsame

end Layout

end Sic
