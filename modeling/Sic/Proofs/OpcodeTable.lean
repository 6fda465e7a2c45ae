import Sic.OpcodeTable
import Sic.Statement

/-!
# Opcode tables that are read

* `IsRead` are the tables that can be read, on their own or in the place of others.
* `mem_of_lookup_load`: an instruction of a table that is read stands on a line of its text.
* `isHexadecimal_parse`: the codes of a table that is read are hexadecimal numbers.
* `IsRegular` is what a table needs for every instruction to take a word, and `isRegular_parse`
  says when a table that is read is regular.
-/

set_option autoImplicit false

namespace Sic.OpcodeTable

theorem lookup_empty (mnemonic : Text) : empty.lookup mnemonic = none :=
  Std.TreeMap.getElem?_emptyc

/-- Nothing stays of the table that is replaced. -/
theorem load_eq (t : OpcodeTable) (source : Text) :
    t.load source = (parsedLines source).foldl addLine empty :=
  rfl

theorem lookup_addLine_entry (t : OpcodeTable) (mnemonic code other : Text) :
    (t.addLine (.entry mnemonic code)).lookup other =
      if mnemonic = other then some code else t.lookup other := by
  rw [addLine, lookup, Std.TreeMap.getElem?_insert]
  by_cases h : mnemonic = other
  · rw [if_pos (Std.LawfulEqCmp.compare_eq_iff_eq.mpr h), if_pos h]
  · rw [if_neg (mt Std.LawfulEqCmp.compare_eq_iff_eq.mp h), if_neg h]
    rfl

theorem lookup_addLine {t : OpcodeTable} {line : Line} {mnemonic code : Text}
    (h : (t.addLine line).lookup mnemonic = some code) :
    t.lookup mnemonic = some code ∨ line = .entry mnemonic code := by
  cases line with
  | entry mnemonic' code' =>
    rw [lookup_addLine_entry] at h
    split at h
    · rename_i heq
      cases heq
      exact Or.inr (congrArg _ (Option.some_inj.mp h))
    · exact Or.inl h
  | _ => exact Or.inl h

theorem lookup_foldl_addLine {lines : List Line} {t : OpcodeTable} {mnemonic code : Text}
    (h : (lines.foldl addLine t).lookup mnemonic = some code) :
    t.lookup mnemonic = some code ∨ Line.entry mnemonic code ∈ lines := by
  induction lines generalizing t with
  | nil => exact Or.inl h
  | cons line lines ih =>
    rcases ih h with h | h
    · rcases lookup_addLine h with h | rfl
      · exact Or.inl h
      · exact Or.inr List.mem_cons_self
    · exact Or.inr (List.mem_cons_of_mem _ h)

/-- A table that was read from a text, on its own or in the place of another. -/
inductive IsRead : OpcodeTable → Prop
  | parse (source : Text) : IsRead (OpcodeTable.parse source)
  | load (previous : OpcodeTable) (source : Text) : IsRead (previous.load source)

theorem IsRead.exists_load {t : OpcodeTable} (h : t.IsRead) :
    ∃ (previous : OpcodeTable) (source : Text), t = previous.load source := by
  cases h with
  | parse source => exact ⟨empty, source, rfl⟩
  | load previous source => exact ⟨previous, source, rfl⟩

/-- Every instruction of a table stands on a line of its text. -/
theorem mem_of_lookup_load {previous : OpcodeTable} {source mnemonic code : Text}
    (h : (previous.load source).lookup mnemonic = some code) :
    Line.entry mnemonic code ∈ parsedLines source := by
  rw [load_eq] at h
  rcases lookup_foldl_addLine h with h | h
  · rw [lookup_empty] at h
    cases h
  · exact h

/-- A table whose codes are hexadecimal numbers. -/
def IsHexadecimal (t : OpcodeTable) : Prop :=
  ∀ mnemonic code, t.lookup mnemonic = some code → Text.isHexNumber code = true

theorem IsHexadecimal.length_pos {t : OpcodeTable} (ht : t.IsHexadecimal) {mnemonic code : Text}
    (h : t.lookup mnemonic = some code) : 0 < code.length := by
  have hcode := ht mnemonic code h
  rw [Text.isHexNumber, Bool.and_eq_true] at hcode
  exact List.length_pos_iff.mpr (by simpa using hcode.1)

theorem isHexNumber_of_parse_eq_entry {t mnemonic code : Text}
    (h : Line.parse t = .entry mnemonic code) : Text.isHexNumber code = true := by
  rw [Line.parse] at h
  split at h
  · cases h
  · split at h
    · cases h
      assumption
    · cases h
  · cases h

/-- **The codes of a table that is read are hexadecimal numbers.** -/
theorem isHexadecimal_parse (t : Text) : (parse t).IsHexadecimal := by
  intro mnemonic code h
  obtain ⟨line, -, hline⟩ := List.mem_map.mp (mem_of_lookup_load h)
  exact isHexNumber_of_parse_eq_entry hline

/-- A table whose codes have one or two hexadecimal digits and that has no instruction of the name
of the directive that begins a program. -/
structure IsRegular (t : OpcodeTable) : Prop where
  hexadecimal : t.IsHexadecimal
  short : ∀ mnemonic code, t.lookup mnemonic = some code → code.length ≤ 2
  no_start : ∀ mnemonic code, t.lookup mnemonic = some code → Text.upperAscii mnemonic ≠ "START"

/-- Whether a line of a table may stand in a regular one. -/
def Line.isRegular : Line → Bool
  | .entry mnemonic code => code.length ≤ 2 && Text.upperAscii mnemonic ≠ "START"
  | _ => true

theorem isRegular_parse {t : Text} (h : (parsedLines t).all Line.isRegular = true) :
    (parse t).IsRegular := by
  have hline {mnemonic code : Text} (hlookup : (parse t).lookup mnemonic = some code) :
      code.length ≤ 2 ∧ Text.upperAscii mnemonic ≠ "START" := by
    simpa [Line.isRegular] using List.all_eq_true.mp h _ (mem_of_lookup_load hlookup)
  exact ⟨isHexadecimal_parse t, fun _ _ h => (hline h).1, fun _ _ h => (hline h).2⟩

theorem isStart_of_lookup {t : OpcodeTable} (ht : ∀ mnemonic code,
    t.lookup mnemonic = some code → Text.upperAscii mnemonic ≠ "START") {s : Statement}
    {code : Text} (h : t.lookup s.opcode = some code) : s.isStart = false := by
  have hstart := ht _ _ h
  rw [Statement.isStart, Statement.directive?, Directive.ofOpcode?]
  simp only [if_neg hstart]
  repeat' split
  all_goals rfl

end Sic.OpcodeTable
