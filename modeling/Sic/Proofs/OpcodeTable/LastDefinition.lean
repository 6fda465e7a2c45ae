import Mathlib.Data.Set.Card
import Mathlib.Logic.Relation
import Sic.Proofs.LastEntry
import Sic.Proofs.OpcodeTable.Format
import Sic.Proofs.Text.Returns

/-!
# Which lines of a table count

Reading a table passes over what it cannot use and lets later lines replace earlier ones, all without
a word.  Here is what it holds in the end, said of the lines of its text.

* `Defines` is what a line has to look like to count, and `readableLines` are the lines up to one
  that is too long.  `load_eq_foldl` reads them one by one: neither a carriage return at the end of a
  line nor the empty line behind the last line feed makes a difference.
* `lookup_load`: the code of a mnemonic is that of the last line that defines it.
* `size_eq_ncard` counts the mnemonics.
* `Rearranged` is a change of the text that does not matter: lines with different mnemonics are put
  into another order, or a line that defines nothing is put in.  `isLast_of_rearranged` is the step,
  and `lookup_load_of_rearranged` follows for any number of such changes.
-/

set_option autoImplicit false

namespace Sic.OpcodeTable

open Text

/-! ## Lines that count -/

/-- A line that gives a mnemonic its code: two fields, the second of them hexadecimal. -/
def Defines (line mnemonic code : Text) : Prop :=
  fields line = [mnemonic, code] ∧ isHexNumber code = true

instance (line mnemonic code : Text) : Decidable (Defines line mnemonic code) :=
  inferInstanceAs (Decidable (_ ∧ _))

theorem Defines.head?_fields {line mnemonic code : Text} (h : Defines line mnemonic code) :
    (fields line).head? = some mnemonic := by
  rw [h.1, List.head?_cons]

/-- The lines of a text up to one that is too long. -/
def readableLines (source : Text) : List Text :=
  (lines source).takeWhile (·.length < lineLimit)

theorem parse_eq_entry_iff {line mnemonic code : Text} :
    Line.parse line = .entry mnemonic code ↔ Defines line mnemonic code := by
  constructor
  · intro h
    exact ⟨fields_of_parse_eq_entry h, isHexNumber_of_parse_eq_entry h⟩
  · rintro ⟨hfields, hcode⟩
    rw [Line.parse, hfields]
    exact if_pos hcode

/-- Adds what a line of the text says. -/
def readLine (t : OpcodeTable) (line : Text) : OpcodeTable := t.addLine (Line.parse line)

/-- **What reading one line does.** -/
theorem lookup_readLine (t : OpcodeTable) (line mnemonic code : Text) :
    (t.readLine line).lookup mnemonic = some code ↔
      Defines line mnemonic code ∨
        t.lookup mnemonic = some code ∧ ∀ other, ¬ Defines line mnemonic other := by
  simp only [← parse_eq_entry_iff, readLine]
  cases Line.parse line with
  | entry m c =>
    rw [lookup_addLine_entry]
    by_cases hm : m = mnemonic
    · simp [hm]
    · simp [hm]
  | _ => simp [addLine]

theorem readLine_nil (t : OpcodeTable) : t.readLine [] = t := rfl

theorem fields_dropReturn (line : Text) : fields (dropReturn line) = fields line := by
  rw [dropReturn]
  split
  · rename_i hlast
    obtain ⟨init, rfl⟩ := List.getLast?_eq_some_iff.mp hlast
    rw [List.dropLast_concat, fields_append_return]
  · rfl

/-- A carriage return at the end of a line does not change what the line says. -/
theorem readLine_dropReturn (t : OpcodeTable) (line : Text) :
    t.readLine (dropReturn line) = t.readLine line := by
  rw [readLine, readLine, Line.parse, Line.parse, fields_dropReturn]
  split
  · rfl
  · rfl
  · rfl

/-- **A table is read line by line.** -/
theorem load_eq_foldl (t : OpcodeTable) (source : Text) :
    t.load source = (readableLines source).foldl readLine empty := by
  have hreturn : (fun t line => addLine t (Line.parse (dropReturn line))) = readLine :=
    funext fun t => funext (readLine_dropReturn t)
  rw [load_eq, parsedLines, sourceLines, List.foldl_map, List.foldl_map, hreturn, readableLines]
  split
  · -- The last line is empty, and whether it is reached or not it says nothing.
    rename_i hlast
    obtain ⟨init, hinit⟩ := List.getLast?_eq_some_iff.mp hlast
    rw [hinit, List.dropLast_concat, List.takeWhile_append]
    split
    · rename_i hlength
      rw [(List.takeWhile_prefix _).eq_of_length hlength, List.foldl_append]
      exact (readLine_nil _).symm
    · rfl
  · rfl

/-- **The last line that defines a mnemonic counts.** -/
theorem lookup_load (t : OpcodeTable) (source mnemonic code : Text) :
    (t.load source).lookup mnemonic = some code ↔
      IsLast Defines (readableLines source) mnemonic code := by
  rw [load_eq_foldl, lookup_foldl_iff lookup_readLine, lookup_empty]
  simp

/-- What no line defines has no code. -/
theorem lookup_load_eq_none_iff (t : OpcodeTable) (source mnemonic : Text) :
    (t.load source).lookup mnemonic = none ↔
      ∀ line ∈ readableLines source, ∀ code, ¬ Defines line mnemonic code := by
  rw [Option.eq_none_iff_forall_ne_some]
  simp only [ne_eq, lookup_load]
  rw [← not_exists, exists_isLast_iff]
  simp only [not_exists, not_and]

/-- The size of a table is the number of its mnemonics. -/
theorem size_eq_ncard (t : OpcodeTable) :
    t.size = {mnemonic | ∃ code, t.lookup mnemonic = some code}.ncard := by
  have hnodup : t.mnemonics.Nodup :=
    Std.TreeMap.ordered_keys.imp fun {a b} (hlt : compare a b = .lt) (heq : a = b) =>
      absurd hlt (by rw [heq, Std.compare_self]; decide)
  have hset : {mnemonic | ∃ code, t.lookup mnemonic = some code} = ↑t.mnemonics.toFinset := by
    ext mnemonic
    rw [List.coe_toFinset, Set.mem_ofPred_eq, Set.mem_ofPred_eq, mnemonics, Std.TreeMap.mem_keys,
      Std.TreeMap.mem_iff_isSome_getElem?, Option.isSome_iff_exists]
    rfl
  rw [hset, Set.ncard_coe_finset, List.toFinset_card_of_nodup hnodup]
  exact Std.TreeMap.length_keys.symm

/-! ## Changes that do not matter -/

/-- Lines that do not define the same mnemonic. -/
def Unlike (line line' : Text) : Prop :=
  ∀ mnemonic code code', Defines line mnemonic code → ¬ Defines line' mnemonic code'

theorem Unlike.symm {line line' : Text} (h : Unlike line line') : Unlike line' line :=
  fun mnemonic code code' hdefines hdefines' => h mnemonic code' code hdefines' hdefines

/-- Lines of which some that stand together, and define different mnemonics, have been put into
another order, or among which there is a new one that defines none and is not too long. -/
inductive Rearranged : List Text → List Text → Prop where
  | reorder (before after : List Text) {block block' : List Text} (hperm : block.Perm block')
      (h : block.Pairwise Unlike) : Rearranged (before ++ block ++ after) (before ++ block' ++ after)
  | insert (before after : List Text) {line : Text}
      (h : ∀ mnemonic code, ¬ Defines line mnemonic code) (hshort : line.length < lineLimit) :
      Rearranged (before ++ after) (before ++ line :: after)

/-- The last line for each mnemonic stays what it was. -/
theorem isLast_of_rearranged {ls ls' : List Text} (h : Rearranged ls ls') (mnemonic code : Text) :
    IsLast Defines ls' mnemonic code ↔ IsLast Defines ls mnemonic code := by
  cases h with
  | @reorder before after block block' hperm h =>
    have h' : block'.Pairwise Unlike := hperm.pairwise h fun hunlike => hunlike.symm
    have hlast : IsLast Defines block' mnemonic code ↔ IsLast Defines block mnemonic code := by
      simp only [isLast_iff_of_pairwise h, isLast_iff_of_pairwise h', hperm.mem_iff]
    have hsilent : Silent Defines block' mnemonic ↔ Silent Defines block mnemonic := by
      simp only [Silent, hperm.mem_iff]
    simp only [isLast_append, hlast, hsilent]
  | insert before after h =>
    have hsilent := h mnemonic
    simp only [isLast_append, isLast_cons, silent_cons]
    grind

theorem short_of_rearranged {ls ls' : List Text} (h : Rearranged ls ls')
    (hshort : ∀ line ∈ ls, line.length < lineLimit) : ∀ line ∈ ls', line.length < lineLimit := by
  cases h with
  | reorder before after hperm h =>
    intro line hline
    refine hshort line ?_
    simpa only [List.mem_append, hperm.mem_iff] using hline
  | insert before after h hline =>
    simp only [List.forall_mem_append, List.forall_mem_cons] at hshort ⊢
    exact ⟨hshort.1, hline, hshort.2⟩

/-- Any number of such changes. -/
theorem isLast_of_reflTransGen {ls ls' : List Text} (h : Relation.ReflTransGen Rearranged ls ls')
    (hshort : ∀ line ∈ ls, line.length < lineLimit) :
    (∀ line ∈ ls', line.length < lineLimit) ∧
      ∀ mnemonic code, IsLast Defines ls' mnemonic code ↔ IsLast Defines ls mnemonic code := by
  induction h with
  | refl => exact ⟨hshort, fun _ _ => Iff.rfl⟩
  | tail _ hstep ih =>
    obtain ⟨hshort, hlast⟩ := ih
    exact ⟨short_of_rearranged hstep hshort, fun mnemonic code =>
      (isLast_of_rearranged hstep mnemonic code).trans (hlast mnemonic code)⟩

theorem readableLines_eq_lines {source : Text}
    (h : ∀ line ∈ lines source, line.length < lineLimit) : readableLines source = lines source :=
  List.takeWhile_eq_self_iff.mpr fun line hline => decide_eq_true (h line hline)

/-- **The table is the same after such changes.** -/
theorem lookup_load_of_rearranged {source other : Text}
    (hshort : ∀ line ∈ lines source, line.length < lineLimit)
    (h : Relation.ReflTransGen Rearranged (lines source) (lines other)) (t t' : OpcodeTable)
    (mnemonic : Text) : (t'.load other).lookup mnemonic = (t.load source).lookup mnemonic := by
  obtain ⟨hshort', hlast⟩ := isLast_of_reflTransGen h hshort
  refine Option.ext fun code => ?_
  rw [lookup_load, lookup_load, readableLines_eq_lines hshort, readableLines_eq_lines hshort',
    hlast]

/-- **What a table holds once it is read.**  Whatever it held before, a mnemonic has a code exactly
if a line gives it one that stands before any line that is too long, and then it is the code of the
last such line; the size is the number of the mnemonics that have one.  So if no line is too long,
lines with different mnemonics may stand in any order, and lines of any other shape may be put
in. -/
theorem load_last_definition (t : OpcodeTable) (source : Text) :
    (∀ mnemonic code, (t.load source).lookup mnemonic = some code ↔
      ∃ before line after, readableLines source = before ++ line :: after ∧
        Defines line mnemonic code ∧ ∀ line' ∈ after, ∀ code', ¬ Defines line' mnemonic code') ∧
    (∀ mnemonic, (t.load source).lookup mnemonic = none ↔
      ∀ line ∈ readableLines source, ∀ code, ¬ Defines line mnemonic code) ∧
    (t.load source).size =
      {mnemonic | ∃ line ∈ readableLines source, ∃ code, Defines line mnemonic code}.ncard ∧
    ((∀ line ∈ lines source, line.length < lineLimit) → ∀ (t' : OpcodeTable) (other : Text),
      Relation.ReflTransGen Rearranged (lines source) (lines other) →
      (∀ mnemonic, (t'.load other).lookup mnemonic = (t.load source).lookup mnemonic) ∧
      (t'.load other).size = (t.load source).size) := by
  refine ⟨lookup_load t source, lookup_load_eq_none_iff t source, ?_, fun hshort t' other h => ?_⟩
  · rw [size_eq_ncard]
    simp only [lookup_load, exists_isLast_iff]
  · have hlookup := lookup_load_of_rearranged hshort h t t'
    refine ⟨hlookup, ?_⟩
    rw [size_eq_ncard, size_eq_ncard]
    simp only [hlookup]

/-- A definition behind a line that is too long. -/
def overlong : Text := unlines ["LDA 00", List.replicate lineLimit 0x41, "STA 0C"]

theorem readableLines_overlong : readableLines overlong = [ofAscii "LDA 00"] := by
  have hlong : (0x0A : UInt8) ∉ List.replicate lineLimit (0x41 : UInt8) := fun h =>
    absurd (List.eq_of_mem_replicate h) (by decide)
  have hlines : lines overlong =
      ofAscii "LDA 00" :: List.replicate lineLimit 0x41 :: [ofAscii "STA 0C", []] :=
    lines_unlines (List.forall_mem_cons.mpr ⟨by decide, List.forall_mem_cons.mpr
      ⟨hlong, List.forall_mem_singleton.mpr (by decide)⟩⟩)
  rw [readableLines, hlines, List.takeWhile_cons_of_pos (by decide),
    List.takeWhile_cons_of_neg (by rw [List.length_replicate]; decide)]

/-- A mnemonic given twice, with another between. -/
def repeated : Text := "LDA 00\nSTA 0C\r\nLDA 01"

/-- The first two lines in the other order, and a line that defines nothing. -/
def rearranged : Text := "STA 0C\r\n. no code\nLDA 00\nLDA 01"

theorem rearranged_repeated :
    Relation.ReflTransGen Rearranged (lines repeated) (lines rearranged) := by
  have hlines : lines repeated = [ofAscii "LDA 00", ofAscii "STA 0C\r", ofAscii "LDA 01"] := by
    decide +kernel
  have hlines' : lines rearranged =
      [ofAscii "STA 0C\r", ofAscii ". no code", ofAscii "LDA 00", ofAscii "LDA 01"] := by
    decide +kernel
  have hswap : Rearranged (lines repeated)
      [ofAscii "STA 0C\r", ofAscii "LDA 00", ofAscii "LDA 01"] := by
    rw [hlines]
    refine .reorder [] [ofAscii "LDA 01"] (.swap _ _ []) (List.pairwise_pair.mpr ?_)
    intro mnemonic code code' hfirst hsecond
    exact absurd (hfirst.head?_fields.trans hsecond.head?_fields.symm) (by decide +kernel)
  have hinsert : Rearranged [ofAscii "STA 0C\r", ofAscii "LDA 00", ofAscii "LDA 01"]
      (lines rearranged) := by
    rw [hlines']
    refine .insert [ofAscii "STA 0C\r"] _ (fun mnemonic code hdefines => ?_) (by decide)
    have hlength : (fields ". no code").length = 2 := congrArg List.length hdefines.1
    exact absurd hlength (by decide +kernel)
  exact (Relation.ReflTransGen.single hswap).tail hinsert

theorem load_last_definition_rearranged :
    (∀ mnemonic, ((parse "JMP 3C").load rearranged).lookup mnemonic =
        (empty.load repeated).lookup mnemonic) ∧
      (empty.load repeated).lookup "LDA" = some (ofAscii "01") ∧
      ((parse "JMP 3C").load overlong).lookup "LDA" = some (ofAscii "00") ∧
      ((parse "JMP 3C").load overlong).lookup "STA" = none ∧
      ((parse "JMP 3C").load overlong).lookup "JMP" = none := by
  obtain ⟨hlast, -, -, hsame⟩ := load_last_definition empty repeated
  obtain ⟨hlast', hnone, -⟩ := load_last_definition (parse "JMP 3C") overlong
  have hshort : ∀ line ∈ lines repeated, line.length < lineLimit := by decide +kernel
  have hother {mnemonic : Text} (h : mnemonic ≠ "LDA") :
      ∀ line ∈ readableLines overlong, ∀ code, ¬ Defines line mnemonic code := by
    rw [readableLines_overlong, List.forall_mem_singleton]
    intro code hdefines
    have hhead : (fields "LDA 00").head? = some (ofAscii "LDA") := by decide +kernel
    exact h (Option.some_inj.mp (hdefines.head?_fields.symm.trans hhead))
  refine ⟨(hsame hshort _ _ rearranged_repeated).1, (hlast _ _).mpr ?_, (hlast' _ _).mpr ?_,
    (hnone _).mpr (hother (by decide)), (hnone _).mpr (hother (by decide))⟩
  · exact ⟨["LDA 00", "STA 0C\r"], "LDA 01", [], by decide +kernel, by decide +kernel,
      fun _ h => absurd h List.not_mem_nil⟩
  · exact ⟨[], "LDA 00", [], readableLines_overlong, by decide +kernel,
      fun _ h => absurd h List.not_mem_nil⟩

end Sic.OpcodeTable
