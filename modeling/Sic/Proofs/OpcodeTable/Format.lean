import Mathlib.Data.List.TakeWhile
import Sic.Proofs.OpcodeTable
import Sic.Proofs.Text.Digits
import Sic.Proofs.Text.Fields

/-!
# The text of an opcode table

A table is written one instruction a line, in the order of the mnemonics, and read back line by
line.  A mnemonic may hold any bytes but white space and a code may have any number of digits, so
what has to be shown is that the written lines are those that reading accepts.

* `IsEntry` is what an instruction needs to stand on a line of its own: the mnemonic is a word, the
  code is hexadecimal, and the line is not too long.  `isEntry_of_lookup` says that a table that is
  read holds nothing else: a line that is written is never longer than the line it comes from.
* `parsedLines_entries`: lines that are written are read as the entries they were written from.
* `lookup_foldl_entries`: reading entries with distinct mnemonics leads to a table with just these.
* `text_eq_of_lookup_eq`: the text depends on what the instructions are and not on how the table
  came to have them.
-/

set_option autoImplicit false

namespace Sic

/-- Texts are ordered byte by byte. -/
theorem Text.compare_eq_lt_iff (s t : Text) : compare s t = .lt ↔ s < t := by
  induction s generalizing t with
  | nil => cases t <;> simp
  | cons a s ih =>
    cases t with
    | nil => simp
    | cons b t =>
      rw [List.compare_cons_cons, Ordering.then_eq_lt, List.cons_lt_cons_iff, ih,
        Std.compare_eq_lt, Std.compare_eq_iff_eq]

namespace OpcodeTable

open Text

/-! ## Lines of a table -/

/-- An instruction that can stand on a line of a table. -/
structure IsEntry (mnemonic code : Text) : Prop where
  word : IsWord mnemonic
  hexadecimal : isHexNumber code = true
  short : mnemonic.length + 1 + code.length < lineLimit

/-- A line with an instruction. -/
def entryLine (e : Text × Text) : Text := e.1 ++ "\t" ++ e.2

theorem length_dropReturn_le (t : Text) : (dropReturn t).length ≤ t.length := by
  rw [dropReturn]
  split
  · simp
  · exact Nat.le_refl _

/-- The lines of a table are not too long. -/
theorem length_of_mem_sourceLines {t line : Text} (h : line ∈ sourceLines t) :
    line.length < lineLimit := by
  obtain ⟨source, hsource, rfl⟩ := List.mem_map.mp h
  have hlimit := List.all_eq_true.mp List.all_takeWhile source hsource
  exact Nat.lt_of_le_of_lt (length_dropReturn_le source) (by simpa using hlimit)

theorem fields_of_parse_eq_entry {t mnemonic code : Text}
    (h : Line.parse t = .entry mnemonic code) : fields t = [mnemonic, code] := by
  rw [Line.parse] at h
  split at h
  · cases h
  · rename_i hfields
    split at h
    · cases h
      exact hfields
    · cases h
  · cases h

/-- **What stands on a line can stand on a line that is written.** -/
theorem isEntry_of_mem_parsedLines {t mnemonic code : Text}
    (h : Line.entry mnemonic code ∈ parsedLines t) : IsEntry mnemonic code := by
  obtain ⟨line, hline, hparse⟩ := List.mem_map.mp h
  have hfields := fields_of_parse_eq_entry hparse
  have hroom := length_fields_le line
  have hlimit := length_of_mem_sourceLines hline
  refine ⟨isWord_of_mem_fields (hfields ▸ List.mem_cons_self),
    isHexNumber_of_parse_eq_entry hparse, ?_⟩
  rw [hfields] at hroom
  simp at hroom
  omega

theorem isEntry_of_lookup {t : OpcodeTable} (ht : t.IsRead) {mnemonic code : Text}
    (h : t.lookup mnemonic = some code) : IsEntry mnemonic code := by
  obtain ⟨previous, source, rfl⟩ := ht.exists_load
  exact isEntry_of_mem_parsedLines (mem_of_lookup_load h)

/-! ## Reading what is written -/

theorem not_mem_of_isHexNumber {code : Text} (h : isHexNumber code = true) {b : UInt8}
    (hb : isHexDigit b = false) : b ∉ code := by
  rw [isHexNumber, Bool.and_eq_true] at h
  intro hmem
  rw [List.all_eq_true.mp h.2 b hmem] at hb
  cases hb

theorem isWord_of_isHexNumber {code : Text} (h : isHexNumber code = true) : IsWord code := by
  rw [isHexNumber, Bool.and_eq_true] at h
  exact isWord_of_solid (by simpa using h.1) fun b hb =>
    isSolid_of_isHexDigit (List.all_eq_true.mp h.2 b hb)

section Entry

variable {mnemonic code : Text}

theorem IsEntry.fields_line (h : IsEntry mnemonic code) :
    fields (entryLine (mnemonic, code)) = [mnemonic, code] := by
  have hline : entryLine (mnemonic, code) = mnemonic ++ 0x09 :: code := by
    rw [entryLine, List.append_assoc]
    rfl
  rw [hline, fields_append_blank rfl, h.word.fields_eq,
    (isWord_of_isHexNumber h.hexadecimal).fields_eq]
  rfl

theorem IsEntry.parse_line (h : IsEntry mnemonic code) :
    Line.parse (entryLine (mnemonic, code)) = .entry mnemonic code := by
  rw [Line.parse, h.fields_line]
  exact if_pos h.hexadecimal

theorem IsEntry.length_line (h : IsEntry mnemonic code) :
    (entryLine (mnemonic, code)).length < lineLimit := by
  have hshort := h.short
  simp only [entryLine, List.length_append]
  exact hshort

/-- A written line holds no line feed. -/
theorem IsEntry.feed_not_mem (h : IsEntry mnemonic code) :
    (0x0A : UInt8) ∉ entryLine (mnemonic, code) := by
  have hcode := not_mem_of_isHexNumber h.hexadecimal (b := 0x0A) rfl
  simp only [entryLine, List.mem_append, not_or]
  exact ⟨⟨h.word.not_mem_of_blank rfl, by decide⟩, hcode⟩

/-- A written line ends with a digit, so there is no carriage return to drop. -/
theorem IsEntry.dropReturn_line (h : IsEntry mnemonic code) :
    dropReturn (entryLine (mnemonic, code)) = entryLine (mnemonic, code) := by
  have hne : code ≠ [] := (isWord_of_isHexNumber h.hexadecimal).ne_nil
  have hcode := not_mem_of_isHexNumber h.hexadecimal (b := 0x0D) rfl
  rw [dropReturn, if_neg]
  intro hlast
  have hcodeLast := List.getLast?_eq_some_getLast hne
  rw [entryLine, List.getLast?_append, hcodeLast, Option.some_or] at hlast
  exact hcode (List.mem_of_getLast? (hcodeLast.trans hlast))

end Entry

/-- **Lines that are written are read as the entries they were written from.** -/
theorem parsedLines_entries {entries : List (Text × Text)}
    (h : ∀ e ∈ entries, IsEntry e.1 e.2) :
    parsedLines (unlines (entries.map entryLine)) = entries.map fun e => .entry e.1 e.2 := by
  have hlines : lines (unlines (entries.map entryLine)) = entries.map entryLine ++ [[]] :=
    lines_unlines (List.forall_mem_map.mpr fun e he => (h e he).feed_not_mem)
  have hshort : (entries.map entryLine).takeWhile (·.length < lineLimit) =
      entries.map entryLine :=
    List.takeWhile_eq_self_iff.mpr
      (List.forall_mem_map.mpr fun e he => by simpa using (h e he).length_line)
  rw [parsedLines, sourceLines, hlines]
  simp only [List.getLast?_append, List.getLast?_singleton, Option.some_or, if_true,
    List.dropLast_concat]
  rw [hshort, List.map_map, List.map_map]
  exact List.map_congr_left fun e he => by
    rw [Function.comp_apply, Function.comp_apply, (h e he).dropReturn_line, (h e he).parse_line]

/-! ## Tables with given entries -/

/-- Entries with distinct mnemonics are added to what a table has. -/
theorem lookup_foldl_entries {entries : List (Text × Text)} (h : (entries.map Prod.fst).Nodup)
    (t : OpcodeTable) (mnemonic code : Text) :
    ((entries.map fun e => Line.entry e.1 e.2).foldl addLine t).lookup mnemonic = some code ↔
      (mnemonic, code) ∈ entries ∨
        (t.lookup mnemonic = some code ∧ mnemonic ∉ entries.map Prod.fst) := by
  induction entries generalizing t with
  | nil => simp
  | cons e entries ih =>
    obtain ⟨hnew, hnodup⟩ := List.nodup_cons.mp h
    rw [List.map_cons, List.foldl_cons, ih hnodup, lookup_addLine_entry]
    obtain ⟨first, firstCode⟩ := e
    by_cases hfirst : first = mnemonic
    · subst hfirst
      have hnot (c : Text) : (first, c) ∉ entries := fun hmem =>
        hnew (List.mem_map.mpr ⟨(first, c), hmem, rfl⟩)
      have hkeys : first ∉ entries.map Prod.fst := hnew
      simp [hnot, hkeys, eq_comm]
    · have hother : mnemonic ≠ first := Ne.symm hfirst
      simp [hfirst, hother]

theorem mem_toList_iff {t : OpcodeTable} {mnemonic code : Text} :
    (mnemonic, code) ∈ t.toList ↔ t.lookup mnemonic = some code :=
  Std.TreeMap.mem_toList_iff_getElem?_eq_some

/-- Mnemonics are listed in order, each once. -/
theorem pairwise_toList (t : OpcodeTable) : (t.toList.map Prod.fst).Pairwise (· < ·) := by
  rw [List.pairwise_map]
  exact Std.TreeMap.ordered_keys_toList.imp fun h => (compare_eq_lt_iff _ _).mp h

/-- **Tables with the same instructions have the same text.** -/
theorem text_eq_of_lookup_eq {t t' : OpcodeTable} (h : ∀ m, t.lookup m = t'.lookup m) :
    t.text = t'.text := by
  have hequiv : t.codes.Equiv t'.codes := Std.TreeMap.Equiv.of_forall_constGet?_eq h
  rw [text, text, toList, toList, hequiv.toList_eq]

theorem text_eq_unlines (t : OpcodeTable) : t.text = unlines (t.toList.map entryLine) := rfl

/-- A table whose instructions can stand on lines is read back from its text. -/
theorem lookup_parse_text {t : OpcodeTable}
    (h : ∀ mnemonic code, t.lookup mnemonic = some code → IsEntry mnemonic code)
    (mnemonic : Text) : (parse t.text).lookup mnemonic = t.lookup mnemonic := by
  have hentries : ∀ e ∈ t.toList, IsEntry e.1 e.2 := fun e he => h e.1 e.2 (mem_toList_iff.mp he)
  have hnodup : (t.toList.map Prod.fst).Nodup :=
    (pairwise_toList t).imp fun {a b} (hlt : a < b) (heq : a = b) => List.lt_irrefl b (heq ▸ hlt)
  refine Option.ext fun code => ?_
  rw [parse, load_eq, text_eq_unlines, parsedLines_entries hentries, lookup_foldl_entries hnodup,
    mem_toList_iff, lookup_empty]
  simp

/-- **A table is read back from its text.**  Whatever text a table was read from, on its own or in
the place of another table, its own text has a line for each of its instructions and no other, in
strictly increasing order of the mnemonics, and is read as a table with the same instructions.
Tables with the same instructions have the same text, in whatever order and however often these were
given, and whatever stood in their place before. -/
theorem parse_text_of_isRead {t : OpcodeTable} (ht : t.IsRead) :
    (∀ mnemonic, (parse t.text).lookup mnemonic = t.lookup mnemonic) ∧
    (∃ entries : List (Text × Text),
      t.text = unlines (entries.map fun e => e.1 ++ "\t" ++ e.2) ∧
      parsedLines t.text = entries.map (fun e => Line.entry e.1 e.2) ∧
      (entries.map Prod.fst).Pairwise (· < ·) ∧
      ∀ mnemonic code, (mnemonic, code) ∈ entries ↔ t.lookup mnemonic = some code) ∧
    ∀ other : OpcodeTable, (∀ mnemonic, other.lookup mnemonic = t.lookup mnemonic) →
      other.text = t.text := by
  refine ⟨lookup_parse_text fun _ _ h => isEntry_of_lookup ht h,
    ⟨t.toList, rfl, ?_, pairwise_toList _, fun _ _ => mem_toList_iff⟩,
    fun _ h => text_eq_of_lookup_eq h⟩
  exact parsedLines_entries fun e he => isEntry_of_lookup ht (mem_toList_iff.mp he)

/-- Two instructions out of order, one of them given twice, with a line that is no instruction and
white space of three bytes among them. -/
def shuffledSource : Text :=
  ofAscii "STA 7\n.\nLDA 00\r\n\tSTA" ++ [0xE3, 0x80, 0x80] ++ ofAscii "0C"

/-- The table of this text in the place of another, of which neither an instruction nor a code
stays. -/
def shuffledTable : OpcodeTable := (parse "ADD 18\nSTA FF").load shuffledSource

theorem parse_text_of_isRead_shuffled :
    shuffledTable.text = ("LDA\t00\nSTA\t0C\n" : Text) ∧ shuffledTable.lookup "ADD" = none ∧
      (∀ mnemonic, (parse shuffledTable.text).lookup mnemonic = shuffledTable.lookup mnemonic) ∧
      (parse shuffledSource).text = shuffledTable.text ∧
      (parse "LDA 00\nSTA 0C").text = shuffledTable.text := by
  have hlookup {other : OpcodeTable} (hlist : other.toList = shuffledTable.toList)
      (mnemonic : Text) : other.lookup mnemonic = shuffledTable.lookup mnemonic := by
    refine Option.ext fun code => ?_
    rw [← mem_toList_iff, ← mem_toList_iff, hlist]
  obtain ⟨hread, -, hsame⟩ := parse_text_of_isRead (.load (parse "ADD 18\nSTA FF") shuffledSource)
  exact ⟨by decide +kernel, by decide +kernel, hread,
    hsame (parse shuffledSource) (hlookup (by decide +kernel)),
    hsame (parse "LDA 00\nSTA 0C") (hlookup (by decide +kernel))⟩

end OpcodeTable

end Sic
