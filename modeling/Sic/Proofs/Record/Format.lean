import Mathlib.Data.List.Basic
import Sic.Proofs.Text.Digits
import Sic.Record.Reader

/-!
# The format of object programs

Records are written one a line, with `^` between their fields, and read back from there.  Writing
never fails, so some records are written that cannot be read: a name may hold a `^`, and a number
may have more than 32 bits or a sign.

* `IsReadable` says which records survive: the name neither holds a `^` or a line feed nor ends with
  a space, numbers fit into 32 bits, and every piece of code is made of whole bytes.
* `ofLine_line` reads such a record back from its line, and `parse_program` a whole program.
* `ofLine_header_of_caret`, `ofLine_header_of_length` and `ofLine_text_of_start` are the ways in
  which a line written for a program can be bad; `parse_program_of_error` says that one bad line
  makes the whole program unreadable.
-/

set_option autoImplicit false

namespace Sic

open Text

/-! ## Lines -/

/-- A text that is taken for one line, as it is, when it is read among others: it has no line feed
in it and no white space at its ends. -/
structure Text.IsLine (t : Text) : Prop where
  ne_nil : t ≠ []
  not_feed : (0x0A : UInt8) ∉ t
  head : ∀ b, t.head? = some b → isSolid b = true
  last : ∀ b, t.getLast? = some b → isSolid b = true

theorem Text.IsLine.of_solid {t : Text} (hne : t ≠ []) (h : ∀ b ∈ t, isSolid b = true) :
    IsLine t where
  ne_nil := hne
  not_feed hfeed := Bool.false_ne_true (h _ hfeed)
  head b hb := h b (List.mem_of_head? hb)
  last b hb := h b (List.mem_of_getLast? hb)

/-- No number has a `^` in it. -/
theorem Text.caret_not_mem_hex (width : Nat) (n : Int) : (0x5E : UInt8) ∉ hex width n := by
  intro h
  rcases mem_hex h with h | h
  · exact absurd h (by decide)
  · exact ne_of_isHexDigit h rfl rfl

theorem Text.mem_column {width : Nat} {t : Text} {b : UInt8} (h : b ∈ column width t) :
    b ∈ t ∨ b = 0x20 := by
  rw [column, padRight, List.mem_append] at h
  exact h.imp_right List.eq_of_mem_replicate

namespace Record

/-! ## Reading a record back from its line -/

theorem number_hex (what : RecordNumber) (width : Nat) {n : Int} (h : Fits32 n) :
    number what (hex width n) = .ok n.toNat := by
  rw [number, word32OfHex?_hex, if_pos h]

theorem number_hex_error (what : RecordNumber) (width : Nat) {n : Int} (h : ¬ Fits32 n) :
    number what (hex width n) = .error (.badNumber what (hex width n)) := by
  rw [number, word32OfHex?_hex, if_neg h]

theorem badCode?_eq_none {codes : List Text} (h : ∀ code ∈ codes, IsHexBytes code) :
    badCode? codes = none := by
  rw [badCode?, List.findSome?_eq_none_iff]
  intro code hcode
  rw [ofHex_of_isHexBytes (h code hcode)]

/-- The records that can be read back from what is written for them. -/
def IsReadable : Record → Prop
  | .header name start length =>
    (0x5E : UInt8) ∉ name ∧ (0x0A : UInt8) ∉ name ∧ name.getLast? ≠ some 0x20 ∧
      Fits32 start ∧ Fits32 length
  | .text r => Fits32 r.start ∧ Fits32 r.length ∧ ∀ code ∈ r.codes, IsHexBytes code
  | .entry address => Fits32 address
  | .dump _ _ => False

/-- A line whose fields hold no `^` is read by its fields. -/
theorem ofLine_join {fields : List Text} (hne : fields ≠ [])
    (h : ∀ f ∈ fields, (0x5E : UInt8) ∉ f) : ofLine (join [0x5E] fields) = ofFields fields := by
  rw [ofLine, join, List.splitOn_intercalate _ h hne]

theorem line_header (name : Text) (start length : Int) :
    line (.header name start length) =
      join [0x5E] [[0x48], column 6 name, hex 6 start, hex 6 length] := rfl

theorem line_header_eq_append (name : Text) (start length : Int) :
    line (.header name start length) =
      [0x48] ++ 0x5E :: (column 6 name ++ 0x5E :: (hex 6 start ++ 0x5E :: hex 6 length)) := by
  rw [line_header, join, List.intercalate_cons_cons, List.intercalate_cons_cons,
    List.intercalate_cons_cons, List.intercalate_singleton]
  simp

theorem line_text (r : TextRecord) :
    line (.text r) = join [0x5E] ([0x54] :: hex 6 r.start :: hex 2 r.length :: r.codes) := rfl

theorem line_entry (address : Int) :
    line (.entry address) = join [0x5E] [[0x45], hex 0 address] := rfl

theorem caret_not_mem_column {name : Text} (h : (0x5E : UInt8) ∉ name) (width : Nat) :
    (0x5E : UInt8) ∉ column width name := by
  intro hmem
  rcases mem_column hmem with hmem | hmem
  · exact h hmem
  · exact absurd hmem (by decide)

theorem ofLine_header {name : Text} {start length : Int}
    (h : IsReadable (.header name start length)) :
    ofLine (line (.header name start length)) = .ok (.header name start length) := by
  obtain ⟨hcaret, -, hlast, hstart, hlength⟩ := h
  rw [line_header, ofLine_join (List.cons_ne_nil _ _)]
  · show headerOfFields _ _ _ = _
    rw [headerOfFields, number_hex _ _ hstart, number_hex _ _ hlength, column,
      dropSpacesRight_padRight hlast]
    show Except.ok (Record.header name (start.toNat : Int) (length.toNat : Int)) = _
    rw [Int.toNat_of_nonneg hstart.1, Int.toNat_of_nonneg hlength.1]
  · simp only [List.forall_mem_cons, List.not_mem_nil, false_imp_iff, implies_true, and_true]
    exact ⟨by decide, caret_not_mem_column hcaret 6, caret_not_mem_hex _ _, caret_not_mem_hex _ _⟩

theorem caret_not_mem_of_isHexBytes {code : Text} (h : IsHexBytes code) : (0x5E : UInt8) ∉ code :=
  fun hmem => ne_of_isHexDigit (List.all_eq_true.mp h.1 _ hmem) rfl rfl

/-- A text record with good code is read by its numbers. -/
theorem ofLine_text_eq {r : TextRecord} (h : ∀ code ∈ r.codes, IsHexBytes code) :
    ofLine (line (.text r)) = textOfFields (hex 6 r.start) (hex 2 r.length) r.codes := by
  rw [line_text, ofLine_join (List.cons_ne_nil _ _)]
  · rfl
  · simp only [List.forall_mem_cons]
    exact ⟨by decide, caret_not_mem_hex _ _, caret_not_mem_hex _ _,
      fun code hcode => caret_not_mem_of_isHexBytes (h code hcode)⟩

theorem ofLine_text {r : TextRecord} (h : IsReadable (.text r)) :
    ofLine (line (.text r)) = .ok (.text r) := by
  obtain ⟨hstart, hlength, hcodes⟩ := h
  rw [ofLine_text_eq hcodes]
  simp only [textOfFields, number_hex _ _ hstart, number_hex _ _ hlength, badCode?_eq_none hcodes,
    bind, Except.bind, pure, Except.pure, Int.toNat_of_nonneg hstart.1]
  exact if_pos rfl

theorem ofLine_entry {address : Int} (h : Fits32 address) :
    ofLine (line (.entry address)) = .ok (.entry address) := by
  rw [line_entry, ofLine_join (List.cons_ne_nil _ _)]
  · show entryOfField _ = _
    rw [entryOfField, number_hex _ _ h]
    show Except.ok (Record.entry (address.toNat : Int)) = _
    rw [Int.toNat_of_nonneg h.1]
  · simp only [List.forall_mem_cons, List.not_mem_nil, false_imp_iff, implies_true, and_true]
    exact ⟨by decide, caret_not_mem_hex _ _⟩

/-- **A readable record is read back from its line.** -/
theorem ofLine_line {r : Record} (h : IsReadable r) : ofLine (line r) = .ok r := by
  cases r with
  | header name start length => exact ofLine_header h
  | text r => exact ofLine_text h
  | entry address => exact ofLine_entry h
  | dump address code => exact h.elim

/-! ## Lines that cannot be read -/

/-- A text with a separator in it is split into two pieces or more. -/
theorem splitOn_eq_cons_cons {t : Text} {sep : UInt8} (h : sep ∈ t) :
    ∃ first second rest, t.splitOn sep = first :: second :: rest := by
  obtain ⟨before, behind, rfl⟩ := List.append_of_mem h
  obtain ⟨first, rest, hbefore⟩ := List.exists_cons_of_ne_nil (List.splitOn_ne_nil sep before)
  obtain ⟨second, rest', hbehind⟩ := List.exists_cons_of_ne_nil (List.splitOn_ne_nil sep behind)
  rw [List.splitOn_append_cons_self, hbefore, hbehind]
  cases rest with
  | nil => exact ⟨first, second, rest', rfl⟩
  | cons piece rest => exact ⟨first, piece, rest ++ second :: rest', rfl⟩

/-- A `^` in a name makes a header record of too many fields. -/
theorem ofLine_header_of_caret {name : Text} (h : (0x5E : UInt8) ∈ name) (start length : Int) :
    ∃ fault, ofLine (line (.header name start length)) = .error fault := by
  obtain ⟨first, second, rest, hsplit⟩ :=
    splitOn_eq_cons_cons (t := column 6 name) (List.mem_append_left _ h)
  have hfields : (line (.header name start length)).splitOn 0x5E =
      [0x48] :: first :: second :: (rest ++ [hex 6 start, hex 6 length]) := by
    rw [line_header_eq_append, List.splitOn_append_cons_self, List.splitOn_append_cons_self,
      List.splitOn_append_cons_self, hsplit, List.splitOn_eq_singleton (caret_not_mem_hex 6 start),
      List.splitOn_eq_singleton (caret_not_mem_hex 6 length)]
    rfl
  rw [ofLine, hfields]
  -- Four fields behind the letter, or more, are not the three of a header.
  cases rest with
  | nil => exact ⟨_, rfl⟩
  | cons piece rest =>
    cases rest with
    | nil => exact ⟨_, rfl⟩
    | cons piece' rest => exact ⟨_, rfl⟩

/-- A length that is no 32-bit number makes a header record that cannot be read. -/
theorem ofLine_header_of_length {name : Text} {start length : Int} (hcaret : (0x5E : UInt8) ∉ name)
    (h : ¬ Fits32 length) :
    ∃ fault, ofLine (line (.header name start length)) = .error fault := by
  rw [line_header, ofLine_join (List.cons_ne_nil _ _)]
  · show ∃ fault, headerOfFields _ _ _ = _
    by_cases hstart : Fits32 start
    · rw [headerOfFields, number_hex _ _ hstart, number_hex_error _ _ h]
      exact ⟨_, rfl⟩
    · rw [headerOfFields, number_hex_error _ _ hstart]
      exact ⟨_, rfl⟩
  · simp only [List.forall_mem_cons, List.not_mem_nil, false_imp_iff, implies_true, and_true]
    exact ⟨by decide, caret_not_mem_column hcaret 6, caret_not_mem_hex _ _, caret_not_mem_hex _ _⟩

/-- A start that is no 32-bit number makes a text record that cannot be read. -/
theorem ofLine_text_of_start {r : TextRecord} (hcodes : ∀ code ∈ r.codes, IsHexBytes code)
    (h : ¬ Fits32 r.start) : ∃ fault, ofLine (line (.text r)) = .error fault := by
  rw [ofLine_text_eq hcodes, textOfFields, number_hex_error _ _ h]
  exact ⟨_, rfl⟩

/-! ## Programs -/

theorem isLine_header {name : Text} (h : (0x0A : UInt8) ∉ name) (start length : Int) :
    IsLine (line (.header name start length)) := by
  refine ⟨?_, ?_, ?_, ?_⟩
  · rw [line_header_eq_append]
    exact List.cons_ne_nil _ _
  · intro hmem
    rw [line_header] at hmem
    rcases mem_join hmem with hmem | ⟨t, ht, hmem⟩
    · exact absurd hmem (by decide)
    · simp only [List.mem_cons, List.not_mem_nil, or_false] at ht
      rcases ht with rfl | rfl | rfl | rfl
      · exact absurd hmem (by decide)
      · rcases mem_column hmem with hmem | hmem
        · exact h hmem
        · exact absurd hmem (by decide)
      · exact absurd (isSolid_of_mem_hex hmem) (by decide)
      · exact absurd (isSolid_of_mem_hex hmem) (by decide)
  · intro b hb
    rw [line_header_eq_append] at hb
    cases hb
    rfl
  · intro b hb
    have hlast := List.getLast?_eq_some_getLast (hex_ne_nil 6 length)
    have hb' : b = (hex 6 length).getLast (hex_ne_nil 6 length) := by
      simpa [line_header_eq_append, List.getLast?_cons, hlast] using hb.symm
    rw [hb']
    exact isSolid_of_mem_hex (List.getLast_mem _)

theorem isLine_text {r : TextRecord} (h : ∀ code ∈ r.codes, IsHexBytes code) :
    IsLine (line (.text r)) := by
  refine IsLine.of_solid ?_ ?_
  · rw [line_text, join, List.intercalate_cons_cons]
    exact List.cons_ne_nil _ _
  · intro b hb
    rw [line_text] at hb
    rcases mem_join hb with rfl | ⟨t, ht, hb⟩
    · rfl
    · rcases List.mem_cons.mp ht with rfl | ht
      · rw [List.mem_singleton.mp hb]
        rfl
      · rcases List.mem_cons.mp ht with rfl | ht
        · exact isSolid_of_mem_hex hb
        · rcases List.mem_cons.mp ht with rfl | ht
          · exact isSolid_of_mem_hex hb
          · exact isSolid_of_isHexDigit (List.all_eq_true.mp (h t ht).1 b hb)

theorem isLine_entry (address : Int) : IsLine (line (.entry address)) := by
  refine IsLine.of_solid ?_ ?_
  · rw [line_entry, join, List.intercalate_cons_cons]
    exact List.cons_ne_nil _ _
  · intro b hb
    rw [line_entry] at hb
    rcases mem_join hb with rfl | ⟨t, ht, hb⟩
    · rfl
    · simp only [List.mem_cons, List.not_mem_nil, or_false] at ht
      rcases ht with rfl | rfl
      · rw [List.mem_singleton.mp hb]
        rfl
      · exact isSolid_of_mem_hex hb

/-- The line of a readable record is taken as it is. -/
theorem IsReadable.isLine {r : Record} (h : IsReadable r) : IsLine (line r) := by
  cases r with
  | header name start length => exact isLine_header h.2.1 start length
  | text r => exact isLine_text h.2.2
  | entry address => exact isLine_entry address
  | dump address code => exact h.elim

/-- Lines that are taken as they are give one reading each. -/
theorem readLines_program {rs : List Record} (h : ∀ r ∈ rs, IsLine (line r)) :
    readLines (program rs) = (rs.zipIdx 1).map fun e => (e.2, ofLine (line e.1)) := by
  have hfeed : ∀ t ∈ rs.map line, (0x0A : UInt8) ∉ t := by
    intro t ht
    obtain ⟨r, hr, rfl⟩ := List.mem_map.mp ht
    exact (h r hr).not_feed
  rw [readLines, program, lines_unlines hfeed]
  generalize 1 = n
  clear hfeed
  induction rs generalizing n with
  | nil => rfl
  | cons r rs ih =>
    have hr := h r List.mem_cons_self
    have htrim : (line r).trim = line r := trim_eq_self hr.head hr.last
    have hne : (line r).isEmpty = false := by simpa using hr.ne_nil
    rw [List.map_cons, List.cons_append, List.zipIdx_cons, List.filterMap_cons, List.zipIdx_cons,
      List.map_cons]
    simp only [htrim, hne, Bool.false_eq_true, if_false]
    exact congrArg _ (ih (fun r' hr' => h r' (List.mem_cons_of_mem _ hr')) (n + 1))

theorem badLines_ok (es : List (Record × Nat)) :
    badLines (es.map fun e => (e.2, .ok e.1)) = [] := by
  rw [badLines, List.filterMap_map, List.filterMap_eq_nil_iff]
  intro e _
  rfl

theorem goodLines_ok (es : List (Record × Nat)) :
    goodLines (es.map fun e => (e.2, .ok e.1)) = es.map Prod.fst := by
  rw [goodLines, List.filterMap_map, ← List.filterMap_eq_map]
  rfl

/-- **A program of readable records is read back.** -/
theorem parse_program {rs : List Record} (h : ∀ r ∈ rs, IsReadable r) :
    parse (program rs) = .ok rs := by
  have hread : readLines (program rs) = (rs.zipIdx 1).map fun e => (e.2, .ok e.1) := by
    rw [readLines_program fun r hr => (h r hr).isLine]
    refine List.map_congr_left fun e he => ?_
    rw [ofLine_line (h e.1 (List.fst_mem_of_mem_zipIdx he))]
  rw [parse, hread, badLines_ok, goodLines_ok, List.zipIdx_map_fst]

/-- One line that cannot be read makes a program unreadable. -/
theorem parse_program_of_error {rs : List Record} (hline : ∀ r ∈ rs, IsLine (line r)) {r : Record}
    (hr : r ∈ rs) (h : ∃ fault, ofLine (line r) = .error fault) :
    ∃ bad, parse (program rs) = .error bad := by
  obtain ⟨fault, hfault⟩ := h
  rw [← List.zipIdx_map_fst 1 rs] at hr
  obtain ⟨e, he, rfl⟩ := List.mem_map.mp hr
  have hread : (e.2, .error fault) ∈ readLines (program rs) := by
    rw [readLines_program hline, ← hfault]
    exact List.mem_map.mpr ⟨e, he, rfl⟩
  have hmem : (e.2, fault) ∈ badLines (readLines (program rs)) :=
    List.mem_filterMap.mpr ⟨_, hread, rfl⟩
  rw [parse]
  cases hbad : badLines (readLines (program rs)) with
  | nil => exact absurd (hbad ▸ hmem) List.not_mem_nil
  | cons first rest => exact ⟨_, rfl⟩

end Record

end Sic
