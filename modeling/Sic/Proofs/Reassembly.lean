import Sic.Proofs.Moved
import Sic.Proofs.Packing
import Sic.Proofs.Text.Fields

/-!
# Assembling a layout again

The placed statements of a layout, written one a line, are a source program without the remarks,
blank lines and odd white space of the one they came from, without what stood before its `START`,
and with a `-` for every absent field.  Assembling it gives the same program.

* `Statement.IsWritten` is what a statement needs to be read back from its line, and
  `isWritten_of_mem_ofSource` says that statements of a source program have it.
* `unnumbered_ofSource`: statements that are written one a line are read back, but for the numbers
  of their lines.
* `Emitter.IgnoresLines` is said of emitters that do not look at the numbers of lines.  Those of
  object programs and of dumps do not, and `undefinedReference?_unnumbered` says that references do
  no more than show them.
-/

set_option autoImplicit false

namespace Sic

open Text

/-! ## Statements that are written -/

namespace Statement

/-- A statement that can be read back from its line: its fields are words, and the label does not
make the line a remark. -/
structure IsWritten (s : Statement) : Prop where
  label : IsWord s.label
  no_remark : s.label.head? ≠ some 0x2E
  opcode : IsWord s.opcode
  operand : IsWord s.operand

theorem isWord_absent : IsWord absent := ⟨by decide, by decide +kernel⟩

/-- A field that is given is a word, and one that is not is written as one. -/
theorem isWord_headD {fs : List Text} (h : ∀ f ∈ fs, IsWord f) : IsWord (fs.headD absent) := by
  cases fs with
  | nil => exact isWord_absent
  | cons f fs => exact h f List.mem_cons_self

theorem isWritten_of_ofLine? {line : Int} {t : Text} {s : Statement}
    (h : ofLine? line t = some s) : s.IsWritten := by
  have hfields : ∀ f ∈ fields t, IsWord f := fun _ hf => isWord_of_mem_fields hf
  rw [ofLine?] at h
  split at h
  · cases h
  · rename_i label rest heq
    rw [heq] at hfields
    obtain ⟨hlabel, hrest⟩ := List.forall_mem_cons.mp hfields
    split at h
    · cases h
    · rename_i hremark
      cases h
      exact ⟨hlabel, hremark, isWord_headD hrest,
        isWord_headD fun f hf => hrest f (List.mem_of_mem_tail hf)⟩

/-- **The statements of a source program can be read back.** -/
theorem isWritten_of_mem_ofSource {source : Text} {s : Statement} (h : s ∈ ofSource source) :
    s.IsWritten := by
  obtain ⟨⟨t, n⟩, -, ht⟩ := List.mem_filterMap.mp h
  exact isWritten_of_ofLine? ht

namespace IsWritten

variable {s : Statement}

theorem source_eq (s : Statement) :
    s.source = s.label ++ 0x20 :: (s.opcode ++ 0x20 :: s.operand) := by
  simp only [source, List.append_assoc]
  rfl

theorem fields_source (h : s.IsWritten) : fields s.source = [s.label, s.opcode, s.operand] := by
  rw [source_eq, fields_append_blank rfl, fields_append_blank rfl, h.label.fields_eq,
    h.opcode.fields_eq, h.operand.fields_eq]
  rfl

/-- A written statement is read back from its line, with the number of that line. -/
theorem ofLine?_source (h : s.IsWritten) (line : Int) :
    ofLine? line s.source = some { s with line := line } := by
  rw [ofLine?, h.fields_source]
  exact if_neg h.no_remark

/-- A written statement takes one line. -/
theorem feed_not_mem (h : s.IsWritten) : (0x0A : UInt8) ∉ s.source := by
  rw [source_eq]
  simp only [List.mem_append, List.mem_cons, not_or]
  exact ⟨h.label.not_mem_of_blank rfl, by decide, h.opcode.not_mem_of_blank rfl, by decide,
    h.operand.not_mem_of_blank rfl⟩

end IsWritten

/-- **Statements that are written one a line are read back**, but for the numbers of their
lines. -/
theorem unnumbered_ofSource {ss : List Statement} (h : ∀ s ∈ ss, s.IsWritten) (hne : ss ≠ []) :
    (ofSource (join "\n" (ss.map source))).map unnumbered = ss.map unnumbered := by
  have hlines : lines (join "\n" (ss.map source)) = ss.map source :=
    List.splitOn_intercalate _ (List.forall_mem_map.mpr fun s hs => (h s hs).feed_not_mem)
      (by simpa using hne)
  rw [ofSource, hlines]
  clear hlines hne
  -- The number of the first line does not matter, and is another one in the induction.
  generalize 1 = n
  induction ss generalizing n with
  | nil => rfl
  | cons s ss ih =>
    obtain ⟨hs, hrest⟩ := List.forall_mem_cons.mp h
    rw [List.map_cons, List.zipIdx_cons, List.filterMap_cons]
    simp only [hs.ofLine?_source]
    rw [List.map_cons, List.map_cons, ih hrest]
    rfl

/-- Statements that are written are no blank text. -/
theorem isBlank_join_source {s : Statement} (h : s.IsWritten) (rest : List Text) :
    isBlank (join "\n" (s.source :: rest)) = false := by
  obtain ⟨tail, htail⟩ : ∃ tail, join "\n" (s.source :: rest) = s.label ++ 0x20 :: tail := by
    rw [IsWritten.source_eq]
    cases rest with
    | nil => exact ⟨s.opcode ++ 0x20 :: s.operand, by simp [join]⟩
    | cons t rest =>
      exact ⟨s.opcode ++ 0x20 :: s.operand ++ ofAscii "\n" ++ join "\n" (t :: rest),
        by simp [join]⟩
  have hlabel : s.label ∈ fields (s.label ++ 0x20 :: tail) := by
    rw [fields_append_blank rfl, h.label.fields_eq]
    exact List.mem_cons_self
  rw [htail]
  exact isBlank_of_mem_fields hlabel

end Statement

/-! ## Layout -/

theorem Placed.move_zero (p : Placed) : p.move 0 = p := by
  rw [move, Int.add_zero]

namespace Layout

/-- The placed statements of a layout as a source program. -/
def source (l : Layout) : Text := join "\n" (l.placed.map fun p => p.toStatement.source)

theorem isWritten_of_mem_body {source : Text} {s : Statement} (h : s ∈ body source) :
    s.IsWritten :=
  Statement.isWritten_of_mem_ofSource (List.dropWhile_subset _ h)

theorem isBlank_source {unique : Bool} {table : OpcodeTable} {source : Text} {l : Layout}
    (h : ofSource unique table source = .ok l) (hne : l.placed ≠ []) :
    l.source.isBlank = false := by
  obtain ⟨p, ps, hps⟩ := List.exists_cons_of_ne_nil hne
  have hp : p.toStatement ∈ body source := by
    rw [← map_toStatement_ofSource h, hps]
    exact List.mem_cons_self
  rw [Layout.source, hps, List.map_cons]
  exact Statement.isBlank_join_source (isWritten_of_mem_body hp) _

/-- What is read from the source program of a layout: its statements, from the `START` on. -/
theorem unnumbered_body_source {unique : Bool} {table : OpcodeTable} {source : Text} {l : Layout}
    (h : ofSource unique table source = .ok l) (hne : l.placed ≠ []) :
    (body l.source).map Statement.unnumbered = (body source).map Statement.unnumbered := by
  have hplaced := map_toStatement_ofSource h
  have hbody : body source ≠ [] := by
    rw [← hplaced]
    simpa using hne
  have hsource : l.source = join "\n" ((body source).map Statement.source) := by
    rw [Layout.source, ← hplaced, List.map_map]
    rfl
  have hread := Statement.unnumbered_ofSource (fun _ hs => isWritten_of_mem_body hs) hbody
  rw [← hsource] at hread
  -- The first statement is the `START`, so none is dropped.
  have hall : body l.source = Statement.ofSource l.source := by
    obtain ⟨s, ss, hss⟩ := List.exists_cons_of_ne_nil hbody
    rw [hss] at hread
    obtain ⟨s', ss', hss', hs', -⟩ := List.map_eq_cons_iff.mp hread
    have hfirst : s ∈ (body source).head? := by
      rw [hss]
      rfl
    have hstart : s'.isStart = true := by
      rw [Statement.isStart_of_unnumbered hs', isStart_of_mem_head?_body hfirst]
    rw [body, hss', List.dropWhile_cons, hstart]
    rfl
  rw [hall, hread]

/-- **The source program of a layout is laid out alike.** -/
theorem exists_ofSource_source {unique : Bool} {table : OpcodeTable} {source : Text} {l : Layout}
    (h : ofSource unique table source = .ok l) (hne : l.placed ≠ []) :
    ∃ l', ofSource unique table l.source = .ok l' ∧ l'.program = l.program ∧
      SymbolTable.IsMoved 0 l.symbols l'.symbols ∧
      l'.placed.map Placed.unnumbered = l.placed.map (fun p => (p.move 0).unnumbered) := by
  have hread := unnumbered_body_source h hne
  rw [ofSource] at h ⊢
  cases hbody : body source with
  | nil =>
    rw [hbody] at h
    cases h
    exact absurd rfl hne
  | cons s ss =>
    rw [hbody] at h hread
    obtain ⟨s', ss', hbody', hs, hss⟩ := List.map_eq_cons_iff.mp hread
    obtain ⟨hlabel, hopcode, hoperand⟩ := Statement.unnumbered_eq_iff.mp hs
    obtain ⟨start, run, hstart, hrun, rfl⟩ := ofStatements_cons_eq_ok_iff.mp h
    obtain ⟨run', hrun', hplaced, hsymbols, hnext⟩ :=
      exists_place_moved hss (SymbolTable.IsMoved.empty (d := 0)) hrun
    have hstart' : s'.startAddress = .ok start := by
      rw [Statement.startAddress_eq_ok_iff] at hstart ⊢
      rwa [hoperand]
    rw [Int.add_zero] at hrun' hnext
    rw [hbody']
    refine ⟨_, ofStatements_cons_eq_ok_iff.mpr ⟨start, run', hstart', hrun', rfl⟩, ?_,
      hsymbols, ?_⟩
    · rw [hlabel, hnext]
    · rw [List.map_cons, List.map_cons, hplaced]
      simp [Placed.unnumbered, Placed.move, hlabel, hopcode, hoperand]

end Layout

/-! ## Listings and records -/

/-- Packing does not look at the numbers of lines. -/
theorem Packing.pack_unnumbered (p : Packing) (o : Option Packing.Open) (lines : List Listed) :
    p.pack o (lines.map Listed.unnumbered) = p.pack o lines := by
  induction lines generalizing o with
  | nil => rfl
  | cons l lines ih =>
    by_cases hl : l.code = []
    · rw [List.map_cons, pack_cons_of_nil hl, pack_cons_of_nil (l := l.unnumbered) hl, ih]
    · rw [List.map_cons, pack_cons_of_code hl, pack_cons_of_code (l := l.unnumbered) hl, ih]
      rfl

namespace Emitter

/-- An emitter whose records do not depend on the numbers of lines. -/
def IgnoresLines (e : Emitter) : Prop :=
  ∀ (program : Program) (lines lines' : List Listed),
    lines'.map Listed.unnumbered = lines.map Listed.unnumbered →
      e.emit program lines' = e.emit program lines

theorem ignoresLines_of_unnumbered {e : Emitter}
    (h : ∀ program lines, e.emit program (lines.map Listed.unnumbered) = e.emit program lines) :
    e.IgnoresLines := by
  intro program lines lines' hlines
  rw [← h program lines', hlines, h program lines]

/-- An object program does not show the numbers of lines. -/
theorem ignoresLines_object (packing : Packing) : (object packing).IgnoresLines :=
  ignoresLines_of_unnumbered fun program lines => by
    rw [emit_object, emit_object, Packing.pack_unnumbered]

/-- Neither does a dump. -/
theorem ignoresLines_dump : dump.IgnoresLines :=
  ignoresLines_of_unnumbered fun program lines => by
    rw [emit_dump, emit_dump, List.filterMap_map]
    rfl

end Emitter

/-- But for the number of the line, a reference does not depend on it. -/
theorem Placed.undefinedReference?_unnumbered (table : OpcodeTable) (symbols : SymbolTable)
    (p : Placed) :
    (p.unnumbered.undefinedReference? table symbols).map Reference.unnumbered =
      (p.undefinedReference? table symbols).map Reference.unnumbered := by
  have hcondition : (table.contains p.unnumbered.opcode && p.unnumbered.target symbols ==
      .undefined) = (table.contains p.opcode && p.target symbols == .undefined) := rfl
  rw [undefinedReference?, undefinedReference?, hcondition]
  split <;> rfl

theorem map_unnumbered_undefinedReferences (table : OpcodeTable) (symbols : SymbolTable)
    (ps : List Placed) :
    ((ps.map Placed.unnumbered).filterMap (Placed.undefinedReference? table symbols)).map
        Reference.unnumbered =
      (ps.filterMap (Placed.undefinedReference? table symbols)).map Reference.unnumbered := by
  rw [List.map_filterMap, List.map_filterMap, List.filterMap_map]
  exact List.filterMap_congr fun p _ => Placed.undefinedReference?_unnumbered table symbols p

/-- Lines at the same addresses with the same code are the same but for their numbers. -/
theorem map_unnumbered_of_forall₂ {lines lines' : List Listed}
    (h : List.Forall₂ (fun x x' : Listed => x'.toPlaced.unnumbered =
      (x.toPlaced.move 0).unnumbered ∧ ((0 : Int) = 0 → x'.code = x.code)) lines lines') :
    lines'.map Listed.unnumbered = lines.map Listed.unnumbered := by
  induction h with
  | nil => rfl
  | cons hx _ ih =>
    obtain ⟨hplaced, hcode⟩ := hx
    rw [Placed.move_zero] at hplaced
    have hsplit (x : Listed) : x.unnumbered = ⟨x.toPlaced.unnumbered, x.code⟩ := rfl
    rw [List.map_cons, List.map_cons, ih, hsplit, hsplit, hplaced, hcode rfl]

namespace Assembly

/-- **Assembling a layout again reproduces the program.**  If a source program is assembled and has
a `START`, then the statements of its layout, written one a line, are assembled under the same
options with the same table.  The program and the symbols are the same, and so are the placed
statements, the lines of the listing and the references to nothing, but for the numbers of their
lines.  The records are the same too, of an object program and of a dump as of whatever is emitted
without a look at the numbers of lines. -/
theorem assemble_source {options : Options} {table : OpcodeTable} {source : Text} {a : Assembly}
    (h : assemble options (some table) source = .ok a) (hne : a.layout.placed ≠ []) :
    ∃ a', assemble options (some table) a.layout.source = .ok a' ∧
      a'.program = a.program ∧ a'.layout.symbols = a.layout.symbols ∧
      ((∃ packing, options.emitter = .object packing) ∨ options.emitter = .dump ∨
        options.emitter.IgnoresLines → a'.records = a.records) ∧
      a'.layout.placed.map Placed.unnumbered = a.layout.placed.map Placed.unnumbered ∧
      a'.listing.map Listed.unnumbered = a.listing.map Listed.unnumbered ∧
      a'.undefined.map Reference.unnumbered = a.undefined.map Reference.unnumbered := by
  obtain ⟨-, hlayout, hlisting, hrecords, hundefined⟩ := assemble_eq_ok_iff.mp h
  obtain ⟨l', hlayout', hprogram, hsymbols, hplaced⟩ := Layout.exists_ofSource_source hlayout hne
  obtain ⟨lines, hlines, hsame⟩ :=
    Layout.exists_listing_moved hsymbols (Layout.untilFinish_moved hplaced) hlisting
  have hlisting' := map_unnumbered_of_forall₂ hsame
  have hencoded := Layout.untilFinish_moved hplaced
  simp only [Placed.move_zero] at hplaced hencoded
  refine ⟨⟨l', lines, options.emitter.emit l'.program lines, l'.undefinedReferences table⟩,
    assemble_eq_ok_iff.mpr ⟨Layout.isBlank_source hlayout hne, hlayout', hlines, rfl, rfl⟩,
    hprogram, hsymbols.eq, fun hemitter => ?_, hplaced, hlisting', ?_⟩
  · have hignores : options.emitter.IgnoresLines := by
      obtain ⟨packing, hobject⟩ | hdump | hignores := hemitter
      · exact hobject ▸ Emitter.ignoresLines_object packing
      · exact hdump ▸ Emitter.ignoresLines_dump
      · exact hignores
    rw [hrecords, hignores l'.program a.listing lines hlisting', hprogram]
    rfl
  · rw [hundefined, Layout.undefinedReferences, Layout.undefinedReferences, hsymbols.eq,
      ← map_unnumbered_undefinedReferences, Layout.encoded, hencoded,
      map_unnumbered_undefinedReferences]
    rfl

/-- A program with statements before its `START`, a remark, a blank line, a reference to nothing, a
label defined again and no operand where one may be absent. -/
theorem assemble_source_untidy :
    ∃ a a', assemble ⟨.object .usual, false, false⟩ (some (OpcodeTable.parse "LDA 00"))
        "X LDA 1\n.remark\nP  START 1000 remark\r\n\n\tA LDA\nA LDA Q" = .ok a ∧
      a.layout.source = ("P START 1000\nA LDA -\nA LDA Q" : Text) ∧
      assemble ⟨.object .usual, false, false⟩ (some (OpcodeTable.parse "LDA 00"))
        a.layout.source = .ok a' ∧ a'.records = a.records ∧
      a.undefined = [⟨"Q", 6, 0x1003⟩] ∧ a'.undefined.map Reference.unnumbered =
        [⟨"Q", 0, 0x1003⟩] := by
  have hrun : (assemble ⟨.object .usual, false, false⟩ (some (OpcodeTable.parse "LDA 00"))
      "X LDA 1\n.remark\nP  START 1000 remark\r\n\n\tA LDA\nA LDA Q").toOption.map
        (fun a => (a.layout.placed, a.undefined)) =
      some ([⟨⟨3, "P", "START", "1000"⟩, 0x1000, 0⟩, ⟨⟨5, "A", "LDA", "-"⟩, 0x1000, 3⟩,
        ⟨⟨6, "A", "LDA", "Q"⟩, 0x1003, 3⟩], [⟨"Q", 6, 0x1003⟩]) := by
    decide +kernel
  obtain ⟨a, ha, hresult⟩ := exists_ok_of_toOption hrun
  obtain ⟨hplaced, hundefined⟩ := Prod.mk.inj hresult
  obtain ⟨a', ha', -, -, hrecords, -, -, hreferences⟩ := assemble_source ha (by simp [hplaced])
  refine ⟨a, a', ha, ?_, ha', hrecords (Or.inl ⟨.usual, rfl⟩), hundefined, ?_⟩
  · rw [Layout.source, hplaced]
    decide +kernel
  · rw [hreferences, hundefined]
    rfl

end Assembly

end Sic
