import Sic.Proofs.Reassembly
import Sic.Proofs.SymbolTable

/-!
# Listings can be read back

A listing is written without quotes: fields of the source program stand between tabs as they are, the
code at the end of a line may be missing, and addresses have as many digits as they need.  Still no
two programs have the same listing unless the lines of their listings agree.

* `IsCell` is what a text needs to stand between tabs, and `unlines_join_inj` says that rows of cells
  can be told from the text that is made of them.
* `Listed.isRow_row` and `SymbolTable.isRow_row`: what stands in the two listings of an assembled
  program are rows of cells.  Labels, opcodes and operands are fields of lines, codes are
  hexadecimal, since the codes of the opcode table are, and so are addresses.
* `Listed.listing_eq_iff` and `SymbolTable.listing_eq_iff` compare two listings.
-/

set_option autoImplicit false

namespace Sic

open Text

/-! ## Rows of cells -/

namespace Text

/-- A text that can stand between tabs on a line. -/
structure IsCell (t : Text) : Prop where
  no_tab : (0x09 : UInt8) ∉ t
  no_feed : (0x0A : UInt8) ∉ t

theorem IsWord.isCell {w : Text} (h : IsWord w) : IsCell w where
  no_tab := h.not_mem_of_blank rfl
  no_feed := h.not_mem_of_blank rfl

theorem isCell_of_solid {t : Text} (h : ∀ b ∈ t, isSolid b = true) : IsCell t where
  no_tab hb := by cases h _ hb
  no_feed hb := by cases h _ hb

theorem isCell_hex (width : Nat) (n : Int) : IsCell (hex width n) :=
  isCell_of_solid fun _ hb => isSolid_of_mem_hex hb

theorem isCell_of_isHexBytes {code : Text} (h : IsHexBytes code) : IsCell code :=
  isCell_of_solid fun b hb => isSolid_of_isHexDigit (List.all_eq_true.mp h.1 b hb)

/-- A row of a listing: cells, at least one of them. -/
def IsRow (row : List Text) : Prop := row ≠ [] ∧ ∀ cell ∈ row, IsCell cell

theorem IsRow.splitOn_join {row : List Text} (h : IsRow row) :
    (join [0x09] row).splitOn 0x09 = row :=
  List.splitOn_intercalate _ (fun cell hcell => (h.2 cell hcell).no_tab) h.1

theorem IsRow.feed_not_mem {row : List Text} (h : IsRow row) :
    (0x0A : UInt8) ∉ join [0x09] row := by
  intro hfeed
  rcases mem_join hfeed with hfeed | ⟨cell, hcell, hfeed⟩
  · exact absurd hfeed (by decide)
  · exact (h.2 cell hcell).no_feed hfeed

/-- **Rows can be told from the text that is made of them.** -/
theorem unlines_join_inj {rows rows' : List (List Text)} (h : ∀ row ∈ rows, IsRow row)
    (h' : ∀ row ∈ rows', IsRow row) :
    unlines (rows.map (join [0x09])) = unlines (rows'.map (join [0x09])) ↔ rows = rows' := by
  have hread {rows : List (List Text)} (h : ∀ row ∈ rows, IsRow row) :
      (rows.map (join [0x09])).map (List.splitOn 0x09) = rows := by
    rw [List.map_map]
    exact (List.map_congr_left fun row hrow => (h row hrow).splitOn_join).trans (List.map_id rows)
  have hfeed {rows : List (List Text)} (h : ∀ row ∈ rows, IsRow row) :
      ∀ line ∈ rows.map (join [0x09]), (0x0A : UInt8) ∉ line :=
    List.forall_mem_map.mpr fun row hrow => (h row hrow).feed_not_mem
  rw [unlines_inj (hfeed h) (hfeed h')]
  constructor
  · intro hlines
    rw [← hread h, hlines, hread h']
  · exact congrArg _

end Text

/-! ## The listing with object code -/

namespace Listed

/-- The cells of a line of a listing. -/
def row (x : Listed) : List Text :=
  [Address.text x.address, x.label, x.opcode, x.operand, x.code]

/-- Two lines that agree in address, label, opcode, operand and code. -/
def Agrees (x x' : Listed) : Prop :=
  x.address = x'.address ∧ x.label = x'.label ∧ x.opcode = x'.opcode ∧ x.operand = x'.operand ∧
    x.code = x'.code

theorem row_eq_iff {x x' : Listed} : x.row = x'.row ↔ x.Agrees x' := by
  simp only [row, List.cons.injEq, Address.text, hex_inj, and_true, Agrees]

theorem isRow_row {x : Listed} (hx : x.toStatement.IsWritten) (hcode : IsHexBytes x.code) :
    IsRow x.row := by
  refine ⟨List.cons_ne_nil _ _, fun cell hcell => ?_⟩
  simp only [row, List.mem_cons, List.not_mem_nil, or_false] at hcell
  rcases hcell with rfl | rfl | rfl | rfl | rfl
  · exact isCell_hex 4 x.address
  · exact hx.label.isCell
  · exact hx.opcode.isCell
  · exact hx.operand.isCell
  · exact isCell_of_isHexBytes hcode

/-- **Listings are equal exactly if they agree line by line.** -/
theorem listing_eq_iff {lines lines' : List Listed} (h : ∀ x ∈ lines, IsRow x.row)
    (h' : ∀ x ∈ lines', IsRow x.row) :
    listing lines = listing lines' ↔ List.Forall₂ Agrees lines lines' := by
  have htext (lines : List Listed) :
      listing lines = unlines ((lines.map row).map (join [0x09])) := by
    rw [listing, List.map_map]
    rfl
  rw [htext, htext, unlines_join_inj (List.forall_mem_map.mpr h) (List.forall_mem_map.mpr h'),
    ← List.forall₂_eq_eq_eq, List.forall₂_map_left_iff, List.forall₂_map_right_iff]
  simp only [row_eq_iff]

end Listed

/-! ## The listing of the symbols -/

namespace SymbolTable

/-- The cells of a line of the listing of the symbols. -/
def row (s : Text × Int) : List Text := [s.1, Address.text s.2]

theorem row_inj {s s' : Text × Int} (h : row s = row s') : s = s' := by
  simp only [row, List.cons.injEq, Address.text, hex_inj, and_true] at h
  exact Prod.ext h.1 h.2

theorem isRow_row {s : Text × Int} (h : IsWord s.1) : IsRow (row s) := by
  refine ⟨List.cons_ne_nil _ _, fun cell hcell => ?_⟩
  simp only [row, List.mem_cons, List.not_mem_nil, or_false] at hcell
  rcases hcell with rfl | rfl
  · exact h.isCell
  · exact isCell_hex 4 s.2

/-- **Listings of symbols that are words are equal exactly if the symbols are.** -/
theorem listing_eq_iff {t t' : SymbolTable}
    (h : ∀ symbol address, t.lookup symbol = some address → IsWord symbol)
    (h' : ∀ symbol address, t'.lookup symbol = some address → IsWord symbol) :
    t.listing = t'.listing ↔ ∀ symbol, t.lookup symbol = t'.lookup symbol := by
  have htext (t : SymbolTable) : t.listing = unlines ((t.toList.map row).map (join [0x09])) := by
    rw [listing, List.map_map]
    congr 1
    refine List.map_congr_left fun s _ => ?_
    rw [Function.comp_apply, row, join, List.intercalate_cons_cons, List.intercalate_singleton]
    rfl
  have hrows {t : SymbolTable} (h : ∀ symbol address, t.lookup symbol = some address →
      IsWord symbol) : ∀ r ∈ t.toList.map row, IsRow r :=
    List.forall_mem_map.mpr fun s hs => isRow_row (h s.1 s.2 (mem_toList_iff.mp hs))
  rw [htext, htext, unlines_join_inj (hrows h) (hrows h'), List.map_inj_right fun _ _ => row_inj]
  constructor
  · intro hlist symbol
    refine Option.ext fun address => ?_
    rw [← mem_toList_iff, ← mem_toList_iff, hlist]
  · exact toList_eq_of_lookup_eq

end SymbolTable

/-! ## Programs that are assembled -/

namespace Assembly

section Rows

variable {options : Options} {table : OpcodeTable} {source : Text} {a : Assembly}

theorem isWritten_of_mem_placed (h : assemble options (some table) source = .ok a) {p : Placed}
    (hp : p ∈ a.layout.placed) : p.toStatement.IsWritten := by
  obtain ⟨-, hlayout, -⟩ := assemble_eq_ok_iff.mp h
  have hbody : p.toStatement ∈ Layout.body source := by
    rw [← Layout.map_toStatement_ofSource hlayout]
    exact List.mem_map_of_mem hp
  exact Layout.isWritten_of_mem_body hbody

theorem isRow_of_mem_listing (h : assemble options (some table) source = .ok a)
    (htable : table.IsHexadecimal) {x : Listed} (hx : x ∈ a.listing) : IsRow x.row := by
  have ha := isAssembled_assemble h
  exact Listed.isRow_row (isWritten_of_mem_placed h (ha.mem_placed hx)) (ha.isHexBytes htable hx)

theorem isWord_of_lookup (h : assemble options (some table) source = .ok a) {symbol : Text}
    {address : Int} (hlookup : a.layout.symbols.lookup symbol = some address) : IsWord symbol := by
  obtain ⟨p, hp, rfl, -⟩ := (isAssembled_assemble h).laidOut.symbols symbol address hlookup
  exact (isWritten_of_mem_placed h hp).label

end Rows

/-- **Listings are unambiguous.**  Two programs that are assembled, from whatever sources, with
whatever opcode tables and options, have the same listing exactly if the listings have as many lines
and agree line by line in address, label, opcode, operand and code; and they have the same listing of
symbols exactly if each symbol of the one has the same address in the other. -/
theorem listings_unambiguous {options options' : Options} {table table' source source' : Text}
    {a a' : Assembly} (h : assemble options (some (OpcodeTable.parse table)) source = .ok a)
    (h' : assemble options' (some (OpcodeTable.parse table')) source' = .ok a') :
    (a.outputListing = a'.outputListing ↔
      a.listing.length = a'.listing.length ∧
        List.Forall₂ (fun x x' : Listed => x.address = x'.address ∧ x.label = x'.label ∧
          x.opcode = x'.opcode ∧ x.operand = x'.operand ∧ x.code = x'.code)
          a.listing a'.listing) ∧
    (a.layout.symbols.listing = a'.layout.symbols.listing ↔
      ∀ symbol, a.layout.symbols.lookup symbol = a'.layout.symbols.lookup symbol) := by
  have hlisting : a.outputListing = a'.outputListing ↔
      List.Forall₂ Listed.Agrees a.listing a'.listing :=
    Listed.listing_eq_iff
      (fun _ hx => isRow_of_mem_listing h (OpcodeTable.isHexadecimal_parse table) hx)
      (fun _ hx => isRow_of_mem_listing h' (OpcodeTable.isHexadecimal_parse table') hx)
  refine ⟨hlisting.trans ⟨fun hagree => ⟨hagree.length_eq, hagree⟩, And.right⟩, ?_⟩
  exact SymbolTable.listing_eq_iff (fun _ _ => isWord_of_lookup h) fun _ _ => isWord_of_lookup h'

/-- A program with an address of five digits and a line without code. -/
def plain : Text := "P START 10\nA LDA B\nB RESB 65536\nC BYTE C'x'"

/-- The same program with a statement before its `START`, a remark and other white space. -/
def adorned : Text := "X STA\nP\tSTART 10\r\n\nA LDA B B\n.\nB RESB 65536\nC BYTE C'x'"

/-- The listing that both have. -/
def plainListing : Text :=
  unlines ["0010\tP\tSTART\t10\t", "0010\tA\tLDA\tB\t000013", "0013\tB\tRESB\t65536\t",
    "10013\tC\tBYTE\tC'x'\t78"]

/-- The symbols that both have. -/
def plainSymbols : List (Text × Int) := [("A", 0x10), ("B", 0x13), ("C", 0x10013)]

theorem listings_unambiguous_adorned :
    ∃ a a', assemble ⟨.object .usual, false, false⟩ (some (OpcodeTable.parse "LDA 00")) plain =
        .ok a ∧
      assemble ⟨.dump, true, true⟩ (some (OpcodeTable.parse "STA 0C\nLDA 00")) adorned = .ok a' ∧
      a.outputListing = plainListing ∧ List.Forall₂ Listed.Agrees a.listing a'.listing ∧
      a.layout.symbols.listing = a'.layout.symbols.listing := by
  have hrun : (assemble ⟨.object .usual, false, false⟩ (some (OpcodeTable.parse "LDA 00"))
      plain).toOption.map (fun a => (a.outputListing, a.layout.symbols.addresses.toList)) =
      some (plainListing, plainSymbols) := by
    decide +kernel
  have hrun' : (assemble ⟨.dump, true, true⟩ (some (OpcodeTable.parse "STA 0C\nLDA 00"))
      adorned).toOption.map (fun a => (a.outputListing, a.layout.symbols.addresses.toList)) =
      some (plainListing, plainSymbols) := by
    decide +kernel
  obtain ⟨a, ha, hresult⟩ := exists_ok_of_toOption hrun
  obtain ⟨a', ha', hresult'⟩ := exists_ok_of_toOption hrun'
  obtain ⟨houtput, haddresses⟩ := Prod.mk.inj hresult
  obtain ⟨houtput', haddresses'⟩ := Prod.mk.inj hresult'
  obtain ⟨hlisting, hsymbols⟩ := listings_unambiguous ha ha'
  refine ⟨a, a', ha, ha', houtput, (hlisting.mp (houtput.trans houtput'.symm)).2, hsymbols.mpr ?_⟩
  exact SymbolTable.lookup_eq_of_toList_addresses_eq (haddresses.trans haddresses'.symm)

end Assembly

end Sic
