import Sic.Proofs.Image
import Sic.Proofs.Listing
import Sic.Proofs.Record.Format

/-!
# Object programs read back and loaded

What becomes of an assembled program when its object program is read and loaded.

* `IsReadable` says which programs have object programs that read back as the records they were
  written from: the name has no `^` in it, and the length and the starts of the text records are
  32-bit numbers.  The others cannot be read at all.
* `IsContained` says of a listing that its code keeps to the storage the layout gave it; then no two
  bytes of it belong at one address (`puts_unique`).  A program within the first 64 KiB has such a
  listing (`isContained`), and one that goes further need not.

From the two it follows that a program within the first 64 KiB whose name has no `^` in it is read
and loaded, and that memory then holds the bytes of its listing and nothing else.
-/

set_option autoImplicit false

namespace Sic

open Text

namespace Packing

/-- Code of whole bytes is packed into code of whole bytes. -/
theorem isHexBytes_of_mem_pack {p : Packing} {lines : List Listed}
    (h : ∀ l ∈ lines, IsHexBytes l.code) :
    ∀ r ∈ p.pack none lines, ∀ code ∈ r.codes, IsHexBytes code := by
  intro r hr code hcode
  refine ⟨List.all_eq_true.mpr fun d hd => ?_,
    ((isPacked_of_mem_pack p lines r hr).whole code hcode).2⟩
  have hmem : d ∈ lines.flatMap fun l => evenDigits l.code := by
    rw [← codes_pack p lines]
    exact List.mem_flatMap.mpr ⟨r, hr, List.mem_flatten_of_mem hcode hd⟩
  obtain ⟨l, hl, hd⟩ := List.mem_flatMap.mp hmem
  exact List.all_eq_true.mp (isHexBytes_evenDigits (h l hl).1).1 d hd

end Packing

namespace Assembly

/-! ## Reading an object program back -/

/-- The programs whose object programs can be read back. -/
structure IsReadable (a : Assembly) : Prop where
  name : (0x5E : UInt8) ∉ a.program.name
  length : Fits32 a.program.length
  texts : ∀ r, Record.text r ∈ a.records → Fits32 r.start

section Read

variable {packing : Packing} {unique strict : Bool} {table : OpcodeTable} {a : Assembly}

/-- The records of an object program. -/
theorem IsAssembled.mem_records (h : a.IsAssembled ⟨.object packing, unique, strict⟩ table)
    {r : Record} :
    r ∈ a.records ↔ r = .header a.program.name a.program.start a.program.length ∨
      (∃ t ∈ packing.pack none a.listing, r = .text t) ∨ r = .entry a.program.start := by
  rw [h.records, Emitter.emit_object, List.mem_append, List.mem_cons, List.mem_map,
    List.mem_singleton, or_assoc]
  simp only [eq_comm]

theorem IsAssembled.text_mem_records (h : a.IsAssembled ⟨.object packing, unique, strict⟩ table)
    {t : TextRecord} : Record.text t ∈ a.records ↔ t ∈ packing.pack none a.listing := by
  rw [h.mem_records]
  simp

theorem IsAssembled.isHexBytes_codes (h : a.IsAssembled ⟨.object packing, unique, strict⟩ table)
    (htable : table.IsHexadecimal) :
    ∀ t ∈ packing.pack none a.listing, ∀ code ∈ t.codes, IsHexBytes code :=
  Packing.isHexBytes_of_mem_pack fun _ hl => h.isHexBytes htable hl

theorem IsAssembled.fits_start {options : Options} (h : a.IsAssembled options table) :
    Fits32 a.program.start :=
  ⟨h.laidOut.start_nonneg, Int.lt_trans h.laidOut.start_lt (by decide)⟩

theorem IsAssembled.isLine (h : a.IsAssembled ⟨.object packing, unique, strict⟩ table)
    (htable : table.IsHexadecimal) : ∀ r ∈ a.records, IsLine r.line := by
  intro r hr
  rcases h.mem_records.mp hr with rfl | ⟨t, ht, rfl⟩ | rfl
  · exact Record.isLine_header (fun hfeed => absurd (h.laidOut.name _ hfeed) (by decide)) _ _
  · exact Record.isLine_text (h.isHexBytes_codes htable t ht)
  · exact Record.isLine_entry _

/-- A readable program is read back. -/
theorem IsAssembled.parse_of_isReadable
    (h : a.IsAssembled ⟨.object packing, unique, strict⟩ table) (htable : table.IsHexadecimal)
    (ha : a.IsReadable) : Record.parse a.objectProgram = .ok a.records := by
  refine Record.parse_program fun r hr => ?_
  rcases h.mem_records.mp hr with rfl | ⟨t, ht, rfl⟩ | rfl
  · refine ⟨ha.name, fun hfeed => ?_, fun hspace => ?_, h.fits_start, ha.length⟩
    · exact absurd (h.laidOut.name _ hfeed) (by decide)
    · exact absurd (h.laidOut.name _ (List.mem_of_getLast? hspace)) (by decide)
  · have hle := (Packing.isPacked_of_mem_pack packing a.listing t ht).length_le
    have hmax := packing.capacity.le_max
    exact ⟨ha.texts t hr, ⟨Int.natCast_nonneg _, by omega⟩, h.isHexBytes_codes htable t ht⟩
  · exact h.fits_start

/-- A program that is not readable has a record that cannot be read. -/
theorem IsAssembled.parse_of_not_isReadable
    (h : a.IsAssembled ⟨.object packing, unique, strict⟩ table) (htable : table.IsHexadecimal)
    (ha : ¬ a.IsReadable) : ∃ bad, Record.parse a.objectProgram = .error bad := by
  have hheader := h.mem_records.mpr (Or.inl rfl)
  by_cases hname : (0x5E : UInt8) ∈ a.program.name
  · exact Record.parse_program_of_error (h.isLine htable) hheader
      (Record.ofLine_header_of_caret hname _ _)
  by_cases hlength : Fits32 a.program.length
  · have htexts : ¬ ∀ t, Record.text t ∈ a.records → Fits32 t.start :=
      fun htexts => ha ⟨hname, hlength, htexts⟩
    simp only [Classical.not_forall] at htexts
    obtain ⟨t, ht, hstart⟩ := htexts
    exact Record.parse_program_of_error (h.isLine htable) ht
      (Record.ofLine_text_of_start (h.isHexBytes_codes htable t (h.text_mem_records.mp ht)) hstart)
  · exact Record.parse_program_of_error (h.isLine htable) hheader
      (Record.ofLine_header_of_length hname hlength)

end Read

/-- **Which object programs read back.**  Whatever the source, the opcode table, the capacity of
records and whether they break at gaps, an object program reads back as the records it was written
from if the program is readable, and cannot be read if it is not. -/
theorem parse_objectProgram_iff (tableText source : Text) (packing : Packing)
    (unique strict : Bool) {a : Assembly}
    (h : assemble ⟨.object packing, unique, strict⟩ (some (OpcodeTable.parse tableText)) source =
      .ok a) :
    (Record.parse a.objectProgram = .ok a.records ↔ a.IsReadable) ∧
      (¬ a.IsReadable → ∃ bad, Record.parse a.objectProgram = .error bad) := by
  have ha := isAssembled_assemble h
  have htable := OpcodeTable.isHexadecimal_parse tableText
  refine ⟨⟨fun hparse => ?_, ha.parse_of_isReadable htable⟩, ha.parse_of_not_isReadable htable⟩
  by_contra hnot
  obtain ⟨bad, hbad⟩ := ha.parse_of_not_isReadable htable hnot
  rw [hbad] at hparse
  cases hparse

/-- A `^` in the name makes an object program unreadable, and so does code behind the first 4 GiB,
in a program that is shorter; a program that only spans a gap is read back. -/
theorem parse_objectProgram_iff_caret :
    (∃ a, assemble ⟨.object .usual, true, true⟩ (some (OpcodeTable.parse "LDA 00"))
        "A^B START 0\n" = .ok a ∧ ¬ a.IsReadable ∧
      ∃ bad, Record.parse a.objectProgram = .error bad) ∧
    (∃ a, assemble ⟨.object .usual, true, true⟩ (some (OpcodeTable.parse "LDA 00"))
        "P START 7FFFFFFF\n- RESB 2147483647\n- RESB 2\n- WORD 1\n" = .ok a ∧
      Fits32 a.program.length ∧ ¬ a.IsReadable ∧
      ∃ bad, Record.parse a.objectProgram = .error bad) ∧
    ∃ a, assemble ⟨.object .usual, true, true⟩ (some (OpcodeTable.parse "LDA 00"))
        "P START 1000\nA LDA A\n- RESB 9\nB WORD 1\n" = .ok a ∧ a.IsReadable ∧
      Record.parse a.objectProgram = .ok a.records := by
  refine ⟨?_, ?_, ?_⟩
  · have hrun : (assemble ⟨.object .usual, true, true⟩ (some (OpcodeTable.parse "LDA 00"))
        "A^B START 0\n").toOption.map program = some ⟨"A^B", 0, 0⟩ := by
      decide +kernel
    obtain ⟨a, ha, hprogram⟩ := exists_ok_of_toOption hrun
    have hnot : ¬ a.IsReadable := fun h => absurd h.name (by rw [hprogram]; decide)
    exact ⟨a, ha, hnot, (parse_objectProgram_iff _ _ _ _ _ ha).2 hnot⟩
  · have hrun : (assemble ⟨.object .usual, true, true⟩ (some (OpcodeTable.parse "LDA 00"))
        "P START 7FFFFFFF\n- RESB 2147483647\n- RESB 2\n- WORD 1\n").toOption.map
          (fun a => (a.program, a.records)) =
        some (⟨"P", 2147483647, 2147483652⟩, [.header "P" 2147483647 2147483652,
          .text ⟨4294967296, ["000001"]⟩, .entry 2147483647]) := by
      decide +kernel
    obtain ⟨a, ha, hresult⟩ := exists_ok_of_toOption hrun
    obtain ⟨hprogram, hrecords⟩ := Prod.mk.inj hresult
    have hnot : ¬ a.IsReadable := fun h =>
      absurd (h.texts ⟨4294967296, ["000001"]⟩ (by simp [hrecords])) (by decide)
    exact ⟨a, ha, by rw [hprogram]; decide, hnot, (parse_objectProgram_iff _ _ _ _ _ ha).2 hnot⟩
  · have hrun : (assemble ⟨.object .usual, true, true⟩ (some (OpcodeTable.parse "LDA 00"))
        "P START 1000\nA LDA A\n- RESB 9\nB WORD 1\n").toOption.map
          (fun a => (a.program, a.records)) =
        some (⟨"P", 4096, 15⟩, [.header "P" 4096 15, .text ⟨4096, ["001000"]⟩,
          .text ⟨4108, ["000001"]⟩, .entry 4096]) := by
      decide +kernel
    obtain ⟨a, ha, hresult⟩ := exists_ok_of_toOption hrun
    obtain ⟨hprogram, hrecords⟩ := Prod.mk.inj hresult
    have hreadable : a.IsReadable := by
      refine ⟨by rw [hprogram]; decide, by rw [hprogram]; decide, fun r hr => ?_⟩
      simp only [hrecords, List.mem_cons, List.not_mem_nil, or_false, reduceCtorEq, false_or,
        Record.text.injEq] at hr
      rcases hr with rfl | rfl <;> decide
    exact ⟨a, ha, hreadable, (parse_objectProgram_iff _ _ _ _ _ ha).1.mpr hreadable⟩

end Assembly

/-! ## Listings that keep to their storage -/

/-- The lines of a listing lie one behind the other in the storage of a program, and each has object
code of whole bytes that keeps to the storage of its statement. -/
structure IsContained (program : Program) (lines : List Listed) : Prop where
  storage : IsStorage program.start program.length
  whole : ∀ l ∈ lines, IsHexBytes l.code
  keeps : ∀ l ∈ lines, (l.code.length : Int) ≤ 2 * l.size
  within : ∀ l ∈ lines, program.start ≤ l.address ∧ 0 ≤ l.size ∧
    l.address + l.size ≤ program.start + program.length
  ordered : lines.Pairwise fun l l' => l.address + l.size ≤ l'.address

/-- Byte `k` of the code of line `i` of a listing is `b`, and it belongs at the address `x`. -/
def Puts (lines : List Listed) (i k : Nat) (x : Int) (b : UInt8) : Prop :=
  ∃ l bytes, lines[i]? = some l ∧ Text.ofHex l.code = .ok bytes ∧ bytes[k]? = some b ∧
    x = l.address + k

namespace IsContained

variable {program : Program} {lines : List Listed} {l : Listed}

theorem evenDigits_code (h : IsContained program lines) (hl : l ∈ lines) :
    evenDigits l.code = l.code :=
  if_pos (h.whole l hl).2

/-- A byte of code lies in the storage of its statement, where addresses are sums. -/
theorem byte_bounds (h : IsContained program lines) (hl : l ∈ lines) {k : Nat}
    (hk : k < l.code.length / 2) :
    (k : Int) < l.size ∧ Address.offset l.address k = l.address + k := by
  obtain ⟨hstart, -, hend⟩ := h.storage
  have hkeeps := h.keeps l hl
  have hwithin := h.within l hl
  exact ⟨by omega, Address.offset_eq_add ⟨by omega, by omega⟩⟩

theorem mem_cells (h : IsContained program lines) (hl : l ∈ lines) {x : Cell} (hx : x ∈ l.cells) :
    ∃ k : Nat, (digitPairs l.code)[k]? = some x.2 ∧ (k : Int) < l.size ∧ x.1 = l.address + k := by
  rw [Listed.cells, h.evenDigits_code hl] at hx
  obtain ⟨k, hk, hoffset⟩ := Address.mem_spread.mp hx
  have hlt : k < l.code.length / 2 := by
    rw [← length_digitPairs]
    exact (List.getElem?_eq_some_iff.mp hk).1
  obtain ⟨hsize, haddress⟩ := h.byte_bounds hl hlt
  exact ⟨k, hk, hsize, hoffset.trans haddress⟩

/-- The cells of a contained listing are sound. -/
theorem isSound (h : IsContained program lines) :
    ∀ x ∈ lines.flatMap Listed.cells, Cell.IsSound program.start program.length x := by
  intro x hx
  obtain ⟨l, hl, hx⟩ := List.mem_flatMap.mp hx
  obtain ⟨k, hk, hsize, haddress⟩ := h.mem_cells hl hx
  obtain ⟨hdigits, heven⟩ := h.whole l hl
  have hwithin := h.within l hl
  have hdigit : ∀ d, d = x.2.1 ∨ d = x.2.2 → isHexDigit d = true := fun d hd =>
    List.all_eq_true.mp hdigits d
      ((mem_iff_mem_digitPairs heven d).mpr ⟨x.2, List.mem_of_getElem? hk, hd⟩)
  exact ⟨by omega, by omega, hdigit _ (Or.inl rfl), hdigit _ (Or.inr rfl)⟩

/-- The cells of a contained listing go from lower to higher addresses. -/
theorem pairwise_cells (h : IsContained program lines) :
    (lines.flatMap Listed.cells).Pairwise fun x y => x.1 < y.1 := by
  rw [List.pairwise_flatMap]
  constructor
  · intro l hl
    rw [Listed.cells, h.evenDigits_code hl]
    exact Address.pairwise_spread fun k hk => (h.byte_bounds hl (length_digitPairs _ ▸ hk)).2
  · refine h.ordered.imp_of_mem fun {l l'} hl hl' hle x hx y hy => ?_
    obtain ⟨k, -, hk, hx⟩ := h.mem_cells hl hx
    obtain ⟨k', -, -, hy⟩ := h.mem_cells hl' hy
    omega

theorem nodup_writes (h : IsContained program lines) :
    (((lines.flatMap Listed.cells).map Cell.write).map Prod.fst).Nodup := by
  rw [List.map_map, List.Nodup, List.pairwise_map]
  exact h.pairwise_cells.imp fun hlt => Int.ne_of_lt hlt

/-- The writes of a contained listing are its bytes at their addresses. -/
theorem mem_writes_iff (h : IsContained program lines) {x : Int} {b : UInt8} :
    (x, b) ∈ (lines.flatMap Listed.cells).map Cell.write ↔ ∃ i k, Puts lines i k x b := by
  have hline {l : Listed} (hl : l ∈ lines) : (x, b) ∈ l.cells.map Cell.write ↔
      ∃ k : Nat, (pairs l.code)[k]? = some b ∧ x = l.address + k := by
    rw [Listed.cells, h.evenDigits_code hl, map_write_spread]
    exact Address.mem_spread_add fun k hk => (h.byte_bounds hl (length_pairs _ ▸ hk)).2
  rw [List.map_flatMap, List.mem_flatMap]
  constructor
  · rintro ⟨l, hl, hx⟩
    obtain ⟨i, hi⟩ := List.getElem?_of_mem hl
    obtain ⟨k, hk, haddress⟩ := (hline hl).mp hx
    exact ⟨i, k, l, _, hi, ofHex_of_isHexBytes (h.whole l hl), hk, haddress⟩
  · rintro ⟨i, k, l, bytes, hi, hbytes, hk, haddress⟩
    have hl := List.mem_of_getElem? hi
    obtain ⟨-, rfl⟩ := ofHex_eq_ok_iff.mp hbytes
    exact ⟨l, hl, (hline hl).mpr ⟨k, hk, haddress⟩⟩

theorem exists_of_puts (h : IsContained program lines) {i k : Nat} {x : Int} {b : UInt8}
    (hputs : Puts lines i k x b) :
    ∃ l, lines[i]? = some l ∧ (k : Int) < l.size ∧ x = l.address + k := by
  obtain ⟨l, bytes, hi, hbytes, hk, haddress⟩ := hputs
  obtain ⟨-, rfl⟩ := ofHex_eq_ok_iff.mp hbytes
  have hlt := (List.getElem?_eq_some_iff.mp hk).1
  rw [length_pairs] at hlt
  exact ⟨l, hi, (h.byte_bounds (List.mem_of_getElem? hi) hlt).1, haddress⟩

theorem address_le (h : IsContained program lines) {i j : Nat} {l l' : Listed}
    (hi : lines[i]? = some l) (hj : lines[j]? = some l') (hij : i < j) :
    l.address + l.size ≤ l'.address := by
  obtain ⟨hilt, rfl⟩ := List.getElem?_eq_some_iff.mp hi
  obtain ⟨hjlt, rfl⟩ := List.getElem?_eq_some_iff.mp hj
  exact List.pairwise_iff_getElem.mp h.ordered i j hilt hjlt hij

/-- No two bytes of a contained listing belong at one address. -/
theorem puts_unique (h : IsContained program lines) {i k i' k' : Nat} {x : Int} {b b' : UInt8}
    (hputs : Puts lines i k x b) (hputs' : Puts lines i' k' x b') : i = i' ∧ k = k' := by
  obtain ⟨l, hi, hk, hx⟩ := h.exists_of_puts hputs
  obtain ⟨l', hi', hk', hx'⟩ := h.exists_of_puts hputs'
  rcases Nat.lt_trichotomy i i' with hlt | rfl | hlt
  · have := h.address_le hi hi' hlt
    omega
  · rw [hi] at hi'
    cases hi'
    exact ⟨rfl, by omega⟩
  · have := h.address_le hi' hi hlt
    omega

end IsContained

/-! ## Loading an object program -/

namespace Assembly

/-- A program in the first 64 KiB keeps to its storage. -/
theorem IsAssembled.isContained {options : Options} {table : OpcodeTable} {a : Assembly}
    (h : a.IsAssembled options table) (htable : table.IsRegular)
    (hsmall : a.program.start + a.program.length ≤ maxOperandAddress) :
    IsContained a.program a.listing where
  storage := by
    have hmax : (maxOperandAddress : Int) = 65535 := rfl
    exact ⟨h.laidOut.start_nonneg, h.laidOut.length_nonneg, by omega⟩
  whole l hl := h.isHexBytes htable.hexadecimal hl
  keeps l hl := by
    by_cases hcode : l.code = []
    · have hsize := (h.bounds hl).2.1
      rw [hcode, List.length_nil]
      omega
    · exact Int.le_of_eq ((h.length_code htable hl hcode).2.mpr (h.targetFits htable hsmall _))
  within l hl := h.bounds hl
  ordered := h.pairwise

/-- The records of a contained listing start in the first 64 KiB. -/
theorem IsAssembled.isReadable {packing : Packing} {unique strict : Bool} {table : OpcodeTable}
    {a : Assembly} (h : a.IsAssembled ⟨.object packing, unique, strict⟩ table)
    (hcontained : IsContained a.program a.listing) (hp : packing.breakAtGaps = true)
    (hname : (0x5E : UInt8) ∉ a.program.name)
    (hsmall : a.program.start + a.program.length ≤ maxOperandAddress) : a.IsReadable := by
  have hmax : (maxOperandAddress : Int) = 65535 := rfl
  obtain ⟨hstart, hlength, -⟩ := hcontained.storage
  refine ⟨hname, ⟨hlength, by omega⟩, fun r hr => ?_⟩
  have hr := h.text_mem_records.mp hr
  have hrange : ∀ r ∈ packing.pack none a.listing, Address.InRange r.start :=
    Packing.inRange_of_mem_pack fun l hl => by
      have := h.bounds hl
      exact ⟨by omega, by omega⟩
  obtain ⟨hlow, hhigh⟩ := start_of_isSound (Packing.isPacked_of_mem_pack packing a.listing r hr)
    (hrange r hr) fun x hx => hcontained.isSound x
      (Packing.cells_pack hp a.listing ▸ List.mem_flatMap.mpr ⟨r, hr, hx⟩)
  exact ⟨by omega, by omega⟩

/-- **What is loaded is what was listed.**  If the opcode table is regular, the program ends within
the first 64 KiB and its name has no `^` in it, then the object program, in records of any capacity
that break at gaps, is read and loaded.  The image has the name, the start and the length of the
program, its entry is the start, and memory holds every byte of object code at its address, no two
of them at the same one, and nothing else. -/
theorem load_objectProgram {table : OpcodeTable} (htable : table.IsRegular) (source : Text)
    (maxBytes : Int) (unique strict : Bool) {a : Assembly}
    (h : assemble ⟨.object (.ofSettings maxBytes true), unique, strict⟩ (some table) source = .ok a)
    (hname : (0x5E : UInt8) ∉ a.program.name)
    (hend : a.program.start + a.program.length ≤ 0xFFFF) :
    ∃ records image, Record.parse a.objectProgram = .ok records ∧
      Image.load records = .ok image ∧
      image.name = a.program.name ∧ image.start = a.program.start ∧
      image.length = a.program.length ∧ image.entry = a.program.start ∧
      (∀ l ∈ a.listing, ∃ bytes, Text.ofHex l.code = .ok bytes) ∧
      (∀ x b, image.memory[x]? = some b ↔ ∃ i k, Puts a.listing i k x b) ∧
      (∀ i k i' k' x b b', Puts a.listing i k x b → Puts a.listing i' k' x b' →
        i = i' ∧ k = k') := by
  have ha := isAssembled_assemble h
  have hcontained := ha.isContained htable hend
  have hreadable := ha.isReadable hcontained rfl hname hend
  have hlines : ∀ l ∈ a.listing, 0 ≤ l.address ∧ l.address < 4294967296 := by
    intro l hl
    have hstart := hcontained.storage.start_nonneg
    have hwithin := hcontained.within l hl
    omega
  have hload := load_emit_of_isSound (p := .ofSettings maxBytes true) hcontained.storage rfl hlines
    hcontained.isSound
  refine ⟨a.records, _, ha.parse_of_isReadable htable.hexadecimal hreadable,
    (congrArg Image.load ha.records).trans hload, rfl, rfl, rfl, rfl, ?_, ?_, ?_⟩
  · intro l hl
    exact ⟨_, ofHex_of_isHexBytes (hcontained.whole l hl)⟩
  · intro x b
    rw [Image.getElem?_write hcontained.nodup_writes, hcontained.mem_writes_iff]
    simp
  · intro i k i' k' x b b' hputs hputs'
    exact hcontained.puts_unique hputs hputs'

/-- A program that begins with storage, in records of at most four bytes. -/
theorem load_objectProgram_gap :
    ∃ a records image, assemble ⟨.object (.ofSettings 4 true), false, false⟩
        (some (OpcodeTable.parse "LDA 00"))
        "PROG START 2000\nA RESW 4\nB RESB 10\nC WORD 7\nD BYTE C'AB'\n- LDA C\n- END PROG\n" =
        .ok a ∧
      a.program = ⟨"PROG", 0x2000, 30⟩ ∧ Record.parse a.objectProgram = .ok records ∧
      Image.load records = .ok image ∧ image.name = ("PROG" : Text) ∧ image.entry = 0x2000 ∧
      image.memory[(0x2019 : Int)]? = some 0x41 ∧ image.memory[(0x201D : Int)]? = some 0x16 := by
  have hrun : (assemble ⟨.object (.ofSettings 4 true), false, false⟩
      (some (OpcodeTable.parse "LDA 00"))
      "PROG START 2000\nA RESW 4\nB RESB 10\nC WORD 7\nD BYTE C'AB'\n- LDA C\n- END PROG\n"
        ).toOption.map (fun a => (a.program, a.listing)) =
      some (⟨"PROG", 0x2000, 30⟩,
        [⟨⟨⟨1, "PROG", "START", "2000"⟩, 0x2000, 0⟩, []⟩,
          ⟨⟨⟨2, "A", "RESW", "4"⟩, 0x2000, 12⟩, []⟩,
          ⟨⟨⟨3, "B", "RESB", "10"⟩, 0x200C, 10⟩, []⟩,
          ⟨⟨⟨4, "C", "WORD", "7"⟩, 0x2016, 3⟩, "000007"⟩,
          ⟨⟨⟨5, "D", "BYTE", "C'AB'"⟩, 0x2019, 2⟩, "4142"⟩,
          ⟨⟨⟨6, "-", "LDA", "C"⟩, 0x201B, 3⟩, "002016"⟩,
          ⟨⟨⟨7, "-", "END", "PROG"⟩, 0x201E, 0⟩, []⟩]) := by
    decide +kernel
  obtain ⟨a, ha, hresult⟩ := exists_ok_of_toOption hrun
  obtain ⟨hprogram, hlisting⟩ := Prod.mk.inj hresult
  obtain ⟨records, image, hparse, hload, hname, -, -, hentry, -, hmemory, -⟩ :=
    load_objectProgram (OpcodeTable.isRegular_parse (by decide +kernel)) _ _ _ _ ha
      (by rw [hprogram]; decide) (by rw [hprogram]; decide)
  rw [hprogram] at hname hentry
  rw [hlisting] at hmemory
  refine ⟨a, records, image, ha, hprogram, hparse, hload, hname, hentry, ?_, ?_⟩
  · exact (hmemory _ _).mpr ⟨4, 0, _, [0x41, 0x42], rfl, by rfl, rfl, by decide⟩
  · exact (hmemory _ _).mpr ⟨5, 2, _, [0x00, 0x20, 0x16], rfl, by rfl, rfl, by decide⟩

end Assembly

end Sic
