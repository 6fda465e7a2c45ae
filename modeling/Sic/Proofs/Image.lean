import Sic.Image
import Sic.Proofs.Packing
import Sic.Proofs.Text.Digits

/-!
# Loading what was packed

Loading puts the cells of the text records into memory one after the other, so the image depends on
the cells alone and not on the records that carry them.

* `Image.write` is memory after a sequence of writes; `getElem?_write` says what is in it when no
  address is written twice.
* `Loadable` says of a text record that loading accepts it, `loadTexts_of_loadable` and
  `loadTexts_of_not_loadable` what becomes of a sequence of records.
* `Cell.IsSound` says the same of a cell: its digits are digits, and its address lies within the
  storage of the program.  `forall_loadable_iff` relates the two for packed records: a program can
  be loaded exactly if all its cells are sound.

Records near the last address could wrap around and pass for records at the first one, but none does
without others before it that do not lie in the program.  That is why soundness of a line's cells is
proved from its first cell on (`isSound_of_loadable`).
-/

set_option autoImplicit false

namespace Sic

open Address Text

/-! ## Memory -/

namespace Image

/-- Memory after writing bytes to addresses, one after the other. -/
def write (memory : Std.TreeMap Int UInt8) (writes : List (Int × UInt8)) : Std.TreeMap Int UInt8 :=
  writes.foldl (fun memory e => memory.insert e.1 e.2) memory

theorem write_append (memory : Std.TreeMap Int UInt8) (xs ys : List (Int × UInt8)) :
    write memory (xs ++ ys) = write (write memory xs) ys := by
  rw [write, List.foldl_append]
  rfl

theorem store_eq_write (memory : Std.TreeMap Int UInt8) (a : Int) (bytes : List UInt8) :
    store memory a bytes = write memory (spread a bytes) := by
  rw [store, write, spread, List.foldl_map]

/-- **Where no address is written twice, memory holds what was written to it, and elsewhere what it
held.** -/
theorem getElem?_write {writes : List (Int × UInt8)} (hnodup : (writes.map Prod.fst).Nodup)
    (memory : Std.TreeMap Int UInt8) (a : Int) (b : UInt8) :
    (write memory writes)[a]? = some b ↔
      (a, b) ∈ writes ∨ (a ∉ writes.map Prod.fst ∧ memory[a]? = some b) := by
  induction writes generalizing memory with
  | nil => simp [write]
  | cons e writes ih =>
    rw [List.map_cons, List.nodup_cons] at hnodup
    show (write (memory.insert e.1 e.2) writes)[a]? = some b ↔ _
    rw [ih hnodup.2, Std.TreeMap.getElem?_insert, List.mem_cons, List.map_cons, List.mem_cons]
    by_cases ha : e.1 = a
    · subst ha
      have hnot : (e.1, b) ∉ writes := fun h => hnodup.1 (List.mem_map.mpr ⟨_, h, rfl⟩)
      rw [if_pos (compare_eq_iff_eq.mpr rfl), Option.some_inj]
      constructor
      · rintro (h | ⟨-, rfl⟩)
        · exact absurd h hnot
        · exact Or.inl (Or.inl rfl)
      · rintro ((h | h) | ⟨h, -⟩)
        · exact Or.inr ⟨hnodup.1, by rw [← h]⟩
        · exact absurd h hnot
        · exact absurd (Or.inl rfl) h
    · have hne : (a, b) ≠ e := fun h => ha (by rw [← h])
      rw [if_neg (mt compare_eq_iff_eq.mp ha), or_iff_right hne, not_or, and_iff_right (Ne.symm ha)]

end Image

/-! ## Bytes of records -/

/-- The byte that a cell puts into memory, with its address. -/
def Cell.write (x : Cell) : Int × UInt8 := (x.1, byteOfPair x.2.1 x.2.2)

theorem map_write_spread (a : Int) (code : Text) :
    (spread a (digitPairs code)).map Cell.write = spread a (pairs code) := by
  rw [pairs_eq_map_digitPairs]
  exact map_spread (fun e : UInt8 × UInt8 => byteOfPair e.1 e.2) a (digitPairs code)

theorem pairs_flatten {codes : List Text} (h : ∀ code ∈ codes, code.length % 2 = 0) :
    (codes.map pairs).flatten = pairs codes.flatten := by
  induction codes with
  | nil => rfl
  | cons code codes ih =>
    have hcodes := ih fun other hother => h other (List.mem_cons_of_mem _ hother)
    rw [List.map_cons, List.flatten_cons, List.flatten_cons, hcodes, pairs_eq_map_digitPairs,
      pairs_eq_map_digitPairs, pairs_eq_map_digitPairs,
      digitPairs_append (h code List.mem_cons_self), List.map_append]

namespace TextRecord

theorem codeBytes_of_isHexBytes {code : Text} (h : IsHexBytes code) (start : Int) :
    codeBytes start code = .ok (pairs code) := by
  rw [codeBytes, ofHex_of_isHexBytes h]

theorem codeBytes_of_not_isHexBytes {code : Text} (h : ¬ IsHexBytes code) (start : Int) :
    ∃ e, codeBytes start code = .error e := by
  rw [codeBytes]
  cases hcode : ofHex code with
  | ok bytes => exact absurd (isHexBytes_of_ofHex hcode) h
  | error fault => exact ⟨_, rfl⟩

theorem mapM_codeBytes {codes : List Text} (h : ∀ code ∈ codes, IsHexBytes code) (start : Int) :
    codes.mapM (codeBytes start) = .ok (codes.map pairs) := by
  induction codes with
  | nil => rfl
  | cons code codes ih =>
    rw [List.mapM_cons, codeBytes_of_isHexBytes (h code List.mem_cons_self),
      ih fun other hother => h other (List.mem_cons_of_mem _ hother)]
    rfl

theorem mapM_codeBytes_error {codes : List Text} (h : ¬ ∀ code ∈ codes, IsHexBytes code)
    (start : Int) : ∃ e, codes.mapM (codeBytes start) = .error e := by
  induction codes with
  | nil => exact absurd (fun _ hcode => absurd hcode List.not_mem_nil) h
  | cons code codes ih =>
    rw [List.mapM_cons]
    by_cases hcode : IsHexBytes code
    · obtain ⟨e, he⟩ := ih fun hrest => h (List.forall_mem_cons.mpr ⟨hcode, hrest⟩)
      rw [codeBytes_of_isHexBytes hcode, he]
      exact ⟨e, rfl⟩
    · obtain ⟨e, he⟩ := codeBytes_of_not_isHexBytes hcode start
      rw [he]
      exact ⟨e, rfl⟩

theorem bytes_of_isHexBytes {r : TextRecord} (h : ∀ code ∈ r.codes, IsHexBytes code) :
    r.bytes = .ok (pairs r.codes.flatten) := by
  rw [bytes, mapM_codeBytes h, ← pairs_flatten fun code hcode => (h code hcode).2]
  rfl

theorem bytes_of_not_isHexBytes {r : TextRecord} (h : ¬ ∀ code ∈ r.codes, IsHexBytes code) :
    ∃ e, r.bytes = .error e := by
  obtain ⟨e, he⟩ := mapM_codeBytes_error h r.start
  rw [bytes, he]
  exact ⟨e, rfl⟩

/-! ## Records that can be loaded -/

/-- A text record that loading into the storage of a program accepts: it lies within the storage,
and its code is hexadecimal. -/
def Loadable (start length : Int) (r : TextRecord) : Prop :=
  (start ≤ r.start ∧ offset r.start r.length ≤ offset start length) ∧
    ∀ code ∈ r.codes, IsHexBytes code

end TextRecord

namespace Image

open TextRecord

variable {start length : Int}

theorem loadRecord_of_loadable {r : TextRecord} (h : r.Loadable start length)
    (memory : Std.TreeMap Int UInt8) :
    loadRecord start length memory (.text r) = .ok (write memory (r.cells.map Cell.write)) := by
  obtain ⟨⟨hlow, hhigh⟩, hcodes⟩ := h
  rw [loadRecord, if_neg (by simp [Int.not_lt.mpr hlow, Int.not_lt.mpr hhigh]),
    bytes_of_isHexBytes hcodes, cells, map_write_spread, ← store_eq_write]
  rfl

theorem loadRecord_of_not_loadable {r : TextRecord} (h : ¬ r.Loadable start length)
    (memory : Std.TreeMap Int UInt8) :
    ∃ e, loadRecord start length memory (.text r) = .error e := by
  rw [loadRecord]
  by_cases hout : r.start < start ∨ offset start length < offset r.start r.length
  · rw [if_pos (by simpa using hout)]
    exact ⟨_, rfl⟩
  · rw [if_neg (by simpa using hout)]
    rw [not_or, Int.not_lt, Int.not_lt] at hout
    obtain ⟨e, he⟩ := bytes_of_not_isHexBytes fun hcodes => h ⟨hout, hcodes⟩
    rw [he]
    exact ⟨e, rfl⟩

theorem loadTexts_of_loadable {rs : List TextRecord} (h : ∀ r ∈ rs, r.Loadable start length)
    (memory : Std.TreeMap Int UInt8) :
    (rs.map Record.text).foldlM (loadRecord start length) memory =
      .ok (write memory ((rs.flatMap cells).map Cell.write)) := by
  induction rs generalizing memory with
  | nil => rfl
  | cons r rs ih =>
    rw [List.map_cons, List.foldlM_cons, loadRecord_of_loadable (h r List.mem_cons_self),
      List.flatMap_cons, List.map_append, write_append]
    exact ih (fun r' hr' => h r' (List.mem_cons_of_mem _ hr')) _

theorem loadTexts_of_not_loadable {rs : List TextRecord}
    (h : ¬ ∀ r ∈ rs, r.Loadable start length) (memory : Std.TreeMap Int UInt8) :
    ∃ e, (rs.map Record.text).foldlM (loadRecord start length) memory = .error e := by
  induction rs generalizing memory with
  | nil => exact absurd (fun _ hr => absurd hr List.not_mem_nil) h
  | cons r rs ih =>
    rw [List.map_cons, List.foldlM_cons]
    by_cases hr : r.Loadable start length
    · rw [loadRecord_of_loadable hr]
      exact ih (fun hrest => h (List.forall_mem_cons.mpr ⟨hr, hrest⟩)) _
    · obtain ⟨e, he⟩ := loadRecord_of_not_loadable hr memory
      rw [he]
      exact ⟨e, rfl⟩

/-- A program is loaded by loading the records between its header and its end record. -/
theorem load_program (name : Text) (start length entry : Int) (rs : List TextRecord) :
    load (.header name start length :: (rs.map Record.text ++ [.entry entry])) =
      ((rs.map Record.text).foldlM (loadRecord start length) ∅).map fun memory =>
        ⟨name, start, length, entry, memory⟩ := by
  cases rs with
  | nil => rfl
  | cons r rs =>
    rw [List.map_cons, List.cons_append, load]
    simp only [← List.cons_append, List.getLast?_concat, List.dropLast_concat]

end Image

/-! ## Cells that can be loaded -/

/-- A cell whose digits are digits and whose address lies within the storage of a program. -/
structure Cell.IsSound (start length : Int) (x : Cell) : Prop where
  low : start ≤ x.1
  high : x.1 < start + length
  first : isHexDigit x.2.1 = true
  second : isHexDigit x.2.2 = true

section Sound

/-- The storage of a program whose start and length have at most 32 bits. -/
structure IsStorage (start length : Int) : Prop where
  start_nonneg : 0 ≤ start
  length_nonneg : 0 ≤ length
  end_le : start + length ≤ 8589934592

variable {start length : Int} {c : Capacity} {r : TextRecord}

theorem IsStorage.offset_eq (h : IsStorage start length) :
    offset start length = start + length := by
  obtain ⟨hs, hl, he⟩ := h
  exact offset_eq_add ⟨by omega, by omega⟩

/-- A packed record has a cell for each of its bytes. -/
theorem exists_cell (hr : r.IsPacked c) {k : Nat} (hk : k < r.length) :
    ∃ e, (offset r.start k, e) ∈ r.cells := by
  have hlength : (digitPairs r.codes.flatten).length = r.length := by
    rw [length_digitPairs, hr.length_flatten]
    omega
  exact ⟨_, mem_spread.mpr ⟨k, List.getElem?_eq_getElem (hlength ▸ hk), rfl⟩⟩

theorem isHexBytes_of_isSound (hr : r.IsPacked c)
    (h : ∀ x ∈ r.cells, Cell.IsSound start length x) : ∀ code ∈ r.codes, IsHexBytes code := by
  intro code hcode
  refine ⟨List.all_eq_true.mpr fun d hd => ?_, (hr.whole code hcode).2⟩
  have heven : r.codes.flatten.length % 2 = 0 := by
    rw [hr.length_flatten]
    omega
  obtain ⟨e, he, hde⟩ := (mem_iff_mem_digitPairs heven d).mp (List.mem_flatten_of_mem hcode hd)
  obtain ⟨k, hk⟩ := List.getElem?_of_mem he
  have hx := h _ (mem_spread.mpr ⟨k, hk, rfl⟩)
  rcases hde with rfl | rfl
  · exact hx.first
  · exact hx.second

/-- A record with sound cells starts within the program. -/
theorem start_of_isSound (hr : r.IsPacked c) (hstart : InRange r.start)
    (h : ∀ x ∈ r.cells, Cell.IsSound start length x) :
    start ≤ r.start ∧ r.start < start + length := by
  have hzero : offset r.start (0 : Nat) = r.start := by
    rw [Int.natCast_zero, offset_eq_add (by rwa [Int.add_zero]), Int.add_zero]
  obtain ⟨e, he⟩ := exists_cell hr hr.length_pos
  rw [hzero] at he
  exact ⟨(h _ he).low, (h _ he).high⟩

/-- A record with sound cells can be loaded. -/
theorem loadable_of_isSound (hs : IsStorage start length) (hr : r.IsPacked c)
    (hstart : InRange r.start) (h : ∀ x ∈ r.cells, Cell.IsSound start length x) :
    r.Loadable start length := by
  have hpos := hr.length_pos
  have hcap := hr.length_le
  have hmax := c.le_max
  have hnonneg := hs.start_nonneg
  have hend := hs.end_le
  obtain ⟨hlow, hhigh⟩ := start_of_isSound hr hstart h
  obtain ⟨last, hlast⟩ := exists_cell hr (Nat.sub_lt hpos Nat.one_pos)
  have hlasthigh := (h _ hlast).high
  simp only [offset_eq_add (a := r.start) (n := ((r.length - 1 : Nat) : Int))
    ⟨by omega, by omega⟩] at hlasthigh
  refine ⟨⟨hlow, ?_⟩, isHexBytes_of_isSound hr h⟩
  rw [hs.offset_eq, offset_eq_add ⟨by omega, by omega⟩]
  omega

/-- The cells of a record that can be loaded are sound, where they do not wrap around. -/
theorem isSound_of_loadable (hs : IsStorage start length) (hr : r.IsPacked c)
    (hstart : InRange r.start) (h : r.Loadable start length) {x : Cell} (hx : x ∈ r.cells)
    (hlow : 0 ≤ x.1) (hhigh : x.1 ≤ 8589934592) : Cell.IsSound start length x := by
  obtain ⟨⟨hfirst, hlast⟩, hcodes⟩ := h
  obtain ⟨a, e⟩ := x
  obtain ⟨k, hk, rfl⟩ := mem_spread.mp hx
  have hdigit : ∀ d, d = e.1 ∨ d = e.2 → isHexDigit d = true := by
    intro d hd
    have heven : r.codes.flatten.length % 2 = 0 := by
      rw [hr.length_flatten]
      omega
    obtain ⟨code, hcode, hmem⟩ := List.mem_flatten.mp
      ((mem_iff_mem_digitPairs heven d).mpr ⟨e, List.mem_of_getElem? hk, hd⟩)
    exact List.all_eq_true.mp (hcodes code hcode).1 d hmem
  have hklt : k < r.length := by
    have hk' := (List.getElem?_eq_some_iff.mp hk).1
    rw [length_digitPairs, hr.length_flatten] at hk'
    omega
  have hcap := hr.length_le
  have hmax := c.le_max
  have hnonneg := hs.start_nonneg
  have hend := hs.end_le
  have ha : offset r.start k = r.start + k :=
    offset_of_nonneg (by omega) hstart (by omega) (by omega) hlow
  simp only [ha] at hlow hhigh ⊢
  rw [hs.offset_eq, offset_eq_add ⟨by omega, by omega⟩] at hlast
  exact ⟨by omega, by omega, hdigit _ (Or.inl rfl), hdigit _ (Or.inr rfl)⟩

/-- If those cells of a line are sound that do not wrap around, none does. -/
theorem isSound_of_line (hs : IsStorage start length) {l : Listed} (hlow : 0 ≤ l.address)
    (hhigh : l.address < 4294967296)
    (h : ∀ x ∈ l.cells, 0 ≤ x.1 → x.1 ≤ 8589934592 → Cell.IsSound start length x) :
    ∀ x ∈ l.cells, Cell.IsSound start length x := by
  have hend := hs.end_le
  -- From one cell to the next: a sound cell lies before the end of the program.
  have hbound : ∀ k : Nat, k < (digitPairs (evenDigits l.code)).length →
      l.address + k ≤ 8589934592 := by
    intro k hk
    induction k with
    | zero => omega
    | succ k ih =>
      have hle := ih (by omega)
      have hadd : offset l.address k = l.address + k := offset_eq_add ⟨by omega, by omega⟩
      have hmem : (offset l.address k, (digitPairs (evenDigits l.code))[k]) ∈ l.cells :=
        mem_spread.mpr ⟨k, List.getElem?_eq_getElem (by omega), rfl⟩
      have hsound := (h _ hmem (by simp only [hadd]; omega) (by simp only [hadd]; omega)).high
      simp only [hadd] at hsound
      omega
  rintro ⟨a, e⟩ hx
  obtain ⟨k, hk, rfl⟩ := mem_spread.mp hx
  have hle := hbound k (List.getElem?_eq_some_iff.mp hk).1
  have hadd : offset l.address k = l.address + k := offset_eq_add ⟨by omega, by omega⟩
  exact h _ hx (by simp only [hadd]; omega) (by simp only [hadd]; omega)

/-- **Packed records can be loaded exactly if the cells of the lines are sound.** -/
theorem forall_loadable_iff (hs : IsStorage start length) {p : Packing}
    (hp : p.breakAtGaps = true) {lines : List Listed}
    (hlines : ∀ l ∈ lines, 0 ≤ l.address ∧ l.address < 4294967296) :
    (∀ r ∈ p.pack none lines, r.Loadable start length) ↔
      ∀ x ∈ lines.flatMap Listed.cells, Cell.IsSound start length x := by
  have hpacked := Packing.isPacked_of_mem_pack p lines
  have hrange : ∀ r ∈ p.pack none lines, InRange r.start :=
    Packing.inRange_of_mem_pack fun l hl => by
      have := hlines l hl
      exact ⟨by omega, by omega⟩
  have hcells := Packing.cells_pack hp lines
  constructor
  · intro h x hx
    obtain ⟨l, hl, hxl⟩ := List.mem_flatMap.mp hx
    refine isSound_of_line hs (hlines l hl).1 (hlines l hl).2 (fun y hy hlow hhigh => ?_) x hxl
    obtain ⟨r, hr, hyr⟩ := List.mem_flatMap.mp (hcells ▸ List.mem_flatMap.mpr ⟨l, hl, hy⟩)
    exact isSound_of_loadable hs (hpacked r hr) (hrange r hr) (h r hr) hyr hlow hhigh
  · intro h r hr
    exact loadable_of_isSound hs (hpacked r hr) (hrange r hr) fun x hx =>
      h x (hcells ▸ List.mem_flatMap.mpr ⟨r, hr, hx⟩)

end Sound

/-! ## Loading an emitted program -/

section Emit

variable {program : Program} {p : Packing} {lines : List Listed}

theorem load_emit (p : Packing) (program : Program) (lines : List Listed) :
    Image.load ((Emitter.object p).emit program lines) =
      (((p.pack none lines).map Record.text).foldlM
        (Image.loadRecord program.start program.length) ∅).map fun memory =>
          ⟨program.name, program.start, program.length, program.start, memory⟩ :=
  Image.load_program _ _ _ _ _

/-- **An emitted program with sound cells is loaded**, and its memory holds the cells of its
lines. -/
theorem load_emit_of_isSound (hs : IsStorage program.start program.length)
    (hp : p.breakAtGaps = true)
    (hlines : ∀ l ∈ lines, 0 ≤ l.address ∧ l.address < 4294967296)
    (h : ∀ x ∈ lines.flatMap Listed.cells, Cell.IsSound program.start program.length x) :
    Image.load ((Emitter.object p).emit program lines) =
      .ok ⟨program.name, program.start, program.length, program.start,
        Image.write ∅ ((lines.flatMap Listed.cells).map Cell.write)⟩ := by
  rw [load_emit, Image.loadTexts_of_loadable ((forall_loadable_iff hs hp hlines).mpr h),
    Packing.cells_pack hp]
  rfl

/-- An emitted program with a cell that is not sound cannot be loaded. -/
theorem load_emit_of_not_isSound (hs : IsStorage program.start program.length)
    (hp : p.breakAtGaps = true)
    (hlines : ∀ l ∈ lines, 0 ≤ l.address ∧ l.address < 4294967296)
    (h : ¬ ∀ x ∈ lines.flatMap Listed.cells, Cell.IsSound program.start program.length x) :
    ∃ e, Image.load ((Emitter.object p).emit program lines) = .error e := by
  obtain ⟨e, he⟩ := Image.loadTexts_of_not_loadable
    (mt (forall_loadable_iff hs hp hlines).mp h) ∅
  rw [load_emit, he]
  exact ⟨e, rfl⟩

/-- The lines of a listing that have code. -/
def Listed.coded (lines : List Listed) : List Listed := lines.filter fun l => !l.code.isEmpty

theorem flatMap_cells_coded (lines : List Listed) :
    (Listed.coded lines).flatMap Listed.cells = lines.flatMap Listed.cells := by
  induction lines with
  | nil => rfl
  | cons l lines ih =>
    rw [Listed.coded, List.filter_cons]
    by_cases hl : l.code = []
    · rw [if_neg (by simp [hl]), List.flatMap_cons, Listed.cells_of_code_nil hl]
      exact ih
    · rw [if_pos (by simpa using hl), List.flatMap_cons, List.flatMap_cons]
      exact congrArg (l.cells ++ ·) ih

theorem cells_emit_object (hp : p.breakAtGaps = true) (program : Program) (lines : List Listed) :
    ((Emitter.object p).emit program lines).flatMap Record.cells =
      (Listed.coded lines).flatMap Listed.cells := by
  have htexts : ((p.pack none lines).map Record.text).flatMap Record.cells =
      (p.pack none lines).flatMap TextRecord.cells := by
    rw [List.flatMap_map]
    rfl
  rw [flatMap_cells_coded, ← Packing.cells_pack hp, ← htexts]
  show (_ :: ((p.pack none lines).map Record.text ++ [_])).flatMap Record.cells = _
  rw [List.flatMap_cons, List.flatMap_append, List.flatMap_singleton]
  exact List.append_nil _

theorem cells_emit_dump (program : Program) {lines : List Listed}
    (h : ∀ l ∈ lines, l.code.length % 2 = 0) :
    (Emitter.dump.emit program lines).flatMap Record.cells =
      (Listed.coded lines).flatMap Listed.cells := by
  rw [flatMap_cells_coded]
  show (lines.filterMap _).flatMap Record.cells = _
  induction lines with
  | nil => rfl
  | cons l lines ih =>
    have hrest := ih fun l' hl' => h l' (List.mem_cons_of_mem _ hl')
    rw [List.filterMap_cons, List.flatMap_cons, ← hrest]
    by_cases hl : l.code = []
    · rw [Listed.cells_of_code_nil hl, hl]
      rfl
    · rw [if_neg (by simpa using hl), Listed.cells, evenDigits, if_pos (h l List.mem_cons_self)]
      rfl

/-- **The capacity of records does not matter.**  Breaking at gaps, the records carry the cells of
the lines with code, in order, which is what a dump of the lines shows if their code is in whole
bytes.  So whatever the capacity, loading fails or gives the same image, if the numbers of the
program and the addresses of its lines fit into 32 bits. -/
theorem emit_cells_capacity_irrelevant (program : Program) (lines : List Listed) (maxBytes : Int) :
    ((Emitter.object (.ofSettings maxBytes true)).emit program lines).flatMap Record.cells =
        (Listed.coded lines).flatMap Listed.cells ∧
      ((∀ l ∈ lines, l.code.length % 2 = 0) →
        (Emitter.dump.emit program lines).flatMap Record.cells =
          (Listed.coded lines).flatMap Listed.cells) ∧
      (Fits32 program.start → Fits32 program.length → (∀ l ∈ lines, Fits32 l.address) →
        ∀ otherBytes : Int,
          (Image.load ((Emitter.object (.ofSettings maxBytes true)).emit program lines)).toOption =
            (Image.load
              ((Emitter.object (.ofSettings otherBytes true)).emit program lines)).toOption) := by
  refine ⟨cells_emit_object rfl program lines, cells_emit_dump program, ?_⟩
  intro hstart hlength hlines otherBytes
  have hs : IsStorage program.start program.length := by
    obtain ⟨hs, hs'⟩ := hstart
    obtain ⟨hl, hl'⟩ := hlength
    exact ⟨hs, hl, by omega⟩
  by_cases hsound : ∀ x ∈ lines.flatMap Listed.cells,
      Cell.IsSound program.start program.length x
  · rw [load_emit_of_isSound hs rfl hlines hsound, load_emit_of_isSound hs rfl hlines hsound]
  · obtain ⟨e, he⟩ := load_emit_of_not_isSound (p := .ofSettings maxBytes true) hs rfl hlines hsound
    obtain ⟨e', he'⟩ :=
      load_emit_of_not_isSound (p := .ofSettings otherBytes true) hs rfl hlines hsound
    rw [he, he']
    rfl

/-- A listing with a gap, a code longer than its line, which runs into the next line, and one longer
than a small record. -/
def raggedLines : List Listed :=
  [⟨⟨⟨2, "A", "LDA", "-"⟩, 0, 3⟩, "000000"⟩, ⟨⟨⟨3, "B", "STX", "D"⟩, 3, 3⟩, "010C0009"⟩,
    ⟨⟨⟨4, "C", "LDA", "D"⟩, 6, 3⟩, "000009"⟩, ⟨⟨⟨5, "D", "RESB", "4"⟩, 9, 4⟩, []⟩,
    ⟨⟨⟨6, "E", "WORD", "1"⟩, 13, 3⟩, "000001"⟩]

theorem emit_cells_capacity_irrelevant_ragged :
    (Image.load
        ((Emitter.object (.ofSettings 2 true)).emit ⟨"P", 0, 16⟩ raggedLines)).toOption.isSome =
        true ∧
      (Image.load ((Emitter.object (.ofSettings 2 true)).emit ⟨"P", 0, 16⟩ raggedLines)).toOption =
        (Image.load
          ((Emitter.object (.ofSettings 0 true)).emit ⟨"P", 0, 16⟩ raggedLines)).toOption ∧
      (Emitter.dump.emit ⟨"P", 0, 16⟩ raggedLines).flatMap Record.cells =
        (Listed.coded raggedLines).flatMap Listed.cells :=
  ⟨by decide +kernel,
    (emit_cells_capacity_irrelevant ⟨"P", 0, 16⟩ raggedLines 2).2.2 (by decide) (by decide)
      (by decide +kernel) 0,
    (emit_cells_capacity_irrelevant ⟨"P", 0, 16⟩ raggedLines 2).2.1 (by decide +kernel)⟩

end Emit

end Sic
