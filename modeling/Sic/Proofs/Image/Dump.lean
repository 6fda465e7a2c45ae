import Sic.Image
import Sic.Proofs.Text.Digits
import Sic.Proofs.Text.Fields

/-!
# What a dump shows

A dump shows the whole memory of an image and nothing else, so images that agree otherwise can be
told apart by their dumps exactly if their memories differ.

* `mem_rows` and `pairwise_rows`: there is one row for every block of sixteen addresses with a byte
  in it, in the order of the addresses.  The addresses of bytes are found in order, so those of their
  rows are in order too, but they repeat; `pairwise_eraseReps` is about leaving out the repetitions.
* `fields_rowText`: the fields of a row are its address and sixteen columns, one for each address of
  the block.
* `column_inj` and `hex_inj` read the columns and the address back, and from the lines of a dump its
  rows can be read back: `getElem?_eq_of_dump_eq`.
-/

set_option autoImplicit false

namespace Sic.Image

open Address Text

/-! ## Repetitions in an ordered list -/

theorem mem_loop {x a : Int} {xs kept : List Int} :
    x ∈ List.eraseRepsBy.loop (· == ·) a xs kept ↔ x ∈ kept ∨ x = a ∨ x ∈ xs := by
  induction xs generalizing a kept with
  | nil => simp [List.eraseRepsBy.loop, or_comm]
  | cons b xs ih =>
    simp only [List.eraseRepsBy.loop]
    split
    · rename_i hab
      rw [ih, beq_iff_eq.mp hab]
      simp
    · rw [ih, List.mem_cons, List.mem_cons]
      tauto

/-- What is kept lies below what comes next, and that below or at what follows. -/
theorem pairwise_loop {a : Int} {xs kept : List Int} (hkept : (kept.reverse ++ [a]).Pairwise (· < ·))
    (hxs : (a :: xs).Pairwise (· ≤ ·)) :
    (List.eraseRepsBy.loop (· == ·) a xs kept).Pairwise (· < ·) := by
  induction xs generalizing a kept with
  | nil => simpa [List.eraseRepsBy.loop] using hkept
  | cons b xs ih =>
    obtain ⟨hle, htail⟩ := List.pairwise_cons.mp hxs
    simp only [List.eraseRepsBy.loop]
    split
    · exact ih hkept (List.pairwise_cons.mpr
        ⟨fun x hx => hle x (List.mem_cons_of_mem b hx), htail.tail⟩)
    · rename_i hab
      have hlt : a < b := lt_of_le_of_ne (hle b List.mem_cons_self) (by simpa using hab)
      refine ih ?_ htail
      rw [List.reverse_cons, List.pairwise_append]
      refine ⟨hkept, List.pairwise_singleton _ _, fun x hx y hy => ?_⟩
      obtain rfl := List.mem_singleton.mp hy
      rcases List.mem_append.mp hx with hx | hx
      · exact Int.lt_trans ((List.pairwise_append.mp hkept).2.2 x hx a List.mem_cons_self) hlt
      · exact List.mem_singleton.mp hx ▸ hlt

theorem mem_eraseReps {x : Int} {xs : List Int} : x ∈ xs.eraseReps ↔ x ∈ xs := by
  cases xs with
  | nil => rfl
  | cons a xs =>
    rw [List.eraseReps, List.eraseRepsBy, mem_loop, List.mem_cons]
    simp

/-- Without repetitions a list in order is in strict order. -/
theorem pairwise_eraseReps {xs : List Int} (h : xs.Pairwise (· ≤ ·)) :
    xs.eraseReps.Pairwise (· < ·) := by
  cases xs with
  | nil => exact List.Pairwise.nil
  | cons a xs => exact pairwise_loop (List.pairwise_singleton _ _) h

/-! ## Rows -/

/-- The row of an address is the block of sixteen addresses that it is in. -/
theorem rowOf_eq_iff {row a : Int} : rowOf a = row ↔ 16 ∣ row ∧ row ≤ a ∧ a < row + 16 := by
  rw [rowOf]
  omega

/-- **There is a row for every block with a byte in it.** -/
theorem mem_rows {image : Image} {row : Int} :
    row ∈ image.rows ↔ 16 ∣ row ∧ ∃ a ∈ image.memory, row ≤ a ∧ a < row + 16 := by
  rw [rows, mem_eraseReps, List.mem_map]
  simp only [Std.TreeMap.mem_keys, rowOf_eq_iff]
  constructor
  · rintro ⟨a, ha, hrow, hbounds⟩
    exact ⟨hrow, a, ha, hbounds⟩
  · rintro ⟨hrow, a, ha, hbounds⟩
    exact ⟨a, ha, hrow, hbounds⟩

/-- **Rows are in order.** -/
theorem pairwise_rows (image : Image) : image.rows.Pairwise (· < ·) := by
  refine pairwise_eraseReps (List.pairwise_map.mpr (Std.TreeMap.ordered_keys.imp ?_))
  intro a b hlt
  have hlt : a < b := Std.compare_eq_lt.mp hlt
  rw [rowOf, rowOf]
  omega

/-! ## Columns -/

/-- What a dump shows for an address: the two digits of the byte there, or two points. -/
def column : Option UInt8 → Text
  | some b => [hexDigit (b.toNat / 16), hexDigit (b.toNat % 16)]
  | none => [0x2E, 0x2E]

theorem column_some (b : UInt8) : column (some b) = hex 2 b.toNat := (hex_two_toNat b).symm

theorem cellText_eq (cell : Option UInt8) : cellText cell = 0x20 :: column cell := by
  cases cell with
  | none => rfl
  | some b => rw [column_some]; rfl

theorem isWord_column (cell : Option UInt8) : IsWord (column cell) := by
  cases cell with
  | none => exact ⟨List.cons_ne_nil _ _, by decide +kernel⟩
  | some b =>
    rw [column_some]
    exact isWord_of_solid (hex_ne_nil 2 b.toNat) fun _ hb => isSolid_of_mem_hex hb

theorem column_some_ne_none (b : UInt8) : column (some b) ≠ column none := by
  intro h
  have hpoint : (0x2E : UInt8) ∈ hex 2 (b.toNat : Int) := by
    rw [← column_some, h]
    exact List.mem_cons_self
  exact absurd (isHexDigit_of_mem_hex (Int.natCast_nonneg _) hpoint) (by decide)

/-- **Columns that look alike show the same.** -/
theorem column_inj {cell cell' : Option UInt8} (h : column cell = column cell') : cell = cell' := by
  cases cell with
  | none => cases cell' with
    | none => rfl
    | some b' => exact absurd h.symm (column_some_ne_none b')
  | some b => cases cell' with
    | none => exact absurd h (column_some_ne_none b)
    | some b' =>
      rw [column_some, column_some, hex_inj] at h
      exact congrArg some (UInt8.toNat_inj.mp (Int.ofNat_inj.mp h))

/-- What a dump shows for the addresses of a row. -/
def columns (image : Image) (row : Int) : List Text :=
  (List.range 16).map fun i : Nat => column image.memory[row + (i : Int)]?

theorem rowText_eq (image : Image) (row : Int) :
    image.rowText row = text₆ row ++ [0x20] ++ (image.columns row).flatMap (0x20 :: ·) := by
  rw [rowText, columns, List.flatMap_map]
  simp only [cellText_eq]
  rfl

theorem isWord_text₆ (a : Int) : IsWord (text₆ a) :=
  isWord_of_solid (hex_ne_nil 6 a) fun _ hb => isSolid_of_mem_hex hb

/-- **The fields of a row are its address and its columns.** -/
theorem fields_rowText (image : Image) (row : Int) :
    fields (image.rowText row) = text₆ row :: image.columns row := by
  have hcolumns : ∀ w ∈ image.columns row, IsWord w := by
    intro w hw
    obtain ⟨i, -, rfl⟩ := List.mem_map.mp hw
    exact isWord_column _
  rw [rowText_eq, fields_append_flatMap hcolumns, fields_append_blank rfl,
    (isWord_text₆ row).fields_eq]
  rfl

theorem feed_not_mem_rowText (image : Image) (row : Int) : (0x0A : UInt8) ∉ image.rowText row := by
  rw [rowText_eq, List.mem_append, List.mem_append, List.mem_flatMap]
  rintro ((h | h) | ⟨w, hw, h⟩)
  · exact (isWord_text₆ row).not_mem_of_blank rfl h
  · exact absurd h (by decide)
  · obtain ⟨i, -, rfl⟩ := List.mem_map.mp hw
    rcases List.mem_cons.mp h with h | h
    · exact absurd h (by decide)
    · exact (isWord_column _).not_mem_of_blank rfl h

/-! ## Dumps that are equal -/

section Equal

variable {image image' : Image}

/-- The first line of a dump. -/
def heading (image : Image) : Text :=
  image.name ++ " start " ++ text₆ image.start ++ " length " ++ text₆ image.length ++ " entry " ++
    text₆ image.entry

theorem dump_eq (image : Image) :
    image.dump = image.heading ++ 0x0A :: unlines (image.rows.map image.rowText) := by
  rw [dump, unlines, List.flatMap_cons, List.append_assoc]
  rfl

/-- An address without a row has no byte. -/
theorem getElem?_of_not_mem_rows {a : Int} (h : rowOf a ∉ image.rows) : image.memory[a]? = none := by
  refine Std.TreeMap.getElem?_eq_none fun ha => h ?_
  obtain ⟨hrow, hbounds⟩ := rowOf_eq_iff.mp (rfl : rowOf a = rowOf a)
  exact mem_rows.mpr ⟨hrow, a, ha, hbounds⟩

/-- A row shows what is at its addresses. -/
theorem getElem?_eq_of_columns_eq {a : Int}
    (h : image.columns (rowOf a) = image'.columns (rowOf a)) :
    image.memory[a]? = image'.memory[a]? := by
  obtain ⟨-, hlow, hhigh⟩ := rowOf_eq_iff.mp (rfl : rowOf a = rowOf a)
  have hcolumn := List.map_inj_left.mp h (a - rowOf a).toNat (List.mem_range.mpr (by omega))
  have ha : rowOf a + ((a - rowOf a).toNat : Int) = a := by omega
  rw [ha] at hcolumn
  exact column_inj hcolumn

/-- **A dump loses nothing.** -/
theorem getElem?_eq_of_dump_eq (hheading : image.heading = image'.heading)
    (h : image.dump = image'.dump) (a : Int) : image.memory[a]? = image'.memory[a]? := by
  rw [dump_eq, dump_eq, hheading, List.append_cancel_left_eq, List.cons.injEq] at h
  have hlines : image.rows.map image.rowText = image'.rows.map image'.rowText :=
    (unlines_inj (List.forall_mem_map.mpr fun row _ => feed_not_mem_rowText image row)
      (List.forall_mem_map.mpr fun row _ => feed_not_mem_rowText image' row)).mp h.2
  have hfields := congrArg (List.map fields) hlines
  simp only [List.map_map, Function.comp_def, fields_rowText] at hfields
  have hrows : image.rows = image'.rows := by
    have hheads := congrArg (List.map List.head?) hfields
    simp only [List.map_map, Function.comp_def, List.head?_cons] at hheads
    exact (List.map_inj_right fun x y hxy => hex_inj.mp (Option.some_inj.mp hxy)).mp hheads
  by_cases hrow : rowOf a ∈ image.rows
  · rw [← hrows] at hfields
    have hcolumns := List.map_inj_left.mp hfields (rowOf a) hrow
    exact getElem?_eq_of_columns_eq (List.cons.inj hcolumns).2
  · rw [getElem?_of_not_mem_rows hrow, getElem?_of_not_mem_rows (hrows ▸ hrow)]

theorem dump_eq_of_getElem?_eq (hheading : image.heading = image'.heading)
    (h : ∀ a : Int, image.memory[a]? = image'.memory[a]?) : image.dump = image'.dump := by
  have hequiv : image.memory.Equiv image'.memory := Std.TreeMap.Equiv.of_forall_constGet?_eq h
  have hrowText : image.rowText = image'.rowText := by
    funext row
    simp only [rowText, h]
  rw [dump_eq, dump_eq, hheading, hrowText, rows, rows, hequiv.keys_eq]

end Equal

/-- **A dump shows each byte of memory once, and nothing else.**  Behind its first line it has one
row for every block of sixteen addresses with a byte in it, in increasing order; the row begins with
the address of the block, and its columns show for each address the byte there, or two points.  So
images that agree otherwise have the same dump exactly if they have the same memory. -/
theorem dump_shows_memory (image : Image) :
    (∃ rows : List Int,
      image.dump = image.name ++ " start " ++ text₆ image.start ++ " length " ++
        text₆ image.length ++ " entry " ++ text₆ image.entry ++ "\n" ++
        unlines (rows.map image.rowText) ∧
      rows.Pairwise (· < ·) ∧
      (∀ row, row ∈ rows ↔ 16 ∣ row ∧ ∃ a ∈ image.memory, row ≤ a ∧ a < row + 16) ∧
      ∀ row ∈ rows, fields (image.rowText row) =
        text₆ row :: (List.range 16).map fun i : Nat => column image.memory[row + (i : Int)]?) ∧
    ∀ image' : Image, image'.name = image.name → image'.start = image.start →
      image'.length = image.length → image'.entry = image.entry →
      (image'.dump = image.dump ↔ ∀ a : Int, image'.memory[a]? = image.memory[a]?) := by
  constructor
  · refine ⟨image.rows, ?_, pairwise_rows image, fun row => mem_rows, fun row _ =>
      fields_rowText image row⟩
    rw [dump_eq, List.append_assoc _ ("\n" : Text)]
    rfl
  · intro image' hname hstart hlength hentry
    have hheading : image'.heading = image.heading := by
      rw [heading, heading, hname, hstart, hlength, hentry]
    exact ⟨getElem?_eq_of_dump_eq hheading, dump_eq_of_getElem?_eq hheading⟩

/-- Bytes at both ends of a block below zero and far above, put into memory in two orders. -/
def scattered : Image := ⟨"P", 16, 3, 16, ((Std.TreeMap.empty.insert (-16) 0).insert (-1) 0xAB).insert
  0x1000000 0x0F⟩

/-- The same bytes, put into memory in another order and one of them twice. -/
def gathered : Image := ⟨"P", 16, 3, 16, (((Std.TreeMap.empty.insert (-1) 1).insert 0x1000000
  0x0F).insert (-1) 0xAB).insert (-16) 0⟩

theorem dump_shows_memory_scattered :
    scattered.dump = unlines ["P start 000010 length 000003 entry 000010",
        "-00010  00 .. .. .. .. .. .. .. .. .. .. .. .. .. .. AB",
        "1000000  0F .. .. .. .. .. .. .. .. .. .. .. .. .. .. .."] ∧
      gathered.dump = scattered.dump ∧
      ∀ a : Int, gathered.memory[a]? = scattered.memory[a]? := by
  have hdump : gathered.dump = scattered.dump := by decide +kernel
  exact ⟨by decide +kernel, hdump,
    ((dump_shows_memory scattered).2 gathered rfl rfl rfl rfl).mp hdump⟩

end Sic.Image
