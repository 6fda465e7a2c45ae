import Mathlib.Data.List.Forall2
import Sic.Proofs.Image

/-!
# The pieces that code is cut into

A line's code goes into a record in one piece if it fits into a record at all.  Longer code is cut:
what the open record has room for, then as much as a record holds, until nothing is left.

* `Listed.IsCutInto` relates a line to its pieces: put together they are its code in whole bytes,
  and there is only one of them if the code fits.
* `isCutInto_packLine` is the step: the records that a line leads to carry what was open and then
  the pieces of the line.  Code that fits and goes on in the open record has room there
  (`length_le_of_continues`), which is why it is not cut.
* `exists_pieces_pack` is the run: the pieces in all records are those of the lines, in order.

Every piece holds a byte at least (`two_mul_length_le`), so there are no more pieces than
bytes, whatever the capacity.
-/

set_option autoImplicit false

namespace Sic

open Address Text

/-- Pieces of a line's code: together they are the code in whole bytes, and code that fits into a
record is a single piece. -/
structure Listed.IsCutInto (limit : Nat) (l : Listed) (pieces : List Text) : Prop where
  flatten_eq : pieces.flatten = evenDigits l.code
  whole : (l.code.length + 1) / 2 ≤ limit → pieces = [evenDigits l.code]

theorem Listed.coded_cons_of_nil {l : Listed} (h : l.code = []) (lines : List Listed) :
    coded (l :: lines) = coded lines := by
  simp [coded, h]

theorem Listed.coded_cons_of_code {l : Listed} (h : l.code ≠ []) (lines : List Listed) :
    coded (l :: lines) = l :: coded lines := by
  simp [coded, h]

theorem Listed.mem_coded {l : Listed} {lines : List Listed} :
    l ∈ coded lines ↔ l ∈ lines ∧ l.code ≠ [] := by
  simp [coded]

namespace Packing

open TextRecord

/-! ## Cutting a line -/

section Line

variable {c : Capacity} {r : TextRecord} {a : Int} {code : Text}

/-- Code that fits into a record fills one. -/
theorem fill_of_fits (hne : code ≠ []) (hfits : code.length ≤ 2 * c.bytes) :
    fill c a code = [⟨a, [code]⟩] := by
  rw [fill_of_ne_nil hne, List.take_of_length_le hfits, List.drop_of_length_le hfits, fill_nil]

/-- Code that the open record has room for is added to it. -/
theorem pour_of_fits (hne : code ≠ []) (heven : code.length % 2 = 0)
    (hfits : r.length + code.length / 2 ≤ c.bytes) : pour c r a code = [append r code] := by
  have hpos := List.length_pos_iff.mpr hne
  have hroom : code.length ≤ 2 * (c.bytes - r.length) := by omega
  rw [pour_of_room rfl (by omega), List.take_of_length_le hroom, List.drop_of_length_le hroom,
    fill_nil]

/-- A line that goes on in the open record and fits into a record has room there. -/
theorem length_le_of_continues {p : Packing} {o : Open} {l : Listed}
    (h : p.continues o l = true) (hfits : (l.code.length + 1) / 2 ≤ p.capacity.bytes) :
    o.record.length + (l.code.length + 1) / 2 ≤ p.capacity.bytes := by
  simp only [continues] at h
  split at h
  · cases h
  · simpa [hfits] using h

/-- The pieces in records, put together, are the code in records. -/
theorem flatten_flatMap_codes (records : List TextRecord) :
    (records.flatMap codes).flatten = records.flatMap fun r => r.codes.flatten := by
  induction records with
  | nil => rfl
  | cons r records ih => simp [ih]

/-- Code poured into a record is cut into what is added to the record and what fills new ones. -/
theorem exists_pieces_pour (c : Capacity) (r : TextRecord) (a : Int) (code : Text) :
    ∃ pieces, (pour c r a code).flatMap codes = r.codes ++ pieces ∧ pieces.flatten = code := by
  by_cases hfull : c.bytes - r.length = 0
  · refine ⟨(fill c a code).flatMap codes, ?_, ?_⟩
    · rw [pour_of_full hfull, List.flatMap_cons]
    · rw [flatten_flatMap_codes, codes_fill]
  · rw [pour_of_room rfl hfull]
    generalize c.bytes - r.length = room
    refine ⟨code.take (2 * room) ::
      (fill c (offset a room) (code.drop (2 * room))).flatMap codes, by simp [append], ?_⟩
    rw [List.flatten_cons, flatten_flatMap_codes, codes_fill, List.take_append_drop]

/-- **What packing a line adds to the pieces in records**: the pieces that the line is cut into. -/
theorem isCutInto_packLine (p : Packing) (o : Option Open) {l : Listed} (hl : l.code ≠ []) :
    ∃ pieces, l.IsCutInto p.capacity.bytes pieces ∧
      (p.packLine o l).flatMap codes = (openRecords o).flatMap codes ++ pieces := by
  have hne : evenDigits l.code ≠ [] := mt evenDigits_eq_nil.mp hl
  have hlength := length_evenDigits l.code
  obtain ⟨x, rfl, hx, hpour⟩ | hfill := packLine_cases p o l
  · obtain ⟨pieces, hpieces, hflatten⟩ :=
      exists_pieces_pour p.capacity x.record l.address (evenDigits l.code)
    refine ⟨pieces, ⟨hflatten, fun hfits => ?_⟩, by rw [hpour, hpieces]; simp [openRecords]⟩
    have hroom := length_le_of_continues hx hfits
    rw [pour_of_fits hne (evenDigits_even _) (by omega)] at hpieces
    simpa [append] using hpieces.symm
  · refine ⟨(fill p.capacity l.address (evenDigits l.code)).flatMap codes,
      ⟨?_, fun hfits => ?_⟩, by rw [hfill, List.flatMap_append]⟩
    · rw [flatten_flatMap_codes, codes_fill]
    · rw [fill_of_fits hne (by omega)]
      simp

end Line

/-! ## Cutting a listing -/

/-- **The pieces in records are those of the lines with code, in order.** -/
theorem exists_pieces_pack (p : Packing) (o : Option Open) (lines : List Listed) :
    ∃ pieces, List.Forall₂ (Listed.IsCutInto p.capacity.bytes) (Listed.coded lines) pieces ∧
      (p.pack o lines).flatMap codes = (openRecords o).flatMap codes ++ pieces.flatten := by
  induction lines generalizing o with
  | nil => exact ⟨[], List.Forall₂.nil, by simp [pack, openRecords]⟩
  | cons l lines ih =>
    by_cases hl : l.code = []
    · rw [pack_cons_of_nil hl, Listed.coded_cons_of_nil hl]
      exact ih o
    · obtain ⟨first, hfirst, hline⟩ := isCutInto_packLine p o hl
      obtain ⟨rest, hrest, hpack⟩ :=
        ih (opened (p.packLine o l) (offset l.address l.size))
      refine ⟨first :: rest, ?_, ?_⟩
      · rw [Listed.coded_cons_of_code hl]
        exact List.Forall₂.cons hfirst hrest
      · rw [pack_cons_of_code hl, List.flatMap_append, hpack, ← List.append_assoc,
          ← List.flatMap_append, dropLast_append_openRecords, hline, List.append_assoc,
          List.flatten_cons]

theorem exists_of_forall₂ {α β : Type} {R : α → β → Prop} {xs : List α} {ys : List β}
    (h : List.Forall₂ R xs ys) {x : α} (hx : x ∈ xs) : ∃ y ∈ ys, R x y := by
  induction h with
  | nil => cases hx
  | cons hxy _ ih =>
    rcases List.mem_cons.mp hx with rfl | hx
    · exact ⟨_, List.mem_cons_self, hxy⟩
    · obtain ⟨y, hy, hR⟩ := ih hx
      exact ⟨y, List.mem_cons_of_mem _ hy, hR⟩

/-- Code that fits into a record is carried in one piece. -/
theorem exists_mem_codes_of_fits {p : Packing} {lines : List Listed} {l : Listed} (hl : l ∈ lines)
    (hcode : l.code ≠ []) (hfits : (l.code.length + 1) / 2 ≤ p.capacity.bytes) :
    ∃ r ∈ p.pack none lines, evenDigits l.code ∈ r.codes := by
  obtain ⟨pieces, hcut, hpack⟩ := exists_pieces_pack p none lines
  obtain ⟨own, hown, hline⟩ := exists_of_forall₂ hcut (Listed.mem_coded.mpr ⟨hl, hcode⟩)
  rw [hline.whole hfits] at hown
  have hmem : evenDigits l.code ∈ (p.pack none lines).flatMap codes := by
    rw [hpack]
    exact List.mem_append_right _ (List.mem_flatten_of_mem hown List.mem_cons_self)
  exact List.mem_flatMap.mp hmem

/-- Pieces that hold a byte each are no more than their bytes. -/
theorem two_mul_length_le {pieces : List Text}
    (h : ∀ piece ∈ pieces, piece ≠ [] ∧ piece.length % 2 = 0) :
    2 * pieces.length ≤ pieces.flatten.length := by
  induction pieces with
  | nil => exact Nat.le_refl 0
  | cons piece pieces ih =>
    obtain ⟨hne, heven⟩ := h piece List.mem_cons_self
    have hpos := List.length_pos_iff.mpr hne
    have hrest := ih fun other hother => h other (List.mem_cons_of_mem _ hother)
    rw [List.length_cons, List.flatten_cons, List.length_append]
    omega

end Packing

/-! ## Emission -/

/-- How many bytes a text record may carry under a setting. -/
def recordLimit (maxBytes : Int) : Nat :=
  if 1 ≤ maxBytes ∧ maxBytes ≤ 255 then maxBytes.toNat else 255

theorem bytes_ofSetting (maxBytes : Int) :
    (Capacity.ofSetting maxBytes).bytes = recordLimit maxBytes := by
  have hpos : 0 < maxBytes ↔ 1 ≤ maxBytes := Int.lt_iff_add_one_le
  simp only [Capacity.ofSetting, recordLimit, hpos]
  split
  · rfl
  · rfl

theorem flatMap_evenDigits_coded (lines : List Listed) :
    ((Listed.coded lines).flatMap fun l => evenDigits l.code) =
      lines.flatMap fun l => evenDigits l.code := by
  induction lines with
  | nil => rfl
  | cons l lines ih =>
    by_cases hl : l.code = []
    · rw [Listed.coded_cons_of_nil hl, List.flatMap_cons, evenDigits_eq_nil.mpr hl, ih,
        List.nil_append]
    · rw [Listed.coded_cons_of_code hl, List.flatMap_cons, List.flatMap_cons, ih]

/-- **The records of an object program.**  Whatever the program, the listing and the settings, there
are a header, text records and an end record with the program's start.  Every text record carries at
least a byte and no more than the limit, in pieces of whole bytes that are not empty.  All pieces
together are the code of the lines, in order and in whole bytes; line by line they are the pieces
that the line is cut into, and code that fits into a record is one piece of one record.  There are
no more pieces than bytes. -/
theorem emit_object_records (program : Program) (lines : List Listed) (maxBytes : Int)
    (breakAtGaps : Bool) :
    ∃ texts : List TextRecord,
      (Emitter.object (.ofSettings maxBytes breakAtGaps)).emit program lines =
        .header program.name program.start program.length ::
          (texts.map .text ++ [.entry program.start]) ∧
      (∀ r ∈ texts, 1 ≤ r.length ∧ r.length ≤ recordLimit maxBytes ∧
        ∀ code ∈ r.codes, code ≠ [] ∧ code.length % 2 = 0) ∧
      (texts.flatMap fun r => r.codes.flatten) =
        ((Listed.coded lines).flatMap fun l => evenDigits l.code) ∧
      (∃ pieces,
        List.Forall₂ (Listed.IsCutInto (recordLimit maxBytes)) (Listed.coded lines) pieces ∧
        texts.flatMap TextRecord.codes = pieces.flatten) ∧
      (∀ l ∈ lines, l.code ≠ [] → (l.code.length + 1) / 2 ≤ recordLimit maxBytes →
        ∃ r ∈ texts, evenDigits l.code ∈ r.codes) ∧
      2 * (texts.flatMap TextRecord.codes).length ≤
        ((Listed.coded lines).flatMap fun l => evenDigits l.code).length := by
  have hlimit : (Packing.ofSettings maxBytes breakAtGaps).capacity.bytes = recordLimit maxBytes :=
    bytes_ofSetting maxBytes
  have hpacked := Packing.isPacked_of_mem_pack (.ofSettings maxBytes breakAtGaps) lines
  have hcodes := Packing.codes_pack (.ofSettings maxBytes breakAtGaps) lines
  refine ⟨(Packing.ofSettings maxBytes breakAtGaps).pack none lines, rfl, fun r hr => ?_,
    hcodes.trans (flatMap_evenDigits_coded lines).symm, ?_, fun l hl hcode hfits => ?_, ?_⟩
  · exact ⟨(hpacked r hr).length_pos, hlimit ▸ (hpacked r hr).length_le, (hpacked r hr).whole⟩
  · rw [← hlimit]
    exact Packing.exists_pieces_pack _ none lines
  · exact Packing.exists_mem_codes_of_fits hl hcode (hlimit ▸ hfits)
  · rw [flatMap_evenDigits_coded, ← hcodes, ← Packing.flatten_flatMap_codes]
    refine Packing.two_mul_length_le fun piece hpiece => ?_
    obtain ⟨r, hr, hmem⟩ := List.mem_flatMap.mp hpiece
    exact (hpacked r hr).whole piece hmem

/-- An odd code, one that fills the record exactly, and one that is longer than a record. -/
example : (Packing.ofSettings 3 false).pack none
    [⟨⟨⟨1, "-", "A", "-"⟩, 0, 1⟩, "7"⟩, ⟨⟨⟨2, "-", "B", "-"⟩, 1, 2⟩, "AABB"⟩,
      ⟨⟨⟨3, "-", "C", "-"⟩, 3, 4⟩, "01020304"⟩] =
    [⟨0, ["07", "AABB"]⟩, ⟨3, ["010203"]⟩, ⟨6, ["04"]⟩] := by
  decide +kernel

end Sic
