import Sic.Proofs.Image
import Sic.Proofs.Outcome

/-!
# What can be loaded, and what is in memory then

Object programs may come from anywhere, so here the text records need not be packed: they may
overlap, stand in any order, be empty, and spread their code over pieces of any size.

* `IsWithin` says of a text record that it lies within the storage of a program and writes bytes,
  and `IsProgram` of records that they are a program of such text records.  `exists_load_iff`: those
  are the records that can be loaded.
* `getElem?_write_cells` is what loading one text record does to memory, read at one address: there
  is its own byte, or what was there before.  From record to record this gives
  `getElem?_write_texts`: the last text record with a byte for the address has put it there.
* If no two text records cover an address, the last of them is the only one, and their order does
  not matter (`memoryOf_perm`).
-/

set_option autoImplicit false

namespace Sic

open Address Text

variable {start length : Int}

/-! ## One text record -/

namespace TextRecord

variable {r : TextRecord}

/-- The address lies in the range of the text record. -/
def Covers (r : TextRecord) (a : Int) : Prop := r.start ≤ a ∧ a < r.start + r.length

instance (r : TextRecord) (a : Int) : Decidable (r.Covers a) :=
  inferInstanceAs (Decidable (_ ∧ _))

/-- No address lies in the ranges of both. -/
def Apart (r r' : TextRecord) : Prop := ∀ a, ¬ (r.Covers a ∧ r'.Covers a)

theorem apart_iff {r r' : TextRecord} : r.Apart r' ↔ r.length = 0 ∨ r'.length = 0 ∨
    r.start + r.length ≤ r'.start ∨ r'.start + r'.length ≤ r.start := by
  constructor
  · intro h
    -- The higher of the two starts is in both ranges unless one of them is empty or ends before it.
    have hmax := h (max r.start r'.start)
    rw [Covers, Covers] at hmax
    omega
  · rintro h a ⟨⟨hlow, hhigh⟩, hlow', hhigh'⟩
    omega

instance (r r' : TextRecord) : Decidable (r.Apart r') := decidable_of_iff _ apart_iff.symm

/-- The byte that a text record has for an address: its pieces of code write the bytes of the range
one after the other. -/
def byteAt? (r : TextRecord) (a : Int) : Option UInt8 :=
  if r.start ≤ a then (pairs r.codes.flatten)[(a - r.start).toNat]? else none

/-- A text record in the storage of a program, with bytes for code. -/
structure IsWithin (start length : Int) (r : TextRecord) : Prop where
  low : start ≤ r.start
  high : r.start + r.length ≤ start + length
  codes : ∀ code ∈ r.codes, IsHexBytes code

instance (start length : Int) (r : TextRecord) : Decidable (r.IsWithin start length) :=
  decidable_of_iff (start ≤ r.start ∧ r.start + r.length ≤ start + length ∧
      ∀ code ∈ r.codes, IsHexBytes code)
    ⟨fun h => ⟨h.1, h.2.1, h.2.2⟩, fun h => ⟨h.low, h.high, h.codes⟩⟩

theorem length_pairs_codes (h : ∀ code ∈ r.codes, IsHexBytes code) :
    (pairs r.codes.flatten).length = r.length := by
  have hlength : r.codes.flatten.length = 2 * r.length :=
    length_flatten_codes r.start fun code hcode => (h code hcode).2
  rw [length_pairs, hlength]
  omega

theorem byteAt?_eq_some_iff {a : Int} {b : UInt8} :
    r.byteAt? a = some b ↔ ∃ k : Nat, (pairs r.codes.flatten)[k]? = some b ∧ a = r.start + k := by
  rw [byteAt?]
  split
  · constructor
    · intro hb
      exact ⟨_, hb, by omega⟩
    · rintro ⟨k, hk, rfl⟩
      rwa [show (r.start + k - r.start).toNat = k by omega]
  · constructor
    · intro hb
      cases hb
    · rintro ⟨k, -, rfl⟩
      omega

/-- A text record has bytes for the addresses of its range and for no others. -/
theorem isSome_byteAt? (h : ∀ code ∈ r.codes, IsHexBytes code) (a : Int) :
    (r.byteAt? a).isSome = true ↔ r.Covers a := by
  rw [byteAt?, Covers]
  split
  · rw [Option.isSome_iff_ne_none, ne_eq, List.getElem?_eq_none_iff, length_pairs_codes h]
    omega
  · rename_i hlow
    simp [hlow]

theorem byteAt?_eq_none (h : ∀ code ∈ r.codes, IsHexBytes code) (a : Int) :
    r.byteAt? a = none ↔ ¬ r.Covers a := by
  rw [← isSome_byteAt? h, Option.not_isSome_iff_eq_none]

theorem IsWithin.bounds (hs : IsStorage start length) (h : r.IsWithin start length) :
    0 ≤ r.start ∧ r.start + r.length ≤ 8589934592 :=
  ⟨Int.le_trans hs.start_nonneg h.low, Int.le_trans h.high hs.end_le⟩

theorem IsWithin.inRange (hs : IsStorage start length) (h : r.IsWithin start length) :
    InRange (r.start + r.length) := by
  obtain ⟨hlow, hhigh⟩ := h.bounds hs
  exact ⟨by omega, by omega⟩

/-- Within the storage of a program, addresses do not wrap around. -/
theorem IsWithin.offset_eq (hs : IsStorage start length) (h : r.IsWithin start length) :
    ∀ k < (pairs r.codes.flatten).length, offset r.start k = r.start + k := by
  intro k hk
  rw [length_pairs_codes h.codes] at hk
  obtain ⟨hlow, hhigh⟩ := h.bounds hs
  exact offset_eq_add ⟨by omega, by omega⟩

/-- **What loading a text record does to memory**: its bytes are at their addresses, and elsewhere
is what was there. -/
theorem getElem?_write_cells (hs : IsStorage start length) (h : r.IsWithin start length)
    (memory : Std.TreeMap Int UInt8) (a : Int) :
    (Image.write memory (r.cells.map Cell.write))[a]? = (r.byteAt? a).or memory[a]? := by
  have hadd := h.offset_eq hs
  have hmem (b : UInt8) : (a, b) ∈ spread r.start (pairs r.codes.flatten) ↔
      r.byteAt? a = some b := by
    rw [mem_spread_add hadd, byteAt?_eq_some_iff]
  have hnot : a ∉ (spread r.start (pairs r.codes.flatten)).map Prod.fst ↔ r.byteAt? a = none := by
    rw [Option.eq_none_iff_forall_ne_some]
    simp [hmem]
  have hnodup : ((spread r.start (pairs r.codes.flatten)).map Prod.fst).Nodup := by
    rw [List.Nodup, List.pairwise_map]
    exact (pairwise_spread hadd).imp fun hlt => Int.ne_of_lt hlt
  refine Option.ext fun b => ?_
  rw [cells, map_write_spread, Image.getElem?_write hnodup, hmem, hnot, Option.or_eq_some_iff]

/-- Where numbers are small enough, what loading accepts lies within the storage. -/
theorem loadable_iff (hs : IsStorage start length) (hr : InRange (r.start + r.length)) :
    r.Loadable start length ↔ r.IsWithin start length := by
  rw [Loadable, hs.offset_eq, offset_eq_add hr]
  exact ⟨fun h => ⟨h.1.1, h.1.2, h.2⟩, fun h => ⟨⟨h.low, h.high⟩, h.codes⟩⟩

end TextRecord

/-! ## All text records -/

namespace Image

open TextRecord

variable {texts texts' : List TextRecord}

/-- **What loading text records does to memory**: at each address is the byte of the last of them
that has one for it. -/
theorem getElem?_write_texts (hs : IsStorage start length)
    (h : ∀ r ∈ texts, r.IsWithin start length) (memory : Std.TreeMap Int UInt8) (a : Int) :
    (write memory ((texts.flatMap cells).map Cell.write))[a]? =
      (texts.reverse.findSome? (byteAt? · a)).or memory[a]? := by
  induction texts generalizing memory with
  | nil => rfl
  | cons r texts ih =>
    have hrest : ∀ r' ∈ texts, r'.IsWithin start length :=
      fun r' hr' => h r' (List.mem_cons_of_mem _ hr')
    rw [List.flatMap_cons, List.map_append, write_append, ih hrest,
      getElem?_write_cells hs (h r List.mem_cons_self), List.reverse_cons, List.findSome?_append,
      Option.or_assoc, List.findSome?_cons]
    cases r.byteAt? a <;> rfl

/-- Memory after loading text records. -/
def memoryOf (texts : List TextRecord) : Std.TreeMap Int UInt8 :=
  write ∅ ((texts.flatMap cells).map Cell.write)

theorem getElem?_memoryOf (hs : IsStorage start length)
    (h : ∀ r ∈ texts, r.IsWithin start length) (a : Int) :
    (memoryOf texts)[a]? = texts.reverse.findSome? (byteAt? · a) := by
  rw [memoryOf, getElem?_write_texts hs h, Std.TreeMap.getElem?_emptyc, Option.or_none]

theorem mem_memoryOf (hs : IsStorage start length) (h : ∀ r ∈ texts, r.IsWithin start length)
    (a : Int) : a ∈ memoryOf texts ↔ ∃ r ∈ texts, r.Covers a := by
  rw [Std.TreeMap.mem_iff_isSome_getElem?, getElem?_memoryOf hs h, List.findSome?_isSome_iff]
  simp only [List.mem_reverse]
  exact exists_congr fun r => and_congr_right fun hr => isSome_byteAt? (h r hr).codes a

/-- The last text record that covers an address counts. -/
theorem getElem?_memoryOf_eq_some_iff (hs : IsStorage start length)
    (h : ∀ r ∈ texts, r.IsWithin start length) (a : Int) (b : UInt8) :
    (memoryOf texts)[a]? = some b ↔ ∃ before r after, texts = before ++ r :: after ∧
      r.byteAt? a = some b ∧ ∀ r' ∈ after, ¬ r'.Covers a := by
  rw [getElem?_memoryOf hs h, List.findSome?_eq_some_iff]
  constructor
  · rintro ⟨after, r, before, hsplit, hb, hnone⟩
    have htexts : texts = before.reverse ++ r :: after.reverse := by
      rw [← List.reverse_reverse texts, hsplit]
      simp
    refine ⟨before.reverse, r, after.reverse, htexts, hb, fun r' hr' => ?_⟩
    have hcodes := (h r' (by simp [htexts, List.mem_reverse.mp hr'])).codes
    exact (byteAt?_eq_none hcodes a).mp (hnone r' (List.mem_reverse.mp hr'))
  · rintro ⟨before, r, after, rfl, hb, hnone⟩
    refine ⟨after.reverse, r, before.reverse, by simp, hb, fun r' hr' => ?_⟩
    have hr' := List.mem_reverse.mp hr'
    exact (byteAt?_eq_none (h r' (by simp [hr'])).codes a).mpr (hnone r' hr')

/-- If no two text records cover an address, each of them counts. -/
theorem getElem?_memoryOf_of_apart (hs : IsStorage start length)
    (h : ∀ r ∈ texts, r.IsWithin start length) (hapart : texts.Pairwise Apart) (a : Int)
    (b : UInt8) : (memoryOf texts)[a]? = some b ↔ ∃ r ∈ texts, r.byteAt? a = some b := by
  rw [getElem?_memoryOf_eq_some_iff hs h]
  constructor
  · rintro ⟨before, r, after, rfl, hb, -⟩
    exact ⟨r, by simp, hb⟩
  · rintro ⟨r, hr, hb⟩
    obtain ⟨before, after, rfl⟩ := List.append_of_mem hr
    refine ⟨before, r, after, rfl, hb, fun r' hr' hcovers => ?_⟩
    have hlater := (List.pairwise_cons.mp (List.pairwise_append.mp hapart).2.1).1 r' hr'
    have hcovered : r.Covers a := (isSome_byteAt? (h r hr).codes a).mp (by rw [hb]; rfl)
    exact hlater a ⟨hcovered, hcovers⟩

/-- **The order of text records that lie apart does not matter.** -/
theorem memoryOf_perm (hs : IsStorage start length) (h : ∀ r ∈ texts, r.IsWithin start length)
    (hapart : texts.Pairwise Apart) (hperm : texts'.Perm texts) :
    (memoryOf texts').Equiv (memoryOf texts) := by
  have hsymm {r r' : TextRecord} (hr : Apart r r') : Apart r' r := fun a ha => hr a ha.symm
  have h' : ∀ r ∈ texts', r.IsWithin start length := fun r hr => h r (hperm.mem_iff.mp hr)
  have hapart' : texts'.Pairwise Apart := (hperm.pairwise_iff hsymm).mpr hapart
  refine Std.TreeMap.Equiv.of_forall_constGet?_eq fun a => Option.ext fun b => ?_
  rw [getElem?_memoryOf_of_apart hs h' hapart', getElem?_memoryOf_of_apart hs h hapart]
  exact exists_congr fun r => and_congr_left fun _ => hperm.mem_iff

end Image

/-! ## Programs -/

namespace Record

/-- Text records between a header and an end record. -/
def framed (name : Text) (start length : Int) (texts : List TextRecord) (entry : Int) :
    List Record :=
  .header name start length :: (texts.map Record.text ++ [.entry entry])

/-- **The programs**: text records within the storage that the header declares, between the header
and an end record. -/
def IsProgram (records : List Record) : Prop :=
  ∃ name start length texts entry, records = framed name start length texts entry ∧
    ∀ r ∈ texts, r.IsWithin start length

/-- The numbers of the record have at most 32 bits, and a text record does not carry so many bytes
that its range runs past the last of the 2⁶⁴ addresses. -/
def IsAddressable : Record → Prop
  | .header _ start length => Fits32 start ∧ Fits32 length
  | .text r => Fits32 r.start ∧ InRange (r.start + r.length)
  | .entry address => Fits32 address
  | .dump address _ => Fits32 address

instance : DecidablePred IsAddressable
  | .header _ start length => inferInstanceAs (Decidable (Fits32 start ∧ Fits32 length))
  | .text r => inferInstanceAs (Decidable (Fits32 r.start ∧ _ ≤ r.start + r.length ∧ _))
  | .entry address => inferInstanceAs (Decidable (Fits32 address))
  | .dump address _ => inferInstanceAs (Decidable (Fits32 address))

end Record

namespace Image

open Record

variable {name : Text} {entry : Int} {texts : List TextRecord} {records : List Record}
  {image : Image}

/-- Loading goes on only behind text records. -/
theorem exists_texts_of_foldlM {memory memory' : Std.TreeMap Int UInt8}
    (h : records.foldlM (loadRecord start length) memory = .ok memory') :
    ∃ texts : List TextRecord, records = texts.map Record.text := by
  induction records generalizing memory with
  | nil => exact ⟨[], rfl⟩
  | cons record records ih =>
    rw [List.foldlM_cons] at h
    obtain ⟨next, hrecord, h⟩ := bind_eq_ok_iff.mp h
    obtain ⟨texts, rfl⟩ := ih h
    cases record with
    | text r => exact ⟨r :: texts, rfl⟩
    | header => cases hrecord
    | entry => cases hrecord
    | dump => cases hrecord

theorem exists_framed_of_load (h : load records = .ok image) :
    ∃ name start length texts entry, records = framed name start length texts entry := by
  unfold load at h
  split at h
  · rename_i first second rest
    split at h
    · rename_i name start length
      split at h
      · rename_i entry hlast
        obtain ⟨memory, hmemory, -⟩ := map_eq_ok_iff.mp h
        obtain ⟨texts, htexts⟩ := exists_texts_of_foldlM hmemory
        refine ⟨name, start, length, texts, entry, ?_⟩
        obtain ⟨inner, hinner⟩ := List.getLast?_eq_some_iff.mp hlast
        rw [framed, ← htexts, hinner, List.dropLast_concat]
      · cases h
      · cases h
    · cases h
  · cases h

theorem load_framed (hs : IsStorage start length) (h : ∀ r ∈ texts, r.IsWithin start length)
    (name : Text) (entry : Int) :
    load (framed name start length texts entry) =
      .ok ⟨name, start, length, entry, memoryOf texts⟩ := by
  have hloadable : ∀ r ∈ texts, r.Loadable start length := fun r hr =>
    (TextRecord.loadable_iff hs ((h r hr).inRange hs)).mpr (h r hr)
  rw [framed, load_program, loadTexts_of_loadable hloadable]
  rfl

theorem isWithin_of_load (hs : IsStorage start length)
    (hrange : ∀ r ∈ texts, InRange (r.start + r.length))
    (h : load (framed name start length texts entry) = .ok image) :
    ∀ r ∈ texts, r.IsWithin start length := by
  by_contra hnot
  have hnot' : ¬ ∀ r ∈ texts, r.Loadable start length := fun hloadable => hnot fun r hr =>
    (TextRecord.loadable_iff hs (hrange r hr)).mp (hloadable r hr)
  obtain ⟨e, he⟩ := loadTexts_of_not_loadable hnot' ∅
  rw [framed, load_program, he] at h
  cases h

/-- The storage of an addressable program. -/
theorem isStorage_of_isAddressable
    (h : ∀ r ∈ framed name start length texts entry, r.IsAddressable) : IsStorage start length := by
  obtain ⟨⟨hlow, hhigh⟩, hlow', hhigh'⟩ := h _ List.mem_cons_self
  exact ⟨hlow, hlow', by omega⟩

theorem inRange_of_isAddressable
    (h : ∀ r ∈ framed name start length texts entry, r.IsAddressable) :
    ∀ r ∈ texts, InRange (r.start + r.length) := fun r hr =>
  (h (.text r) (by simp [framed, hr])).2

/-- **The programs are what can be loaded.** -/
theorem exists_load_iff (h : ∀ r ∈ records, r.IsAddressable) :
    (∃ image, load records = .ok image) ↔ IsProgram records := by
  constructor
  · rintro ⟨image, hload⟩
    obtain ⟨name, start, length, texts, entry, rfl⟩ := exists_framed_of_load hload
    exact ⟨name, start, length, texts, entry, rfl,
      isWithin_of_load (isStorage_of_isAddressable h) (inRange_of_isAddressable h) hload⟩
  · rintro ⟨name, start, length, texts, entry, rfl, htexts⟩
    exact ⟨_, load_framed (isStorage_of_isAddressable h) htexts name entry⟩

/-- The same program in the same memory. -/
structure Same (image image' : Image) : Prop where
  name : image.name = image'.name
  start : image.start = image'.start
  length : image.length = image'.length
  entry : image.entry = image'.entry
  memory : image.memory.Equiv image'.memory

/-- **Loading accepts the programs, and the last text record counts.**  Records with numbers of at
most 32 bits can be loaded exactly if they are a program.  Then memory has a byte at the addresses
that a text record covers, which lie in the storage of the program, and nowhere else, and it is the
byte that the last of these text records has for the address.  If no two text records cover an
address, they load to the same image in any order. -/
theorem load_last_writer (records : List Record) (h : ∀ r ∈ records, r.IsAddressable) :
    ((∃ image, load records = .ok image) ↔ IsProgram records) ∧
      ∀ name start length texts entry image, records = framed name start length texts entry →
        load records = .ok image →
          (image.name = name ∧ image.start = start ∧ image.length = length ∧
            image.entry = entry) ∧
          (∀ a, a ∈ image.memory ↔ ∃ r ∈ texts, r.Covers a) ∧
          (∀ a ∈ image.memory, start ≤ a ∧ a < start + length) ∧
          (∀ a b, image.memory[a]? = some b ↔ ∃ before r after, texts = before ++ r :: after ∧
            r.byteAt? a = some b ∧ ∀ r' ∈ after, ¬ r'.Covers a) ∧
          (texts.Pairwise TextRecord.Apart → ∀ texts', texts'.Perm texts →
            ∃ image', load (framed name start length texts' entry) = .ok image' ∧
              image'.Same image) := by
  refine ⟨exists_load_iff h, ?_⟩
  rintro name start length texts entry image rfl hload
  have hs := isStorage_of_isAddressable h
  have htexts := isWithin_of_load hs (inRange_of_isAddressable h) hload
  obtain rfl : (⟨name, start, length, entry, memoryOf texts⟩ : Image) = image :=
    Except.ok.inj ((load_framed hs htexts name entry).symm.trans hload)
  have hmem := mem_memoryOf hs htexts
  refine ⟨⟨rfl, rfl, rfl, rfl⟩, hmem, fun a ha => ?_, getElem?_memoryOf_eq_some_iff hs htexts,
    fun hapart texts' hperm => ?_⟩
  · obtain ⟨r, hr, hlow, hhigh⟩ := (hmem a).mp ha
    have hstart := (htexts r hr).low
    have hend := (htexts r hr).high
    exact ⟨by omega, by omega⟩
  · have htexts' : ∀ r ∈ texts', r.IsWithin start length := fun r hr =>
      htexts r (hperm.mem_iff.mp hr)
    exact ⟨_, load_framed hs htexts' name entry, rfl, rfl, rfl, rfl,
      memoryOf_perm hs htexts hapart hperm⟩

/-- Text records that overlap, with a piece of code without digits and an empty record where the
storage ends. -/
def overlapping : List TextRecord :=
  [⟨16, ["0102", "03"]⟩, ⟨17, [[], "aABb"]⟩, ⟨32, []⟩, ⟨16, ["0f"]⟩]

/-- Text records that lie apart, in another order than their addresses. -/
def apartTexts : List TextRecord := [⟨18, ["0102"]⟩, ⟨31, ["03"]⟩, ⟨16, ["0405"]⟩]

theorem load_last_writer_overlapping :
    (∃ image, load (framed "P" 16 16 overlapping 16) = .ok image ∧
        image.memory[(16 : Int)]? = some 0x0F ∧ image.memory[(17 : Int)]? = some 0xAA ∧
        (19 : Int) ∉ image.memory) ∧
      ∃ image image', load (framed "P" 16 16 apartTexts 16) = .ok image ∧
        load (framed "P" 16 16 apartTexts.reverse 16) = .ok image' ∧ image'.Same image := by
  have haddressable : ∀ r ∈ framed "P" 16 16 overlapping 16, r.IsAddressable := by decide
  have haddressable' : ∀ r ∈ framed "P" 16 16 apartTexts 16, r.IsAddressable := by decide
  have hwithin : ∀ r ∈ overlapping, r.IsWithin 16 16 := by decide
  have hwithin' : ∀ r ∈ apartTexts, r.IsWithin 16 16 := by decide
  constructor
  · obtain ⟨hload, hmemory⟩ := load_last_writer _ haddressable
    obtain ⟨image, himage⟩ := hload.mpr ⟨_, _, _, _, _, rfl, hwithin⟩
    obtain ⟨-, hmem, -, hlast, -⟩ := hmemory _ _ _ _ _ image rfl himage
    refine ⟨image, himage, (hlast _ _).mpr ?_, (hlast _ _).mpr ?_, (hmem _).not.mpr ?_⟩
    · exact ⟨overlapping.take 3, ⟨16, ["0f"]⟩, [], rfl, by decide +kernel, by decide⟩
    · exact ⟨overlapping.take 1, ⟨17, [[], "aABb"]⟩, overlapping.drop 2, rfl, by decide +kernel,
        by decide⟩
    · decide
  · obtain ⟨hload, hmemory⟩ := load_last_writer _ haddressable'
    obtain ⟨image, himage⟩ := hload.mpr ⟨_, _, _, _, _, rfl, hwithin'⟩
    obtain ⟨-, -, -, -, hperm⟩ := hmemory _ _ _ _ _ image rfl himage
    obtain ⟨image', himage', hsame⟩ := hperm (by decide) _ apartTexts.reverse_perm
    exact ⟨image, image', himage, himage', hsame⟩

end Image

end Sic
