import Sic.Proofs.RoundTrip

/-!
# The extent of text records

Where records do not break at gaps, the code behind reserved storage is packed right behind the code
before it, and the bytes of a record lag behind the addresses of their lines.  They never run ahead
of them, and that keeps the records of a laid-out program apart and within its storage.

* `InOrder` says that records lie one behind the other between two addresses; it is cut and joined
  where a list of records is (`inOrder_append`).
* `inOrder_fill`, `inOrder_pour` and `inOrder_packLine` say how far the records reach that a line
  leads to: no further than its code would reach from its own address.
* `inOrder_pack` is the induction over the lines.  What it carries along is that the open record
  ends at the address of the next line at the latest.
-/

set_option autoImplicit false

namespace Sic

open Address Text

/-! ## Records in order -/

/-- Records that lie one behind the other, from the first address on and up to the second. -/
def InOrder : Int → List TextRecord → Int → Prop
  | low, [], high => low ≤ high
  | low, r :: rs, high => low ≤ r.start ∧ InOrder (r.start + r.length) rs high

namespace InOrder

variable {low high : Int} {rs : List TextRecord}

theorem mono {low' high' : Int} (h : InOrder low rs high) (hlow : low' ≤ low)
    (hhigh : high ≤ high') : InOrder low' rs high' := by
  induction rs generalizing low low' with
  | nil => exact Int.le_trans hlow (Int.le_trans h hhigh)
  | cons r rs ih => exact ⟨Int.le_trans hlow h.1, ih h.2 (Int.le_refl _)⟩

theorem le (h : InOrder low rs high) : low ≤ high := by
  induction rs generalizing low with
  | nil => exact h
  | cons r rs ih =>
    have hstart := h.1
    have hrest := ih h.2
    omega

/-- Every record lies between the two addresses. -/
theorem bounds (h : InOrder low rs high) {r : TextRecord} (hr : r ∈ rs) :
    low ≤ r.start ∧ r.start + r.length ≤ high := by
  induction rs generalizing low with
  | nil => cases hr
  | cons r' rs ih =>
    obtain ⟨hstart, hrest⟩ := h
    rcases List.mem_cons.mp hr with rfl | hr
    · exact ⟨hstart, hrest.le⟩
    · have := ih hrest hr
      omega

/-- No record starts before an earlier one ends. -/
theorem pairwise (h : InOrder low rs high) :
    rs.Pairwise fun r r' : TextRecord => r.start + r.length ≤ r'.start := by
  induction rs generalizing low with
  | nil => exact List.Pairwise.nil
  | cons r rs ih =>
    obtain ⟨-, hrest⟩ := h
    exact List.pairwise_cons.mpr ⟨fun r' hr' => (hrest.bounds hr').1, ih hrest⟩

end InOrder

theorem inOrder_append {low high : Int} {rs rs' : List TextRecord} :
    InOrder low (rs ++ rs') high ↔ ∃ mid, InOrder low rs mid ∧ InOrder mid rs' high := by
  induction rs generalizing low with
  | nil =>
    constructor
    · exact fun h => ⟨low, Int.le_refl low, h⟩
    · rintro ⟨mid, hlow, h⟩
      exact h.mono hlow (Int.le_refl _)
  | cons r rs ih =>
    rw [List.cons_append, InOrder, ih]
    constructor
    · rintro ⟨hstart, mid, hrs, hrs'⟩
      exact ⟨mid, ⟨hstart, hrs⟩, hrs'⟩
    · rintro ⟨mid, ⟨hstart, hrs⟩, hrs'⟩
      exact ⟨hstart, mid, hrs, hrs'⟩

/-! ## Packing in order -/

namespace Packing

open TextRecord

section Line

variable {c : Capacity} {a : Int} {code : Text}

/-- Behind a cut the code is used up, or it goes on at an address that is a sum. -/
theorem drop_eq_nil_or_offset_eq (hlow : InRange a)
    (hhigh : InRange (a + (code.length / 2 : Nat))) (n : Nat) :
    (code.length ≤ 2 * n ∧ code.drop (2 * n) = []) ∨
      (2 * n < code.length ∧ offset a n = a + n) := by
  rcases Nat.lt_or_ge (2 * n) code.length with hlt | hge
  · obtain ⟨hlow, -⟩ := hlow
    obtain ⟨-, hhigh⟩ := hhigh
    exact Or.inr ⟨hlt, offset_eq_add ⟨by omega, by omega⟩⟩
  · exact Or.inl ⟨hge, List.drop_eq_nil_of_le hge⟩

/-- New records reach as far as their code does. -/
theorem inOrder_fill (heven : code.length % 2 = 0) (hlow : InRange a)
    (hhigh : InRange (a + (code.length / 2 : Nat))) :
    InOrder a (fill c a code) (a + (code.length / 2 : Nat)) := by
  fun_induction fill c a code with
  | case1 a => simp [InOrder]
  | case2 a code hne ih =>
    have htake : (code.take (2 * c.bytes)).length = min (2 * c.bytes) code.length :=
      List.length_take
    have hdrop : (code.drop (2 * c.bytes)).length = code.length - 2 * c.bytes := List.length_drop
    have hlength : length ⟨a, [code.take (2 * c.bytes)]⟩ = min c.bytes (code.length / 2) := by
      rw [length_cons, htake]
      simp only [length, List.foldr_nil]
      omega
    refine ⟨Int.le_refl a, ?_⟩
    simp only [hlength]
    rcases drop_eq_nil_or_offset_eq hlow hhigh c.bytes with ⟨hle, hnil⟩ | ⟨hlt, hnext⟩
    · rw [hnil, fill_nil]
      simp only [InOrder]
      omega
    · rw [hnext, hdrop] at ih
      rw [hnext]
      obtain ⟨hlow, -⟩ := hlow
      obtain ⟨-, hhigh⟩ := hhigh
      refine (ih (by omega) ⟨by omega, by omega⟩ ⟨by omega, by omega⟩).mono ?_ ?_
      · omega
      · omega

/-- Code poured into a record that ends at the code's address, or before it, reaches no further than
from that address. -/
theorem inOrder_pour {r : TextRecord} (heven : code.length % 2 = 0) (hlow : InRange a)
    (hhigh : InRange (a + (code.length / 2 : Nat))) (hr : r.start + r.length ≤ a) :
    InOrder r.start (pour c r a code) (a + (code.length / 2 : Nat)) := by
  by_cases hfull : c.bytes - r.length = 0
  · rw [pour_of_full hfull]
    exact ⟨Int.le_refl _, (inOrder_fill heven hlow hhigh).mono hr (Int.le_refl _)⟩
  · rw [pour_of_room rfl hfull]
    generalize c.bytes - r.length = room
    have htake : (code.take (2 * room)).length = min (2 * room) code.length := List.length_take
    have hdrop : (code.drop (2 * room)).length = code.length - 2 * room := List.length_drop
    refine ⟨Int.le_refl r.start, ?_⟩
    rw [length_append, htake]
    rcases drop_eq_nil_or_offset_eq hlow hhigh room with ⟨hle, hnil⟩ | ⟨hlt, hnext⟩
    · rw [hnil, fill_nil]
      simp only [InOrder, append]
      omega
    · rw [hnext]
      obtain ⟨hlow, -⟩ := hlow
      obtain ⟨-, hhigh⟩ := hhigh
      have hrest : InOrder (a + room) (fill c (a + room) (code.drop (2 * room)))
          (a + room + ((code.drop (2 * room)).length / 2 : Nat)) :=
        inOrder_fill (by omega) ⟨by omega, by omega⟩ ⟨by omega, by omega⟩
      refine hrest.mono ?_ ?_
      · simp only [append]
        omega
      · omega

/-- **How far the records of a line reach**, if the open record ends at its address or before. -/
theorem inOrder_packLine {p : Packing} {o : Option Open} {l : Listed} {low : Int}
    (hlow : InRange l.address)
    (hhigh : InRange (l.address + ((evenDigits l.code).length / 2 : Nat)))
    (ho : InOrder low (openRecords o) l.address) :
    InOrder low (p.packLine o l) (l.address + ((evenDigits l.code).length / 2 : Nat)) := by
  obtain ⟨x, rfl, -, hpour⟩ | hfill := packLine_cases p o l
  · obtain ⟨hstart, hend⟩ := ho
    rw [hpour]
    exact (inOrder_pour (evenDigits_even _) hlow hhigh hend).mono hstart (Int.le_refl _)
  · rw [hfill]
    exact inOrder_append.mpr ⟨l.address, ho, inOrder_fill (evenDigits_even _) hlow hhigh⟩

end Line

/-- **The records of consecutive lines are in order**, if the code of each line keeps to its
storage. -/
theorem inOrder_pack {p : Packing} {o : Option Open} {lines : List Listed} {low a b : Int}
    (ha : InRange a) (hb : InRange b) (hlines : Consecutive a (lines.map Listed.toPlaced) b)
    (hkeeps : ∀ l ∈ lines, (l.code.length : Int) ≤ 2 * l.size)
    (ho : InOrder low (openRecords o) a) : InOrder low (p.pack o lines) b := by
  induction lines generalizing o low a with
  | nil => exact ho.mono (Int.le_refl _) (Int.le_of_eq hlines)
  | cons l lines ih =>
    obtain ⟨haddress, hsize, hrest⟩ := hlines
    obtain ⟨halow, -⟩ := ha
    obtain ⟨-, hbhigh⟩ := hb
    have hnext := hrest.le
    have hlater (o' : Option Open) (low' : Int)
        (ho' : InOrder low' (openRecords o') (a + l.size)) : InOrder low' (p.pack o' lines) b :=
      ih ⟨by omega, by omega⟩ hrest (fun l' hl' => hkeeps l' (List.mem_cons_of_mem _ hl')) ho'
    by_cases hl : l.code = []
    · rw [pack_cons_of_nil hl]
      exact hlater o low (ho.mono (Int.le_refl _) (by omega))
    · have hcode : (((evenDigits l.code).length / 2 : Nat) : Int) ≤ l.size := by
        have := hkeeps l List.mem_cons_self
        rw [length_evenDigits]
        omega
      have hline : InOrder low (p.packLine o l) (a + l.size) := by
        rw [← haddress] at halow hnext ho ⊢
        refine (inOrder_packLine ⟨halow, ?_⟩ ⟨?_, ?_⟩ ho).mono (Int.le_refl _) ?_
        all_goals omega
      -- The records of the line but the last are closed; the last one ends where the next line
      -- begins, or before.
      rw [← dropLast_append_openRecords (p.packLine o l) (offset l.address l.size)] at hline
      obtain ⟨mid, hclosed, hopen⟩ := inOrder_append.mp hline
      rw [pack_cons_of_code hl]
      exact inOrder_append.mpr ⟨mid, hclosed, hlater _ mid hopen⟩

end Packing

/-! ## Loading records in order -/

/-- Records in order within the storage of a program can be loaded, if their code is whole bytes. -/
theorem InOrder.loadable {start length high : Int} {rs : List TextRecord} (hstart : InRange start)
    (hend : InRange (start + length)) (h : InOrder start rs high) (hhigh : high ≤ start + length)
    (hcodes : ∀ r ∈ rs, ∀ code ∈ r.codes, IsHexBytes code) :
    ∀ r ∈ rs, r.Loadable start length := by
  intro r hr
  obtain ⟨hlow, hreach⟩ := h.bounds hr
  have hrange : InRange (r.start + r.length) := by
    obtain ⟨hstart, -⟩ := hstart
    obtain ⟨-, hend⟩ := hend
    exact ⟨by omega, by omega⟩
  refine ⟨⟨hlow, ?_⟩, hcodes r hr⟩
  rw [offset_eq_add hrange, offset_eq_add hend]
  exact Int.le_trans hreach hhigh

/-- The text record that a record is. -/
def Record.text? : Record → Option TextRecord
  | .text r => some r
  | _ => none

/-- The text records among some records. -/
def Record.texts (rs : List Record) : List TextRecord := rs.filterMap Record.text?

theorem texts_emit (p : Packing) (program : Program) (lines : List Listed) :
    Record.texts ((Emitter.object p).emit program lines) = p.pack none lines := by
  rw [Record.texts, Emitter.emit_object, List.filterMap_append, List.filterMap_cons,
    List.filterMap_map]
  simp [Record.text?, Function.comp_def]

/-- **The text records of a laid-out program are in order and can be loaded**, whatever their
capacity and whether or not they break at gaps.  The program is to start at an address that is not
negative and to end within the range of addresses; its lines are to stand one behind the other, from
its start on and within its length, each with code of whole bytes that keeps to the storage of the
line.  Then no text record starts before an earlier one ends, none reaches outside of the program,
and the program can be loaded. -/
theorem load_emit_of_consecutive (maxBytes : Int) (breakAtGaps : Bool) {program : Program}
    {lines : List Listed} {stop : Int} (hstart : 0 ≤ program.start)
    (hend : program.start + program.length < 9223372036854775808)
    (hlines : Consecutive program.start (lines.map Listed.toPlaced) stop)
    (hstop : stop ≤ program.start + program.length)
    (hcodes : ∀ l ∈ lines, IsHexBytes l.code ∧ (l.code.length : Int) ≤ 2 * l.size)
    {records : List Record}
    (hrecords : records = (Emitter.object (.ofSettings maxBytes breakAtGaps)).emit program lines) :
    ((Record.texts records).Pairwise fun r r' : TextRecord => r.start + r.length ≤ r'.start) ∧
      (∀ r ∈ Record.texts records, program.start ≤ r.start ∧
        r.start + r.length ≤ program.start + program.length) ∧
      ∃ image, Image.load records = .ok image := by
  have hle := hlines.le
  have hfirst : InRange program.start := ⟨by omega, by omega⟩
  have hlast : InRange (program.start + program.length) := ⟨by omega, by omega⟩
  have horder : InOrder program.start
      ((Packing.ofSettings maxBytes breakAtGaps).pack none lines) stop :=
    Packing.inOrder_pack hfirst ⟨by omega, by omega⟩ hlines (fun l hl => (hcodes l hl).2)
      (Int.le_refl _)
  have hwhole := Packing.isHexBytes_of_mem_pack (p := .ofSettings maxBytes breakAtGaps)
    fun l hl => (hcodes l hl).1
  rw [hrecords, texts_emit]
  refine ⟨horder.pairwise, fun r hr => ?_, ?_⟩
  · obtain ⟨hlow, hhigh⟩ := horder.bounds hr
    exact ⟨hlow, Int.le_trans hhigh hstop⟩
  · rw [load_emit, Image.loadTexts_of_loadable (horder.loadable hfirst hlast hstop hwhole)]
    exact ⟨_, rfl⟩

/-- A listing with storage between its lines and a code that is longer than a small record. -/
def laggingLines : List Listed :=
  [⟨⟨⟨1, "P", "START", "1000"⟩, 0x1000, 0⟩, []⟩, ⟨⟨⟨2, "A", "LDA", "A"⟩, 0x1000, 3⟩, "001000"⟩,
    ⟨⟨⟨3, "-", "RESB", "10"⟩, 0x1003, 10⟩, []⟩,
    ⟨⟨⟨4, "-", "BYTE", "C'ABCDEFGHI'"⟩, 0x100D, 9⟩, "414243444546474849"⟩,
    ⟨⟨⟨5, "-", "WORD", "1"⟩, 0x1016, 3⟩, "000001"⟩]

/-- The first record takes a byte from behind the storage, and the last ends with the program. -/
theorem load_emit_of_consecutive_lagging :
    ∃ records,
      records = (Emitter.object (.ofSettings 4 false)).emit ⟨"P", 0x1000, 25⟩ laggingLines ∧
      Record.texts records = [⟨0x1000, ["001000", "41"]⟩, ⟨0x100E, ["42434445"]⟩,
        ⟨0x1012, ["46474849"]⟩, ⟨0x1016, ["000001"]⟩] ∧
      ((Record.texts records).Pairwise fun r r' : TextRecord => r.start + r.length ≤ r'.start) ∧
      (∀ r ∈ Record.texts records, 0x1000 ≤ r.start ∧ r.start + r.length ≤ 0x1000 + 25) ∧
      ∃ image, Image.load records = .ok image := by
  have hlines : Consecutive 0x1000 (laggingLines.map Listed.toPlaced) 0x1019 := by
    simp [laggingLines, Consecutive]
  exact ⟨_, rfl, by decide +kernel, load_emit_of_consecutive 4 false (by decide) (by decide) hlines
    (by decide) (by decide +kernel) rfl⟩

end Sic
