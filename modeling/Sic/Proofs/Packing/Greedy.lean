import Mathlib.Data.List.Chain
import Sic.Proofs.Extent
import Sic.Proofs.Pieces

/-!
# Records are closed for a reason

A text record is closed in three places: where it is full and code runs on, where the next code
would fit into a record but no longer fits into this one, and at a gap, if records break at gaps.
None of them comes early.  A record that is followed by another could not have taken the first piece
of the other one as well, or the other one does not go on where it ends.

* `TextRecord.Full` says that a record has no room for the first piece of another, and
  `Packing.ClosedBefore` gives the two reasons to close a record.
* `isChain_packLine` is the step: the records that a line leads to are each closed for a reason.
* `isChain_pack` is the run.  A record that is left open grows later, but its start and its first
  piece stay (`TextRecord.GrowsTo`), and the record before it was closed for the sake of these.

Filling new records is pouring into an empty one (`fill_eq_pour`), so the step is about pouring.

Breaking at gaps, a line is compared both with the end of the line before it and with the end of the
open record.  These are one address as long as the code of every line fills the storage of the line
(`endsAt_packLine`); where it does not, a record is closed also before a line that goes on where it
ends.
-/

set_option autoImplicit false

namespace Sic

open Address Text

/-- How many bytes the code of a listing takes. -/
def Listed.totalBytes (lines : List Listed) : Nat :=
  lines.foldr (fun l n => (l.code.length + 1) / 2 + n) 0

theorem Listed.length_flatMap_evenDigits (lines : List Listed) :
    (lines.flatMap fun l => evenDigits l.code).length = 2 * totalBytes lines := by
  induction lines with
  | nil => rfl
  | cons l lines ih =>
    rw [List.flatMap_cons, List.length_append, ih, length_evenDigits, totalBytes, totalBytes,
      List.foldr_cons]
    omega

namespace TextRecord

/-- A record that has no room for the first piece of another. -/
def Full (c : Capacity) (r r' : TextRecord) : Prop :=
  ∃ piece rest, r'.codes = piece :: rest ∧ c.bytes < r.length + piece.length / 2

/-- A record with more code at its end. -/
structure GrowsTo (r r' : TextRecord) : Prop where
  start : r'.start = r.start
  codes : r.codes <+: r'.codes

theorem growsTo_append (r : TextRecord) (code : Text) : r.GrowsTo (Packing.append r code) :=
  ⟨rfl, List.prefix_append _ _⟩

theorem GrowsTo.refl (r : TextRecord) : r.GrowsTo r := ⟨rfl, List.prefix_rfl⟩

theorem GrowsTo.trans {r r' r'' : TextRecord} (h : r.GrowsTo r') (h' : r'.GrowsTo r'') :
    r.GrowsTo r'' :=
  ⟨h'.start.trans h.start, h.codes.trans h'.codes⟩

/-- A record stays without room for the first piece of another when the other grows. -/
theorem Full.growsTo {c : Capacity} {r r' r'' : TextRecord} (h : r.Full c r')
    (hgrows : r'.GrowsTo r'') : r.Full c r'' := by
  obtain ⟨piece, rest, hcodes, hroom⟩ := h
  obtain ⟨more, hmore⟩ := hgrows.codes
  exact ⟨piece, rest ++ more, by rw [← hmore, hcodes, List.cons_append], hroom⟩

end TextRecord

namespace Packing

open TextRecord

/-- Why a record is closed before another begins: there is no room for the first piece of the other
or, if records break at gaps, the other does not start where the record ends. -/
def ClosedBefore (p : Packing) (r r' : TextRecord) : Prop :=
  r.Full p.capacity r' ∨ p.breakAtGaps = true ∧ r'.start ≠ offset r.start r.length

theorem ClosedBefore.growsTo {p : Packing} {r r' r'' : TextRecord} (h : p.ClosedBefore r r')
    (hgrows : r'.GrowsTo r'') : p.ClosedBefore r r'' := by
  rcases h with hfull | hgap
  · exact Or.inl (hfull.growsTo hgrows)
  · exact Or.inr (hgrows.start ▸ hgap)

/-! ## Filling and pouring -/

section Line

variable {c : Capacity} {r : TextRecord} {a : Int} {code : Text}

/-- The bytes that the first new record takes, and those that are left. -/
theorem length_take_drop (heven : code.length % 2 = 0) (n : Nat) :
    (code.take (2 * n)).length / 2 = min n (code.length / 2) ∧
      (code.drop (2 * n)).length / 2 = code.length / 2 - n ∧
      (code.drop (2 * n)).length % 2 = 0 ∧
      (code.drop (2 * n) ≠ [] → n ≤ code.length / 2) := by
  rw [List.length_take, List.length_drop, Ne, List.drop_eq_nil_iff]
  omega

/-- Filling new records is pouring into an empty one. -/
theorem fill_eq_pour (hne : code ≠ []) : fill c a code = pour c ⟨a, []⟩ a code := by
  have hroom : c.bytes - length ⟨a, []⟩ = c.bytes := Nat.sub_zero _
  rw [fill_of_ne_nil hne, pour_of_room hroom (Nat.ne_of_gt c.pos)]
  rfl

/-- New records are each full, and so is a record before them if it holds all it can. -/
theorem isChain_cons_fill (heven : code.length % 2 = 0) (hfull : code ≠ [] → c.bytes ≤ r.length) :
    (r :: fill c a code).IsChain (Full c) := by
  fun_induction fill c a code generalizing r with
  | case1 => exact List.isChain_singleton r
  | case2 a code hne ih =>
    obtain ⟨htake, hwhole, -⟩ := take_whole hne heven c.pos
    obtain ⟨hfirst, -, hdrop, hleft⟩ := length_take_drop heven c.bytes
    have hpos := List.length_pos_iff.mpr htake
    have hroom := hfull hne
    refine List.isChain_cons_cons.mpr ⟨⟨_, _, rfl, by omega⟩, ih hdrop fun hrest => ?_⟩
    have hlength := hleft hrest
    rw [length_cons, hfirst]
    omega

/-- The last of some records ends at an address. -/
def EndsAt (b : Int) (records : List TextRecord) : Prop :=
  ∀ x ∈ records.getLast?, offset x.start x.length = b

/-- New records behind a record end where the record would end with all of their code. -/
theorem endsAt_cons_fill (heven : code.length % 2 = 0)
    (hend : code ≠ [] → ∀ n : Int, offset r.start (r.length + n) = offset a n) :
    EndsAt (offset r.start (r.length + (code.length / 2 : Nat))) (r :: fill c a code) := by
  fun_induction fill c a code generalizing r with
  | case1 =>
    intro x hx
    cases hx
    simp
  | case2 a code hne ih =>
    obtain ⟨hfirst, hrest, hdrop, hleft⟩ := length_take_drop heven c.bytes
    have hlength : length ⟨a, [code.take (2 * c.bytes)]⟩ = min c.bytes (code.length / 2) := by
      rw [length_cons, hfirst]
      rfl
    have hnext := ih (r := ⟨a, [code.take (2 * c.bytes)]⟩) hdrop fun hne n => by
      have hle := hleft hne
      rw [hlength, offset_offset, Nat.min_eq_left hle]
    rw [hlength, hrest] at hnext
    have hsum : ((min c.bytes (code.length / 2) : Nat) : Int) + (code.length / 2 - c.bytes : Nat) =
        (code.length / 2 : Nat) := by
      omega
    rw [hend hne, ← hsum]
    intro x hx
    rw [List.getLast?_cons_cons] at hx
    exact hnext x hx

/-- **What pouring makes**: a record that has grown, and new records behind it.  If there are any,
the first is full and they begin where it ends. -/
theorem exists_pour_eq (c : Capacity) (r : TextRecord) (a : Int) (heven : code.length % 2 = 0) :
    ∃ r' a' rest, pour c r a code = r' :: fill c a' rest ∧ r.GrowsTo r' ∧ rest.length % 2 = 0 ∧
      r'.length + rest.length / 2 = r.length + code.length / 2 ∧
      (rest ≠ [] → c.bytes ≤ r'.length ∧
        ((∀ n : Int, offset r.start (r.length + n) = offset a n) →
          ∀ n : Int, offset r'.start (r'.length + n) = offset a' n)) := by
  by_cases hfull : c.bytes - r.length = 0
  · exact ⟨r, a, code, pour_of_full hfull, .refl r, heven, rfl, fun _ => ⟨by omega, id⟩⟩
  · rw [pour_of_room rfl hfull]
    generalize hroom : c.bytes - r.length = room at hfull
    obtain ⟨hfirst, hrest, hdrop, hleft⟩ := length_take_drop heven room
    have hlength := length_append r (code.take (2 * room))
    refine ⟨_, _, _, rfl, growsTo_append r _, hdrop, by omega, fun hne => ⟨?_, fun hend n => ?_⟩⟩
    · have hle := hleft hne
      omega
    · have hle := hleft hne
      rw [hlength, hfirst, Nat.min_eq_left hle, offset_offset, ← hend, Nat.cast_add, Int.add_assoc]
      rfl

theorem isChain_pour (heven : code.length % 2 = 0) : (pour c r a code).IsChain (Full c) := by
  obtain ⟨r', a', rest, hpour, -, hrest, -, hfull⟩ := exists_pour_eq c r a heven
  rw [hpour]
  exact isChain_cons_fill hrest fun hne => (hfull hne).1

theorem endsAt_pour (heven : code.length % 2 = 0)
    (hend : ∀ n : Int, offset r.start (r.length + n) = offset a n) :
    EndsAt (offset a (code.length / 2 : Nat)) (pour c r a code) := by
  obtain ⟨r', a', rest, hpour, hgrows, hrest, hlength, hnext⟩ := exists_pour_eq c r a heven
  have hlast := endsAt_cons_fill (c := c) hrest fun hne => (hnext hne).2 hend
  rw [← Nat.cast_add, hlength, hgrows.start, Nat.cast_add, hend] at hlast
  rwa [hpour]

end Line

/-! ## Packing a line -/

section PackLine

variable {p : Packing} {o : Option Open} {l : Listed}

/-- The open record ends where the line behind it is expected. -/
def Open.IsAligned (x : Open) : Prop := offset x.record.start x.record.length = x.next

/-- **Why a line does not go on in the open record.** -/
theorem continues_eq_false_iff {x : Open} :
    p.continues x l = false ↔
      (p.breakAtGaps = true ∧
        (l.address ≠ x.next ∨ offset x.record.start x.record.length ≠ l.address)) ∨
      ((l.code.length + 1) / 2 ≤ p.capacity.bytes ∧
        p.capacity.bytes < x.record.length + (l.code.length + 1) / 2) := by
  simp only [continues]
  split
  · rename_i hgap
    simp only [Bool.and_eq_true, Bool.or_eq_true, decide_eq_true_eq] at hgap
    exact iff_of_true rfl (Or.inl hgap)
  · rename_i hgap
    simp only [Bool.and_eq_true, Bool.or_eq_true, decide_eq_true_eq] at hgap
    simp [hgap]

/-- A record is closed for a reason before a line that does not go on in it. -/
theorem closedBefore_of_not_continues {x : Open} (h : p.continues x l = false)
    (hx : p.breakAtGaps = true → x.IsAligned) (rest : List Text) :
    p.ClosedBefore x.record
      ⟨l.address, (evenDigits l.code).take (2 * p.capacity.bytes) :: rest⟩ := by
  rcases continues_eq_false_iff.mp h with ⟨hgaps, hgap⟩ | ⟨hfits, hroom⟩
  · right
    refine ⟨hgaps, fun heq => ?_⟩
    have haligned : offset x.record.start x.record.length = x.next := hx hgaps
    rcases hgap with hnext | hend
    · exact hnext (heq.trans haligned)
    · exact hend heq.symm
  · left
    have hlength := length_evenDigits l.code
    refine ⟨_, _, rfl, ?_⟩
    rw [List.take_of_length_le (by omega)]
    omega

/-- **The records that a line leads to are closed for a reason**, all but the last, which stays
open. -/
theorem isChain_packLine (hl : l.code ≠ [])
    (ho : p.breakAtGaps = true → ∀ x ∈ o, x.IsAligned) :
    (p.packLine o l).IsChain p.ClosedBefore := by
  have hne : evenDigits l.code ≠ [] := mt evenDigits_eq_nil.mp hl
  have hpour (r : TextRecord) :
      (pour p.capacity r l.address (evenDigits l.code)).IsChain p.ClosedBefore :=
    (isChain_pour (evenDigits_even _)).imp fun _ _ => Or.inl
  have hfill : (fill p.capacity l.address (evenDigits l.code)).IsChain p.ClosedBefore := by
    rw [fill_eq_pour hne]
    exact hpour _
  cases o with
  | none => exact hfill
  | some x =>
    rw [packLine]
    split
    · exact hpour x.record
    · rename_i hx
      refine List.isChain_cons.mpr ⟨?_, hfill⟩
      rw [fill_of_ne_nil hne]
      rintro r ⟨⟩
      exact closedBefore_of_not_continues (by simpa using hx) (fun hp => ho hp x rfl) []

/-- Packing a line lets the open record grow, if it does not leave it as it is. -/
theorem exists_packLine_eq (p : Packing) (x : Open) (l : Listed) :
    ∃ r rest, p.packLine (some x) l = r :: rest ∧ x.record.GrowsTo r := by
  rw [packLine]
  split
  · obtain ⟨r, a, rest, hpour, hgrows, -⟩ :=
      exists_pour_eq p.capacity x.record l.address (evenDigits_even l.code)
    exact ⟨r, _, hpour, hgrows⟩
  · exact ⟨x.record, _, rfl, .refl _⟩

/-- **Breaking at gaps, the records that a line leads to end where the code of the line does.** -/
theorem endsAt_packLine (hp : p.breakAtGaps = true) (hl : l.code ≠ []) :
    EndsAt (offset l.address ((l.code.length + 1) / 2 : Nat)) (p.packLine o l) := by
  have hne : evenDigits l.code ≠ [] := mt evenDigits_eq_nil.mp hl
  have hbytes : (evenDigits l.code).length / 2 = (l.code.length + 1) / 2 := by
    rw [length_evenDigits]
    omega
  rw [← hbytes]
  obtain ⟨x, rfl, hx, hpour⟩ | hfill := packLine_cases p o l
  · rw [hpour]
    refine endsAt_pour (evenDigits_even _) fun n => ?_
    rw [← offset_offset, offset_of_continues hp hx]
  · have hlast : EndsAt (offset l.address ((evenDigits l.code).length / 2 : Nat))
        (fill p.capacity l.address (evenDigits l.code)) := by
      rw [fill_eq_pour hne]
      exact endsAt_pour (evenDigits_even _) fun n => congrArg (offset l.address) (Int.zero_add n)
    intro r hr
    rw [hfill, List.getLast?_append_of_ne_nil _ (by simp [fill_of_ne_nil hne])] at hr
    exact hlast r hr

end PackLine

/-! ## Packing a listing -/

section Pack

variable {p : Packing} {o : Option Open} {lines : List Listed}

/-- The first record that a line leads to grows to the first of all records, if the open record does
behind the line. -/
theorem exists_pack_cons_eq {l : Listed} {r : TextRecord} {rest : List TextRecord}
    (hl : l.code ≠ []) (hline : p.packLine o l = r :: rest)
    (hpack : ∀ x : Open, ∃ r' rest', p.pack (some x) lines = r' :: rest' ∧ x.record.GrowsTo r') :
    ∃ r' rest', p.pack o (l :: lines) = r' :: rest' ∧ r.GrowsTo r' := by
  rw [pack_cons_of_code hl, hline]
  cases rest with
  | nil => exact hpack ⟨r, offset l.address l.size⟩
  | cons next rest => exact ⟨r, _, rfl, .refl r⟩

/-- The open record grows to the first of all records. -/
theorem exists_pack_eq (p : Packing) (x : Open) (lines : List Listed) :
    ∃ r rest, p.pack (some x) lines = r :: rest ∧ x.record.GrowsTo r := by
  induction lines generalizing x with
  | nil => exact ⟨x.record, [], rfl, .refl _⟩
  | cons l lines ih =>
    by_cases hl : l.code = []
    · rw [pack_cons_of_nil hl]
      exact ih x
    · obtain ⟨r, rest, hline, hgrows⟩ := exists_packLine_eq p x l
      obtain ⟨r', rest', hpack, hgrows'⟩ := exists_pack_cons_eq hl hline ih
      exact ⟨r', rest', hpack, hgrows.trans hgrows'⟩

/-- The first record starts at the first line with code. -/
theorem start_of_pack_eq_cons {first : Listed} {others : List Listed}
    (h : Listed.coded lines = first :: others) :
    ∃ r rest, p.pack none lines = r :: rest ∧ r.start = first.address := by
  induction lines with
  | nil => cases h
  | cons l lines ih =>
    by_cases hl : l.code = []
    · rw [Listed.coded_cons_of_nil hl] at h
      rw [pack_cons_of_nil hl]
      exact ih h
    · rw [Listed.coded_cons_of_code hl] at h
      cases h
      have hline : p.packLine none first = _ := fill_of_ne_nil (mt evenDigits_eq_nil.mp hl) _ _
      obtain ⟨r, rest, hpack, hgrows⟩ :=
        exists_pack_cons_eq hl hline fun x => exists_pack_eq p x lines
      exact ⟨r, rest, hpack, hgrows.start⟩

/-- **All records are closed for a reason.**  Where they break at gaps, this asks that code fills
the storage of its line. -/
theorem isChain_pack
    (hsizes : p.breakAtGaps = true → ∀ l ∈ lines, l.code ≠ [] →
      l.size = ((l.code.length + 1) / 2 : Nat))
    (ho : p.breakAtGaps = true → ∀ x ∈ o, x.IsAligned) :
    (p.pack o lines).IsChain p.ClosedBefore := by
  induction lines generalizing o with
  | nil => cases o <;> simp [pack]
  | cons l lines ih =>
    have hrest := fun hp l' hl' => hsizes hp l' (List.mem_cons_of_mem _ hl')
    by_cases hl : l.code = []
    · rw [pack_cons_of_nil hl]
      exact ih hrest ho
    · rw [pack_cons_of_code hl]
      have hline := isChain_packLine hl ho
      have hend := fun hp => endsAt_packLine (p := p) (o := o) hp hl
      rcases List.eq_nil_or_concat (p.packLine o l) with hnil | ⟨init, last, hconcat⟩
      · rw [hnil]
        exact ih hrest fun _ x hx => by cases hx
      · rw [List.concat_eq_append] at hconcat
        rw [hconcat] at hline hend ⊢
        have hopened : opened (init ++ [last]) (offset l.address l.size) =
            some ⟨last, offset l.address l.size⟩ := by
          simp [opened]
        rw [List.dropLast_concat, hopened]
        -- The last record of the line grows to the first of the records behind it.
        obtain ⟨last', more, hpack, hgrows⟩ :=
          exists_pack_eq p ⟨last, offset l.address l.size⟩ lines
        have hmore : (last' :: more).IsChain p.ClosedBefore := by
          rw [← hpack]
          refine ih hrest fun hp x hx => ?_
          cases hx
          rw [Open.IsAligned, hsizes hp l List.mem_cons_self hl]
          exact hend hp last (by simp)
        obtain ⟨hinit, -, hlast⟩ := List.isChain_append.mp hline
        rw [hpack]
        refine List.isChain_append.mpr ⟨hinit, hmore, ?_⟩
        rintro r hr _ ⟨⟩
        exact (hlast r hr last rfl).growsTo hgrows

/-- Of two records in a row the first is closed for a reason. -/
theorem closedBefore_of_pack_eq {before behind : List TextRecord} {r r' : TextRecord}
    (hsizes : p.breakAtGaps = true → ∀ l ∈ lines, l.code ≠ [] →
      l.size = ((l.code.length + 1) / 2 : Nat))
    (hpack : p.pack none lines = before ++ r :: r' :: behind) : p.ClosedBefore r r' :=
  List.isChain_iff_forall_rel_of_append_cons_cons.mp (isChain_pack hsizes (by simp)) hpack

/-- **Code that fits into one record is packed into one**, if records do not break at gaps. -/
theorem exists_pack_eq_singleton (hp : p.breakAtGaps = false)
    (hpos : 1 ≤ Listed.totalBytes lines)
    (hfits : Listed.totalBytes lines ≤ p.capacity.bytes) :
    ∃ first others r, Listed.coded lines = first :: others ∧ r.start = first.address ∧
      p.pack none lines = [r] := by
  have hpacked := isPacked_of_mem_pack p lines
  have hlength := congrArg List.length (codes_pack p lines)
  rw [Listed.length_flatMap_evenDigits] at hlength
  cases hcoded : Listed.coded lines with
  | nil =>
    have hnone := Listed.length_flatMap_evenDigits lines
    rw [← flatMap_evenDigits_coded, hcoded, List.flatMap_nil, List.length_nil] at hnone
    omega
  | cons first others =>
    obtain ⟨r, rest, hpack, hstart⟩ := start_of_pack_eq_cons (p := p) hcoded
    rw [hpack] at hlength hpacked
    cases rest with
    | nil => exact ⟨first, others, r, rfl, hstart, hpack⟩
    | cons r' rest =>
      -- What two records hold between which there was no room is more than one record holds.
      have hsplit : p.pack none lines = [] ++ r :: r' :: rest := hpack
      have hclosed := closedBefore_of_pack_eq (by simp [hp]) hsplit
      obtain ⟨piece, codes, hcodes, hroom⟩ : r.Full p.capacity r' := by
        simpa [ClosedBefore, hp] using hclosed
      have hpiece : piece.length / 2 ≤ r'.length := by
        rw [length, hcodes]
        exact Nat.le_add_right _ _
      have hr := (hpacked r (by simp)).length_flatten
      have hr' := (hpacked r' (by simp)).length_flatten
      rw [List.flatMap_cons, List.flatMap_cons, List.length_append, List.length_append] at hlength
      omega

end Pack

end Packing

/-! ## Emission -/

/-- **Records are closed only for a reason.**  Whatever the listing and the capacity, of two records
in a row the first has no room for the first piece of the second, if records do not break at gaps;
so code that fits into one record makes one, at the address of the first line with code.  Records
that break at gaps, of a listing where code fills the storage of its line, may also be in a row
because the second does not start where the first ends. -/
theorem emit_object_greedy (program : Program) (lines : List Listed) (maxBytes : Int) :
    (∀ (before : List TextRecord) (r r' : TextRecord) (behind : List TextRecord),
      Record.texts ((Emitter.object (.ofSettings maxBytes false)).emit program lines) =
        before ++ r :: r' :: behind →
      ∃ piece rest, r'.codes = piece :: rest ∧
        recordLimit maxBytes < r.length + piece.length / 2) ∧
    (1 ≤ Listed.totalBytes lines → Listed.totalBytes lines ≤ recordLimit maxBytes →
      ∃ first others r, Listed.coded lines = first :: others ∧ r.start = first.address ∧
        Record.texts ((Emitter.object (.ofSettings maxBytes false)).emit program lines) = [r]) ∧
    ((∀ l ∈ lines, l.code ≠ [] → l.size = ((l.code.length + 1) / 2 : Nat)) →
      ∀ (before : List TextRecord) (r r' : TextRecord) (behind : List TextRecord),
      Record.texts ((Emitter.object (.ofSettings maxBytes true)).emit program lines) =
        before ++ r :: r' :: behind →
      (∃ piece rest, r'.codes = piece :: rest ∧
        recordLimit maxBytes < r.length + piece.length / 2) ∨
      (r'.start ≠ offset r.start r.length ∧
        ((∀ l ∈ lines, InRange l.address) → r'.start ≠ r.start + r.length))) := by
  have hlimit (gaps : Bool) :
      (Packing.ofSettings maxBytes gaps).capacity.bytes = recordLimit maxBytes :=
    bytes_ofSetting maxBytes
  simp only [texts_emit]
  refine ⟨fun before r r' behind hpack => ?_, fun hpos hfits => ?_,
    fun hsizes before r r' behind hpack => ?_⟩
  · rcases Packing.closedBefore_of_pack_eq (fun hp => by cases hp) hpack with hfull | ⟨hp, -⟩
    · exact hlimit false ▸ hfull
    · cases hp
  · exact Packing.exists_pack_eq_singleton rfl hpos (hlimit false ▸ hfits)
  · rcases Packing.closedBefore_of_pack_eq (fun _ => hsizes) hpack with hfull | ⟨-, hgap⟩
    · exact Or.inl (hlimit true ▸ hfull)
    · refine Or.inr ⟨hgap, fun hrange heq => hgap ?_⟩
      have hmem : r' ∈ (Packing.ofSettings maxBytes true).pack none lines := by simp [hpack]
      have hstart := Packing.inRange_of_mem_pack hrange r' hmem
      rw [offset_eq_add (heq ▸ hstart), heq]

/-- A code that fills a record exactly, one that is longer than a record, and a gap. -/
def tightLines : List Listed :=
  [⟨⟨⟨1, "-", "A", "-"⟩, 0, 1⟩, "7"⟩, ⟨⟨⟨2, "-", "B", "-"⟩, 1, 2⟩, "AABB"⟩,
    ⟨⟨⟨3, "-", "C", "-"⟩, 3, 4⟩, "01020304"⟩, ⟨⟨⟨4, "-", "RESB", "2"⟩, 7, 2⟩, []⟩,
    ⟨⟨⟨5, "-", "D", "-"⟩, 9, 1⟩, "FF"⟩]

/-- The code behind the gap goes into the last record, if there is room and records do not break at
gaps; if they do, the gap alone closes a record.  A large record takes all of the code. -/
theorem emit_object_greedy_tight :
    Record.texts ((Emitter.object (.ofSettings 3 false)).emit ⟨"P", 0, 10⟩ tightLines) =
        [⟨0, ["07", "AABB"]⟩, ⟨3, ["010203"]⟩, ⟨6, ["04", "FF"]⟩] ∧
      (∃ piece rest, (["010203"] : List Text) = piece :: rest ∧ 3 < 3 + piece.length / 2) ∧
      (∃ r, r.start = 0 ∧
        Record.texts ((Emitter.object (.ofSettings 30 false)).emit ⟨"P", 0, 10⟩ tightLines) = [r]) ∧
      (∀ l ∈ tightLines, l.code ≠ [] → l.size = ((l.code.length + 1) / 2 : Nat)) ∧
      Record.texts ((Emitter.object (.ofSettings 3 true)).emit ⟨"P", 0, 10⟩ tightLines) =
        [⟨0, ["07", "AABB"]⟩, ⟨3, ["010203"]⟩, ⟨6, ["04"]⟩, ⟨9, ["FF"]⟩] ∧
      9 ≠ offset 6 1 := by
  have hjoined :
      Record.texts ((Emitter.object (.ofSettings 3 false)).emit ⟨"P", 0, 10⟩ tightLines) =
        [⟨0, ["07", "AABB"]⟩, ⟨3, ["010203"]⟩, ⟨6, ["04", "FF"]⟩] := by
    decide +kernel
  have hbroken : Record.texts ((Emitter.object (.ofSettings 3 true)).emit ⟨"P", 0, 10⟩ tightLines) =
      [⟨0, ["07", "AABB"]⟩, ⟨3, ["010203"]⟩, ⟨6, ["04"]⟩, ⟨9, ["FF"]⟩] := by
    decide +kernel
  have hsizes : ∀ l ∈ tightLines, l.code ≠ [] → l.size = ((l.code.length + 1) / 2 : Nat) := by
    decide +kernel
  obtain ⟨hfull, -, hgap⟩ := emit_object_greedy ⟨"P", 0, 10⟩ tightLines 3
  obtain ⟨-, hone, -⟩ := emit_object_greedy ⟨"P", 0, 10⟩ tightLines 30
  obtain ⟨first, others, r, hcoded, hstart, hr⟩ := hone (by decide +kernel) (by decide +kernel)
  refine ⟨hjoined, hfull [] _ _ _ hjoined, ⟨r, ?_, hr⟩, hsizes, hbroken, ?_⟩
  · cases hcoded
    exact hstart
  · rcases hgap hsizes [⟨0, ["07", "AABB"]⟩, ⟨3, ["010203"]⟩] _ _ [] hbroken with
      ⟨piece, rest, hpiece, hlt⟩ | ⟨hne, -⟩
    · cases hpiece
      exact absurd hlt (by decide +kernel)
    · exact hne

end Sic
