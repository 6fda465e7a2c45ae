import Mathlib.Data.List.Forall2
import Sic.Proofs.Extent

/-!
# Packing lines that are moved

Whether code goes on in the open record is decided by comparing addresses, and by counting bytes.
Neither changes if all lines are moved by the same distance, so lines that are moved are packed into
records that are moved, with pieces of the same lengths.

* `Listed.IsMoved`, `TextRecord.IsMoved` and `Open.IsMoved` relate lines, records and states of
  packing; what the digits of a code are does not matter, only how many there are.
* `continues_moved` is the one place where addresses are compared.
* `fill_moved`, `pour_moved` and `packLine_moved` are the step, and `pack_moved` the run.

Addresses wrap around, and an offset from a moved address is a moved offset (`offset_comm`), so the
records of lines are moved even past the largest address.  Where lines and their code keep to a
range, the records start in it (`start_bounds_of_mem_pack`).
-/

set_option autoImplicit false

namespace Sic

open Address Text

/-! ## Moved addresses -/

theorem Address.offset_comm (a m n : Int) : offset (offset a m) n = offset (offset a n) m := by
  rw [offset_offset, offset_offset, Int.add_comm]

/-- Moving addresses keeps different ones apart. -/
theorem Address.offset_inj {a b d : Int} (ha : InRange a) (hb : InRange b) :
    offset a d = offset b d ↔ a = b := by
  constructor
  · intro h
    obtain ⟨ha, ha'⟩ := ha
    obtain ⟨hb, hb'⟩ := hb
    have hmod : (a + d) % count = (b + d) % count := by
      rw [← Int.bmod_emod, ← Int.bmod_emod (x := b + d)]
      exact congrArg (· % (count : Int)) h
    simp only [count] at hmod
    omega
  · exact fun h => by rw [h]

/-- A line moved by `d`, with code of the same length. -/
structure Listed.IsMoved (d : Int) (l l' : Listed) : Prop where
  address : l'.address = offset l.address d
  size : l'.size = l.size
  length : l'.code.length = l.code.length

/-- A record moved by `d`, with pieces of the same lengths. -/
structure TextRecord.IsMoved (d : Int) (r r' : TextRecord) : Prop where
  start : r'.start = offset r.start d
  lengths : r'.codes.map List.length = r.codes.map List.length

namespace Packing

open TextRecord

/-- An open record moved by `d`. -/
structure Open.IsMoved (d : Int) (o o' : Open) : Prop where
  record : o.record.IsMoved d o'.record
  next : o'.next = offset o.next d
  inRange : InRange o.next

section Line

variable {c : Capacity} {d a : Int} {r r' : TextRecord} {code code' : Text}

theorem length_of_isMoved (h : r.IsMoved d r') : r'.length = r.length := by
  have hcount (r : TextRecord) :
      r.length = (r.codes.map List.length).foldr (fun n m => n / 2 + m) 0 := by
    rw [List.foldr_map]
    rfl
  rw [hcount, hcount, h.lengths]

theorem isMoved_append (h : r.IsMoved d r') (hcode : code'.length = code.length) :
    (append r code).IsMoved d (append r' code') :=
  ⟨h.start, by simp [append, h.lengths, hcode]⟩

theorem fill_moved (hcode : code'.length = code.length) :
    List.Forall₂ (TextRecord.IsMoved d) (fill c a code) (fill c (offset a d) code') := by
  fun_induction fill c a code generalizing code' with
  | case1 a =>
    rw [List.eq_nil_of_length_eq_zero hcode, fill_nil]
    exact List.Forall₂.nil
  | case2 a code hne ih =>
    have hne' : code' ≠ [] := by
      intro h
      rw [h] at hcode
      exact hne (List.eq_nil_of_length_eq_zero hcode.symm)
    rw [fill_of_ne_nil hne', offset_comm]
    refine List.Forall₂.cons ⟨rfl, ?_⟩ (ih ?_)
    · simp [hcode]
    · simp [hcode]

theorem pour_moved (hr : r.IsMoved d r') (hcode : code'.length = code.length) :
    List.Forall₂ (TextRecord.IsMoved d) (pour c r a code) (pour c r' (offset a d) code') := by
  have hlength := length_of_isMoved hr
  by_cases hfull : c.bytes - r.length = 0
  · rw [pour_of_full hfull, pour_of_full (by rwa [hlength])]
    exact List.Forall₂.cons hr (fill_moved hcode)
  · rw [pour_of_room rfl hfull, pour_of_room (by rw [hlength]) hfull, offset_comm]
    refine List.Forall₂.cons (isMoved_append hr ?_) (fill_moved ?_)
    · simp [hcode]
    · simp [hcode]

/-- **Moved lines go on in the open record as lines do.** -/
theorem continues_moved (p : Packing) {o o' : Open} {l l' : Listed} (ho : o.IsMoved d o')
    (hl : l.IsMoved d l') (hrange : InRange l.address) : p.continues o' l' = p.continues o l := by
  have hnext : l'.address = o'.next ↔ l.address = o.next := by
    rw [hl.address, ho.next]
    exact offset_inj hrange ho.inRange
  have hend : offset o'.record.start o.record.length = l'.address ↔
      offset o.record.start o.record.length = l.address := by
    rw [ho.record.start, offset_comm, hl.address]
    exact offset_inj (inRange_offset _ _) hrange
  simp only [continues, ne_eq, hnext, hend, hl.length, length_of_isMoved ho.record]

theorem packLine_moved (p : Packing) {o o' : Option Open} {l l' : Listed}
    (ho : Option.Rel (Open.IsMoved d) o o') (hl : l.IsMoved d l') (hrange : InRange l.address) :
    List.Forall₂ (TextRecord.IsMoved d) (p.packLine o l) (p.packLine o' l') := by
  have hcode : (evenDigits l'.code).length = (evenDigits l.code).length := by
    rw [length_evenDigits, length_evenDigits, hl.length]
  cases ho with
  | none =>
    simp only [packLine, hl.address]
    exact fill_moved hcode
  | some ho =>
    simp only [packLine, continues_moved p ho hl hrange, hl.address]
    split
    · exact pour_moved ho.record hcode
    · exact List.Forall₂.cons ho.record (fill_moved hcode)

end Line

/-! ## Listings -/

section Last

variable {α β : Type} {R : α → β → Prop} {xs : List α} {ys : List β}

theorem forall₂_dropLast (h : List.Forall₂ R xs ys) : List.Forall₂ R xs.dropLast ys.dropLast := by
  rw [List.dropLast_eq_take, List.dropLast_eq_take, h.length_eq]
  exact List.forall₂_take _ h

theorem rel_getLast? (h : List.Forall₂ R xs ys) : Option.Rel R xs.getLast? ys.getLast? := by
  induction h with
  | nil => exact Option.Rel.none
  | cons hxy htail ih =>
    cases htail with
    | nil => exact Option.Rel.some hxy
    | cons _ _ => simpa using ih

end Last

theorem opened_moved {d next : Int} {rs rs' : List TextRecord} (hnext : InRange next)
    (h : List.Forall₂ (TextRecord.IsMoved d) rs rs') :
    Option.Rel (Open.IsMoved d) (opened rs next) (opened rs' (offset next d)) := by
  rw [opened, opened]
  generalize rs.getLast? = last, rs'.getLast? = last', rel_getLast? h = hlast
  cases hlast with
  | none => exact Option.Rel.none
  | some hr => exact Option.Rel.some ⟨hr, rfl, hnext⟩

/-- **Moved lines are packed into moved records.** -/
theorem pack_moved (p : Packing) {d : Int} {o o' : Option Open} {lines lines' : List Listed}
    (ho : Option.Rel (Open.IsMoved d) o o')
    (hlines : List.Forall₂ (Listed.IsMoved d) lines lines')
    (hrange : ∀ l ∈ lines, InRange l.address) :
    List.Forall₂ (TextRecord.IsMoved d) (p.pack o lines) (p.pack o' lines') := by
  induction hlines generalizing o o' with
  | nil =>
    cases ho with
    | none => exact List.Forall₂.nil
    | some ho => exact List.Forall₂.cons ho.record List.Forall₂.nil
  | @cons l l' lines lines' hl _ ih =>
    obtain ⟨hfirst, hrest⟩ := List.forall_mem_cons.mp hrange
    by_cases hcode : l.code = []
    · have hcode' : l'.code = [] := List.eq_nil_of_length_eq_zero (by rw [hl.length, hcode]; rfl)
      rw [pack_cons_of_nil hcode, pack_cons_of_nil hcode']
      exact ih ho hrest
    · have hcode' : l'.code ≠ [] := by
        intro h
        have hlength := hl.length
        rw [h] at hlength
        exact hcode (List.eq_nil_of_length_eq_zero hlength.symm)
      have hline := packLine_moved p ho hl hfirst
      have hnext : offset l'.address l'.size = offset (offset l.address l.size) d := by
        rw [hl.address, hl.size, offset_comm]
      rw [pack_cons_of_code hcode, pack_cons_of_code hcode', hnext]
      exact List.rel_append (forall₂_dropLast hline)
        (ih (opened_moved (inRange_offset _ _) hline) hrest)

/-! ## Where records start -/

section Bounds

variable {c : Capacity} {low high a : Int} {r : TextRecord} {code : Text}

theorem inRange_of_le_of_le (hlow : InRange low) (hhigh : InRange high) (hle : low ≤ a)
    (hend : a ≤ high) : InRange a :=
  ⟨Int.le_trans hlow.1 hle, Int.lt_of_le_of_lt hend hhigh.2⟩

theorem start_bounds_of_mem_fill (heven : code.length % 2 = 0) (hlow : InRange low)
    (hhigh : InRange high) (hle : low ≤ a) (hend : a + (code.length / 2 : Nat) ≤ high) :
    ∀ x ∈ fill c a code, low ≤ x.start ∧ x.start ≤ high := by
  intro x hx
  have hfirst : InRange a := inRange_of_le_of_le hlow hhigh hle (by omega)
  have hlast : InRange (a + (code.length / 2 : Nat)) :=
    inRange_of_le_of_le hlow hhigh (by omega) hend
  have hx := (inOrder_fill heven hfirst hlast).bounds hx
  omega

theorem start_bounds_of_mem_pour (heven : code.length % 2 = 0) (hlow : InRange low)
    (hhigh : InRange high) (hr : low ≤ r.start ∧ r.start ≤ high) (hle : low ≤ a)
    (hend : a + (code.length / 2 : Nat) ≤ high) :
    ∀ x ∈ pour c r a code, low ≤ x.start ∧ x.start ≤ high := by
  intro x hx
  by_cases hfull : c.bytes - r.length = 0
  · rw [pour_of_full hfull] at hx
    rcases List.mem_cons.mp hx with rfl | hx
    · exact hr
    · exact start_bounds_of_mem_fill heven hlow hhigh hle hend x hx
  · rw [pour_of_room rfl hfull] at hx
    generalize c.bytes - r.length = room at hx
    rcases List.mem_cons.mp hx with rfl | hx
    · exact hr
    · -- What is left of the code lies behind the room that was filled, or nothing is left.
      have hdrop : (code.drop (2 * room)).length = code.length - 2 * room := List.length_drop
      rcases drop_eq_nil_or_offset_eq (inRange_of_le_of_le hlow hhigh hle (by omega))
        (inRange_of_le_of_le hlow hhigh (by omega) hend) room with ⟨-, hnil⟩ | ⟨hlt, hnext⟩
      · rw [hnil, fill_nil] at hx
        cases hx
      · rw [hnext] at hx
        exact start_bounds_of_mem_fill (by omega) hlow hhigh (by omega) (by omega) x hx

/-- Records start where lines and their code are. -/
theorem start_bounds_of_mem_pack {p : Packing} {lines : List Listed} (hlow : InRange low)
    (hhigh : InRange high) (hlines : ∀ l ∈ lines, low ≤ l.address ∧
      l.address + ((evenDigits l.code).length / 2 : Nat) ≤ high) :
    ∀ r ∈ p.pack none lines, low ≤ r.start ∧ r.start ≤ high := by
  refine forall_mem_pack (fun o l hl _ ho r hr => ?_) fun _ hr => absurd hr List.not_mem_nil
  obtain ⟨hle, hend⟩ := hlines l hl
  obtain ⟨x, rfl, -, hpour⟩ | hfill := packLine_cases p o l
  · rw [hpour] at hr
    exact start_bounds_of_mem_pour (evenDigits_even _) hlow hhigh (ho _ List.mem_cons_self) hle
      hend r hr
  · rw [hfill] at hr
    rcases List.mem_append.mp hr with hr | hr
    · exact ho r hr
    · exact start_bounds_of_mem_fill (evenDigits_even _) hlow hhigh hle hend r hr

end Bounds

end Packing

end Sic
