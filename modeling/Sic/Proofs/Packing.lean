import Sic.Assembly
import Sic.Proofs.Cells

/-!
# Packing loses and moves nothing

However code is cut into records, the records carry the digits of the lines in the order of the
lines, and with breaks at gaps they carry them to the addresses of the lines.

* `IsPacked` is what every record made by packing is like: it has code, in pieces that are whole
  bytes, and not more than its capacity (`isPacked_of_mem_pack`).
* `flatMap_pack` is the induction over the lines, once for all: whatever is collected from records
  is collected from the lines, if that is so for the records that one line leads to.
* `codes_pack` and `cells_pack` are its two instances: the digits, for any packing, and the cells,
  for a packing that breaks at gaps.

A line is packed in one of three ways: into new records (`fill`), into the open record and then new
ones (`pour`), or into new ones behind the open record, which is closed.  Each has its own lemma
about what is collected, and `packLine` has the sum of them.

At the end is what the two emitters write (`emit_object` and `emit_dump`).
-/

set_option autoImplicit false

namespace Sic

open Address Text

/-! ## Records that packing makes -/

namespace TextRecord

/-- A record with code in it, in pieces that are whole bytes, and within its capacity. -/
structure IsPacked (c : Capacity) (r : TextRecord) : Prop where
  codes_ne_nil : r.codes ≠ []
  whole : ∀ code ∈ r.codes, code ≠ [] ∧ code.length % 2 = 0
  length_le : r.length ≤ c.bytes

theorem length_cons (start : Int) (code : Text) (codes : List Text) :
    length ⟨start, code :: codes⟩ = code.length / 2 + length ⟨start, codes⟩ := rfl

theorem length_concat (start : Int) (codes : List Text) (code : Text) :
    length ⟨start, codes ++ [code]⟩ = length ⟨start, codes⟩ + code.length / 2 := by
  induction codes with
  | nil => exact Nat.add_comm _ _
  | cons first codes ih => rw [List.cons_append, length_cons, length_cons, ih, Nat.add_assoc]

theorem length_flatten_codes (start : Int) {codes : List Text}
    (h : ∀ code ∈ codes, code.length % 2 = 0) :
    codes.flatten.length = 2 * length ⟨start, codes⟩ := by
  induction codes with
  | nil => rfl
  | cons code codes ih =>
    have hcode := h code List.mem_cons_self
    rw [List.flatten_cons, List.length_append, length_cons,
      ih fun other hother => h other (List.mem_cons_of_mem _ hother)]
    omega

/-- The digits of a record are twice its bytes. -/
theorem IsPacked.length_flatten {c : Capacity} {r : TextRecord} (h : r.IsPacked c) :
    r.codes.flatten.length = 2 * r.length :=
  length_flatten_codes r.start fun code hcode => (h.whole code hcode).2

/-- A packed record is not empty. -/
theorem IsPacked.length_pos {c : Capacity} {r : TextRecord} (h : r.IsPacked c) :
    0 < r.length := by
  obtain ⟨start, codes⟩ := r
  obtain ⟨code, codes, rfl⟩ := List.exists_cons_of_ne_nil h.codes_ne_nil
  obtain ⟨hne, heven⟩ := h.whole code List.mem_cons_self
  have hpos := List.length_pos_iff.mpr hne
  rw [length_cons]
  omega

end TextRecord

namespace Packing

open TextRecord

theorem length_append (r : TextRecord) (code : Text) :
    (append r code).length = r.length + code.length / 2 :=
  length_concat r.start r.codes code

theorem flatten_append (r : TextRecord) (code : Text) :
    (append r code).codes.flatten = r.codes.flatten ++ code := by
  rw [append, List.flatten_append, List.flatten_singleton]

/-- The cells of a piece of code that is added to a record go where the record ends. -/
theorem cells_append {c : Capacity} {r : TextRecord} (h : r.IsPacked c) (code : Text) :
    (append r code).cells = r.cells ++ spread (offset r.start r.length) (digitPairs code) := by
  have heven : r.codes.flatten.length % 2 = 0 := by
    rw [h.length_flatten]
    omega
  have hlength : (digitPairs r.codes.flatten).length = r.length := by
    rw [length_digitPairs, h.length_flatten]
    omega
  rw [cells, flatten_append, digitPairs_append heven, spread_append, hlength]
  rfl

theorem isPacked_append {c : Capacity} {r : TextRecord} (h : r.IsPacked c) {code : Text}
    (hne : code ≠ []) (heven : code.length % 2 = 0) (hle : r.length + code.length / 2 ≤ c.bytes) :
    (append r code).IsPacked c where
  codes_ne_nil := List.append_ne_nil_of_right_ne_nil _ (List.cons_ne_nil _ _)
  whole piece hpiece := by
    rcases List.mem_append.mp hpiece with hpiece | hpiece
    · exact h.whole piece hpiece
    · rw [List.mem_singleton.mp hpiece]
      exact ⟨hne, heven⟩
  length_le := by
    rw [length_append]
    exact hle

/-! ## Filling new records -/

theorem fill_nil (c : Capacity) (a : Int) : fill c a [] = [] := by rw [fill, dif_pos rfl]

theorem fill_of_ne_nil {code : Text} (h : code ≠ []) (c : Capacity) (a : Int) :
    fill c a code = ⟨a, [code.take (2 * c.bytes)]⟩ ::
      fill c (offset a c.bytes) (code.drop (2 * c.bytes)) := by
  rw [fill, dif_neg h]

/-- The first piece of a code that fills a record, or is all there is. -/
theorem take_whole {code : Text} (hne : code ≠ []) (heven : code.length % 2 = 0) {n : Nat}
    (hn : 0 < n) : code.take (2 * n) ≠ [] ∧ (code.take (2 * n)).length % 2 = 0 ∧
      (code.take (2 * n)).length / 2 ≤ n := by
  have hpos := List.length_pos_iff.mpr hne
  have hlength : (code.take (2 * n)).length = min (2 * n) code.length := List.length_take
  refine ⟨List.ne_nil_of_length_pos ?_, ?_, ?_⟩ <;> omega

theorem isPacked_of_mem_fill {c : Capacity} {a : Int} {code : Text}
    (heven : code.length % 2 = 0) : ∀ r ∈ fill c a code, r.IsPacked c := by
  fun_induction fill c a code with
  | case1 => simp
  | case2 a code hne ih =>
    obtain ⟨htake, hwhole, hle⟩ := take_whole hne heven c.pos
    intro r hr
    rcases List.mem_cons.mp hr with rfl | hr
    · refine ⟨List.cons_ne_nil _ _, fun piece hpiece => ?_, ?_⟩
      · rw [List.mem_singleton.mp hpiece]
        exact ⟨htake, hwhole⟩
      · rw [length_cons]
        exact hle
    · refine ih ?_ r hr
      rw [List.length_drop]
      omega

theorem codes_fill (c : Capacity) (a : Int) (code : Text) :
    (fill c a code).flatMap (fun r => r.codes.flatten) = code := by
  fun_induction fill c a code with
  | case1 => rfl
  | case2 a code hne ih =>
    rw [List.flatMap_cons, ih, List.flatten_singleton, List.take_append_drop]

/-- A cut at a whole byte cuts the cells in two. -/
theorem spread_digitPairs_cut (a : Int) {code : Text} (heven : code.length % 2 = 0) (n : Nat) :
    spread a (digitPairs code) = spread a (digitPairs (code.take (2 * n))) ++
      spread (offset a n) (digitPairs (code.drop (2 * n))) := by
  have hlength : (code.take (2 * n)).length = min (2 * n) code.length := List.length_take
  have hwhole : (code.take (2 * n)).length % 2 = 0 := by omega
  have hpairs : (digitPairs (code.take (2 * n))).length = min n (code.length / 2) := by
    rw [length_digitPairs]
    omega
  have hcut : spread a (digitPairs code) = spread a (digitPairs (code.take (2 * n))) ++
      spread (offset a (min n (code.length / 2) : Nat)) (digitPairs (code.drop (2 * n))) := by
    rw [← hpairs, ← spread_append, ← digitPairs_append hwhole, List.take_append_drop]
  rw [hcut]
  rcases Nat.le_total n (code.length / 2) with hn | hn
  · rw [Nat.min_eq_left hn]
  · -- All of the code lies before the cut, and there is nothing behind it to place.
    have hdrop : code.drop (2 * n) = [] := List.drop_eq_nil_of_le (by omega)
    rw [hdrop]
    rfl

theorem cells_fill (c : Capacity) (a : Int) {code : Text} (heven : code.length % 2 = 0) :
    (fill c a code).flatMap cells = spread a (digitPairs code) := by
  fun_induction fill c a code with
  | case1 => rfl
  | case2 a code hne ih =>
    have hdrop : (code.drop (2 * c.bytes)).length % 2 = 0 := by
      rw [List.length_drop]
      omega
    rw [List.flatMap_cons, ih hdrop, spread_digitPairs_cut a heven c.bytes, cells,
      List.flatten_singleton]

theorem start_of_mem_fill {P : Int → Prop} (hoff : ∀ a n, P a → P (offset a n)) {c : Capacity}
    {a : Int} {code : Text} (ha : P a) : ∀ r ∈ fill c a code, P r.start := by
  fun_induction fill c a code with
  | case1 => simp
  | case2 a code hne ih =>
    intro r hr
    rcases List.mem_cons.mp hr with rfl | hr
    · exact ha
    · exact ih (hoff a c.bytes ha) r hr

/-! ## Pouring into the open record -/

section Pour

variable {c : Capacity} {r : TextRecord} {a : Int} {code : Text}

theorem pour_of_full (h : c.bytes - r.length = 0) : pour c r a code = r :: fill c a code := by
  simp only [pour]
  exact if_pos h

theorem pour_of_room {room : Nat} (hroom : c.bytes - r.length = room) (h : room ≠ 0) :
    pour c r a code = append r (code.take (2 * room)) ::
      fill c (offset a room) (code.drop (2 * room)) := by
  subst hroom
  simp only [pour]
  exact if_neg h

theorem isPacked_of_mem_pour (hr : r.IsPacked c) (hne : code ≠ []) (heven : code.length % 2 = 0) :
    ∀ x ∈ pour c r a code, x.IsPacked c := by
  intro x hx
  by_cases hfull : c.bytes - r.length = 0
  · rw [pour_of_full hfull] at hx
    rcases List.mem_cons.mp hx with rfl | hx
    · exact hr
    · exact isPacked_of_mem_fill heven x hx
  · rw [pour_of_room rfl hfull] at hx
    obtain ⟨htake, hwhole, hle⟩ := take_whole hne heven (Nat.pos_of_ne_zero hfull)
    rcases List.mem_cons.mp hx with rfl | hx
    · exact isPacked_append hr htake hwhole (by omega)
    · refine isPacked_of_mem_fill ?_ x hx
      rw [List.length_drop]
      omega

theorem start_of_mem_pour {P : Int → Prop} (hoff : ∀ a n, P a → P (offset a n)) (hr : P r.start)
    (ha : P a) : ∀ x ∈ pour c r a code, P x.start := by
  intro x hx
  by_cases hfull : c.bytes - r.length = 0
  · rw [pour_of_full hfull] at hx
    rcases List.mem_cons.mp hx with rfl | hx
    · exact hr
    · exact start_of_mem_fill hoff ha x hx
  · rw [pour_of_room rfl hfull] at hx
    rcases List.mem_cons.mp hx with rfl | hx
    · exact hr
    · exact start_of_mem_fill hoff (hoff a _ ha) x hx

theorem codes_pour :
    (pour c r a code).flatMap (fun r => r.codes.flatten) = r.codes.flatten ++ code := by
  by_cases hfull : c.bytes - r.length = 0
  · rw [pour_of_full hfull, List.flatMap_cons, codes_fill]
  · rw [pour_of_room rfl hfull, List.flatMap_cons, codes_fill, flatten_append, List.append_assoc,
      List.take_append_drop]

/-- Code poured into a record goes to its address, if that is where the record ends. -/
theorem cells_pour (hr : r.IsPacked c) (heven : code.length % 2 = 0)
    (ha : offset r.start r.length = a) :
    (pour c r a code).flatMap cells = r.cells ++ spread a (digitPairs code) := by
  by_cases hfull : c.bytes - r.length = 0
  · rw [pour_of_full hfull, List.flatMap_cons, cells_fill c a heven]
  · have hdrop : (code.drop (2 * (c.bytes - r.length))).length % 2 = 0 := by
      rw [List.length_drop]
      omega
    rw [pour_of_room rfl hfull, List.flatMap_cons, cells_append hr, cells_fill c _ hdrop, ha,
      List.append_assoc, ← spread_digitPairs_cut a heven]

end Pour

/-! ## Packing a line -/

/-- The record that is open, if there is one. -/
def openRecords (o : Option Open) : List TextRecord := o.toList.map Open.record

/-- What is open was made by packing. -/
def OpenPacked (c : Capacity) (o : Option Open) : Prop := ∀ r ∈ openRecords o, r.IsPacked c

theorem openPacked_none (c : Capacity) : OpenPacked c none := by
  intro r hr
  cases hr

section PackLine

variable {p : Packing} {o : Option Open} {l : Listed}

/-- The three ways to pack a line. -/
theorem packLine_cases (p : Packing) (o : Option Open) (l : Listed) :
    (∃ x, o = some x ∧ p.continues x l = true ∧
      p.packLine o l = pour p.capacity x.record l.address (evenDigits l.code)) ∨
    p.packLine o l = openRecords o ++ fill p.capacity l.address (evenDigits l.code) := by
  cases o with
  | none => exact Or.inr rfl
  | some x =>
    by_cases hx : p.continues x l = true
    · exact Or.inl ⟨x, rfl, hx, if_pos hx⟩
    · exact Or.inr (if_neg hx)

theorem evenDigits_even (code : Text) : (evenDigits code).length % 2 = 0 := by
  rw [length_evenDigits]
  omega

theorem isPacked_of_mem_packLine (ho : OpenPacked p.capacity o) (hl : l.code ≠ []) :
    ∀ r ∈ p.packLine o l, r.IsPacked p.capacity := by
  intro r hr
  have hne : evenDigits l.code ≠ [] := mt evenDigits_eq_nil.mp hl
  obtain ⟨x, rfl, -, hpour⟩ | hfill := packLine_cases p o l
  · rw [hpour] at hr
    exact isPacked_of_mem_pour (ho _ List.mem_cons_self) hne (evenDigits_even _) r hr
  · rw [hfill] at hr
    rcases List.mem_append.mp hr with hr | hr
    · exact ho r hr
    · exact isPacked_of_mem_fill (evenDigits_even _) r hr

theorem start_of_mem_packLine {P : Int → Prop} (hoff : ∀ a n, P a → P (offset a n))
    (ho : ∀ r ∈ openRecords o, P r.start) (hl : P l.address) :
    ∀ r ∈ p.packLine o l, P r.start := by
  intro r hr
  obtain ⟨x, rfl, -, hpour⟩ | hfill := packLine_cases p o l
  · rw [hpour] at hr
    exact start_of_mem_pour hoff (ho _ List.mem_cons_self) hl r hr
  · rw [hfill] at hr
    rcases List.mem_append.mp hr with hr | hr
    · exact ho r hr
    · exact start_of_mem_fill hoff hl r hr

theorem codes_packLine (p : Packing) (o : Option Open) (l : Listed) :
    (p.packLine o l).flatMap (fun r => r.codes.flatten) =
      (openRecords o).flatMap (fun r => r.codes.flatten) ++ evenDigits l.code := by
  obtain ⟨x, rfl, -, hpour⟩ | hfill := packLine_cases p o l
  · rw [hpour, codes_pour]
    exact congrArg (· ++ evenDigits l.code) (List.append_nil _).symm
  · rw [hfill, List.flatMap_append, codes_fill]

/-- Breaking at gaps, a line goes on only where the open record ends. -/
theorem offset_of_continues {x : Open} (hp : p.breakAtGaps = true) (h : p.continues x l = true) :
    offset x.record.start x.record.length = l.address := by
  simp only [continues, hp, Bool.true_and] at h
  split at h
  · cases h
  · rename_i hgap
    simp only [Bool.or_eq_true, decide_eq_true_eq, not_or, Decidable.not_not] at hgap
    exact hgap.2

theorem cells_packLine (hp : p.breakAtGaps = true) (ho : OpenPacked p.capacity o) :
    (p.packLine o l).flatMap cells = (openRecords o).flatMap cells ++ l.cells := by
  obtain ⟨x, rfl, hx, hpour⟩ | hfill := packLine_cases p o l
  · rw [hpour, cells_pour (ho _ List.mem_cons_self) (evenDigits_even _) (offset_of_continues hp hx)]
    exact congrArg (· ++ l.cells) (List.append_nil _).symm
  · rw [hfill, List.flatMap_append, cells_fill _ _ (evenDigits_even _)]
    rfl

end PackLine

/-! ## Packing a listing -/

section Pack

variable {p : Packing} {o : Option Open} {lines : List Listed}

/-- The state in which packing a line leaves the last of its records open. -/
def opened (records : List TextRecord) (next : Int) : Option Open :=
  records.getLast?.map fun r => ⟨r, next⟩

theorem pack_cons_of_nil {l : Listed} (h : l.code = []) :
    p.pack o (l :: lines) = p.pack o lines := by
  rw [pack, h]
  rfl

theorem pack_cons_of_code {l : Listed} (h : l.code ≠ []) :
    p.pack o (l :: lines) = (p.packLine o l).dropLast ++
      p.pack (opened (p.packLine o l) (offset l.address l.size)) lines := by
  rw [pack, if_neg (by simpa using h)]
  rfl

theorem dropLast_append_openRecords (records : List TextRecord) (next : Int) :
    records.dropLast ++ openRecords (opened records next) = records := by
  rcases List.eq_nil_or_concat records with rfl | ⟨init, last, rfl⟩
  · rfl
  · simp [openRecords, opened]

theorem mem_of_mem_openRecords {records : List TextRecord} {next : Int} {r : TextRecord}
    (h : r ∈ openRecords (opened records next)) : r ∈ records := by
  rw [← dropLast_append_openRecords records next]
  exact List.mem_append_right _ h

theorem openPacked_opened {c : Capacity} {records : List TextRecord}
    (h : ∀ r ∈ records, r.IsPacked c) (next : Int) : OpenPacked c (opened records next) :=
  fun r hr => h r (mem_of_mem_openRecords hr)

/-- What holds of the records that each line leads to holds of all of them. -/
theorem forall_mem_pack {Q : TextRecord → Prop}
    (hstep : ∀ (o : Option Open) (l : Listed), l ∈ lines → l.code ≠ [] →
      (∀ r ∈ openRecords o, Q r) → ∀ r ∈ p.packLine o l, Q r)
    (ho : ∀ r ∈ openRecords o, Q r) : ∀ r ∈ p.pack o lines, Q r := by
  induction lines generalizing o with
  | nil => exact ho
  | cons l lines ih =>
    have hrest := fun o' l' hl' => hstep o' l' (List.mem_cons_of_mem _ hl')
    by_cases hl : l.code = []
    · rw [pack_cons_of_nil hl]
      exact ih hrest ho
    · have hline := hstep o l List.mem_cons_self hl ho
      intro r hr
      rw [pack_cons_of_code hl] at hr
      rcases List.mem_append.mp hr with hr | hr
      · exact hline r (List.dropLast_subset _ hr)
      · exact ih hrest (fun x hx => hline x (mem_of_mem_openRecords hx)) r hr

/-- **Every record is packed.** -/
theorem isPacked_of_mem_pack (p : Packing) (lines : List Listed) :
    ∀ r ∈ p.pack none lines, r.IsPacked p.capacity :=
  forall_mem_pack (fun _ _ _ hl ho => isPacked_of_mem_packLine ho hl) (openPacked_none p.capacity)

/-- Every record starts at the address of a line or behind it. -/
theorem start_of_mem_pack {P : Int → Prop} (hoff : ∀ a n, P a → P (offset a n))
    (hlines : ∀ l ∈ lines, P l.address) : ∀ r ∈ p.pack none lines, P r.start :=
  forall_mem_pack (fun _ l hl _ ho => start_of_mem_packLine hoff ho (hlines l hl))
    (fun _ hr => absurd hr List.not_mem_nil)

theorem inRange_of_mem_pack (hlines : ∀ l ∈ lines, InRange l.address) :
    ∀ r ∈ p.pack none lines, InRange r.start :=
  start_of_mem_pack (fun a n _ => inRange_offset a n) hlines

/-- **What is collected from each line's records is collected from all of them.** -/
theorem flatMap_pack {α : Type} {ofRecord : TextRecord → List α} {ofLine : Listed → List α}
    (hnil : ∀ l : Listed, l.code = [] → ofLine l = [])
    (hstep : ∀ (o : Option Open) (l : Listed), OpenPacked p.capacity o →
      (p.packLine o l).flatMap ofRecord = (openRecords o).flatMap ofRecord ++ ofLine l)
    (ho : OpenPacked p.capacity o) :
    (p.pack o lines).flatMap ofRecord =
      (openRecords o).flatMap ofRecord ++ lines.flatMap ofLine := by
  induction lines generalizing o with
  | nil => exact (List.append_nil _).symm
  | cons l lines ih =>
    by_cases hl : l.code = []
    · rw [pack_cons_of_nil hl, ih ho, List.flatMap_cons, hnil l hl, List.nil_append]
    · have hline := isPacked_of_mem_packLine ho hl
      rw [pack_cons_of_code hl, List.flatMap_append, ih (openPacked_opened hline _),
        ← List.append_assoc, ← List.flatMap_append, dropLast_append_openRecords, hstep o l ho,
        List.append_assoc, List.flatMap_cons]

/-- **Packing keeps the digits of the lines, in order.** -/
theorem codes_pack (p : Packing) (lines : List Listed) :
    (p.pack none lines).flatMap (fun r => r.codes.flatten) =
      lines.flatMap fun l => evenDigits l.code :=
  flatMap_pack (fun _ hl => evenDigits_eq_nil.mpr hl) (fun o l _ => codes_packLine p o l)
    (openPacked_none p.capacity)

/-- **Packing that breaks at gaps keeps the cells of the lines, in order.** -/
theorem cells_pack (hp : p.breakAtGaps = true) (lines : List Listed) :
    (p.pack none lines).flatMap cells = lines.flatMap Listed.cells :=
  flatMap_pack (fun _ hl => Listed.cells_of_code_nil hl) (fun _ _ ho => cells_packLine hp ho)
    (openPacked_none p.capacity)

end Pack

end Packing

/-! ## Emitters -/

namespace Emitter

theorem emit_object (packing : Packing) (program : Program) (lines : List Listed) :
    (object packing).emit program lines =
      .header program.name program.start program.length ::
        (packing.pack none lines).map .text ++ [.entry program.start] :=
  rfl

theorem emit_dump (program : Program) (lines : List Listed) :
    dump.emit program lines =
      lines.filterMap fun l => if l.code.isEmpty then none else some (.dump l.address l.code) :=
  rfl

end Emitter

end Sic
