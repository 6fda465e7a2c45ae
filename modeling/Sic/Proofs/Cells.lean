import Sic.Packing
import Sic.Proofs.Text.Blank

/-!
# Cells

Object code is a matter of which byte goes where.  A *cell* is a pair of digits with the address of
the byte they write, and the cells of a line, of a record or of a whole program say what it puts
into memory without saying how the code is cut into pieces.

* `Address.spread` puts values at consecutive addresses; `Address.spread_append` is the one law by
  which pieces of code are joined.
* `Listed.cells`, `TextRecord.cells` and `Record.cells` are the cells of a line of a listing, of a
  text record and of any record.

Addresses wrap around (`Address.offset`), and so do the addresses of cells.
-/

set_option autoImplicit false

namespace Sic

/-! ## Addresses in a row -/

namespace Address

theorem offset_offset (a m n : Int) : offset (offset a m) n = offset a (m + n) := by
  rw [offset, offset, offset, Int.bmod_add_bmod, Int.add_assoc]

/-- The numbers that are addresses. -/
def InRange (a : Int) : Prop := -9223372036854775808 ≤ a ∧ a < 9223372036854775808

theorem inRange_offset (a n : Int) : InRange (offset a n) := by
  have hlow := Int.le_bmod (x := a + n) (m := count) (by decide)
  have hhigh := Int.bmod_lt (x := a + n) (m := count) (by decide)
  rw [offset]
  exact ⟨by simpa [count] using hlow, by simpa [count] using hhigh⟩

/-- In the range of addresses, an offset is a sum. -/
theorem offset_eq_add {a n : Int} (h : InRange (a + n)) : offset a n = a + n := by
  rw [offset]
  exact Int.bmod_eq_of_le (by simpa [count] using h.1) (by simpa [count] using h.2)

/-- An offset from an address that is not negative, by less than all addresses, is not negative only
if it is the sum. -/
theorem offset_of_nonneg {a n : Int} (ha : 0 ≤ a) (hr : InRange a) (hn : 0 ≤ n)
    (hlt : n < 9223372036854775808) (h : 0 ≤ offset a n) : offset a n = a + n := by
  have ha' := hr.2
  simp only [offset, count, Int.bmod] at h ⊢
  omega

/-- Values at an address and the addresses behind it. -/
def spread {α : Type} (a : Int) (xs : List α) : List (Int × α) :=
  xs.zipIdx.map fun e => (offset a e.2, e.1)

@[simp] theorem spread_nil {α : Type} (a : Int) : spread a ([] : List α) = [] := rfl

theorem spread_append {α : Type} (a : Int) (xs ys : List α) :
    spread a (xs ++ ys) = spread a xs ++ spread (offset a xs.length) ys := by
  rw [spread, List.zipIdx_append, List.map_append, Nat.zero_add,
    List.zipIdx_eq_map_add (l := ys), List.map_map]
  refine congrArg (spread a xs ++ ·) (List.map_congr_left fun e _ => ?_)
  rw [offset_offset, Function.comp_apply, Int.natCast_add]

theorem mem_spread {α : Type} {a x : Int} {xs : List α} {v : α} :
    (x, v) ∈ spread a xs ↔ ∃ k : Nat, xs[k]? = some v ∧ x = offset a k := by
  rw [spread, List.mem_map]
  constructor
  · rintro ⟨e, he, hx⟩
    cases hx
    exact ⟨e.2, List.mem_zipIdx_iff_getElem?.mp he, rfl⟩
  · rintro ⟨k, hk, rfl⟩
    exact ⟨(v, k), List.mem_zipIdx_iff_getElem?.mpr hk, rfl⟩

section NoWrap

variable {α : Type} {a : Int} {xs : List α} (h : ∀ k < xs.length, offset a k = a + k)

include h

/-- Values whose addresses do not wrap around. -/
theorem mem_spread_add {x : Int} {v : α} :
    (x, v) ∈ spread a xs ↔ ∃ k : Nat, xs[k]? = some v ∧ x = a + k := by
  rw [mem_spread]
  refine exists_congr fun k => and_congr_right fun hk => ?_
  rw [h k (List.getElem?_eq_some_iff.mp hk).1]

theorem pairwise_spread : (spread a xs).Pairwise fun x y => x.1 < y.1 := by
  rw [spread, List.pairwise_map]
  refine (Text.pairwise_zipIdx xs 0).imp_of_mem fun {x y} hx hy hlt => ?_
  rw [h x.2 (List.snd_lt_of_mem_zipIdx hx), h y.2 (List.snd_lt_of_mem_zipIdx hy)]
  omega

end NoWrap

theorem map_spread {α β : Type} (f : α → β) (a : Int) (xs : List α) :
    (spread a xs).map (fun e => (e.1, f e.2)) = spread a (xs.map f) := by
  rw [spread, spread, List.zipIdx_map, List.map_map, List.map_map]
  rfl

end Address

/-! ## Pairs of digits -/

namespace Text

/-- The digits of a code, two by two. -/
def digitPairs : Text → List (UInt8 × UInt8)
  | [] => []
  | [_] => []
  | a :: b :: t => (a, b) :: digitPairs t

theorem length_digitPairs (t : Text) : (digitPairs t).length = t.length / 2 := by
  fun_induction digitPairs t with
  | case1 => rfl
  | case2 => simp
  | case3 a b t ih => simp only [List.length_cons, ih]; omega

theorem digitPairs_append {s : Text} (h : s.length % 2 = 0) (t : Text) :
    digitPairs (s ++ t) = digitPairs s ++ digitPairs t := by
  fun_induction digitPairs s with
  | case1 => rfl
  | case2 => simp at h
  | case3 a b s ih =>
    rw [List.length_cons, List.length_cons] at h
    rw [List.cons_append, List.cons_append, digitPairs, ih (by omega), List.cons_append]

/-- The bytes that pairs of digits write. -/
theorem pairs_eq_map_digitPairs (t : Text) :
    pairs t = (digitPairs t).map fun e => byteOfPair e.1 e.2 := by
  fun_induction digitPairs t with
  | case1 => rfl
  | case2 => rfl
  | case3 a b t ih => rw [pairs, ih, List.map_cons]

theorem length_pairs (t : Text) : (pairs t).length = t.length / 2 := by
  rw [pairs_eq_map_digitPairs, List.length_map, length_digitPairs]

/-- The digits of whole bytes are those of their pairs. -/
theorem mem_iff_mem_digitPairs {t : Text} (h : t.length % 2 = 0) (d : UInt8) :
    d ∈ t ↔ ∃ e ∈ digitPairs t, d = e.1 ∨ d = e.2 := by
  fun_induction digitPairs t with
  | case1 => simp
  | case2 => simp at h
  | case3 a b t ih =>
    rw [List.length_cons, List.length_cons] at h
    rw [List.mem_cons, List.mem_cons, ih (by omega)]
    simp only [List.mem_cons, exists_eq_or_imp, or_assoc]

end Text

theorem length_evenDigits (code : Text) :
    (evenDigits code).length = 2 * ((code.length + 1) / 2) := by
  rw [evenDigits]
  split
  · omega
  · rw [List.length_cons]
    omega

theorem evenDigits_eq_nil {code : Text} : evenDigits code = [] ↔ code = [] := by
  rw [evenDigits]
  split
  · rfl
  · rename_i h
    exact ⟨fun h' => absurd h' (List.cons_ne_nil _ _), fun h' => absurd (h' ▸ rfl) h⟩

/-! ## The cells of lines and records -/

/-- A pair of digits with the address of the byte it writes. -/
abbrev Cell := Int × UInt8 × UInt8

/-- The cells of a line: its code, in whole bytes, from its address on. -/
def Listed.cells (l : Listed) : List Cell :=
  Address.spread l.address (Text.digitPairs (evenDigits l.code))

/-- The cells of a text record: its pieces of code one behind the other, from its start on. -/
def TextRecord.cells (r : TextRecord) : List Cell :=
  Address.spread r.start (Text.digitPairs r.codes.flatten)

/-- The cells of a record.  Header and end records have none. -/
def Record.cells : Record → List Cell
  | .header .. => []
  | .text r => r.cells
  | .entry _ => []
  | .dump address code => Address.spread address (Text.digitPairs code)

theorem Listed.cells_of_code_nil {l : Listed} (h : l.code = []) : l.cells = [] := by
  rw [cells, evenDigits_eq_nil.mpr h]
  rfl

end Sic
