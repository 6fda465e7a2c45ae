import Mathlib.Data.List.Chain
import Mathlib.Data.List.TakeWhile
import Sic.Proofs.Layout.Wrapping
import Sic.Proofs.Symbols

/-!
# The storage of a program

What a layout gives to the statements of a source program, in terms of the statements, their
addresses and their sizes.

* `Consecutive.isChain` and `Consecutive.eq_add_sum`: in a row of statements each stands where the
  one before it ends, and the row reaches as far as all sizes together.
* `lookup_eq_some_iff` and `exists_lookup_iff`: the symbols are the labels behind the `START`.
* `ofSource_storage` is the whole of it, for every source program that can be laid out, with
  integers or, if it is short, in registers.
-/

set_option autoImplicit false

namespace Sic

/-! ## Statements in a row -/

namespace Consecutive

variable {a b : Int} {ps : List Placed}

theorem isChain (h : Consecutive a ps b) :
    ps.IsChain fun p q => q.address = p.address + p.size := by
  induction ps generalizing a with
  | nil => exact List.isChain_nil
  | cons p ps ih =>
    obtain ⟨rfl, -, hrest⟩ := h
    refine List.isChain_cons.mpr ⟨fun q hq => ?_, ih hrest⟩
    obtain ⟨qs, rfl⟩ := List.head?_eq_some_iff.mp hq
    exact hrest.1

theorem eq_add_sum (h : Consecutive a ps b) : b = a + (ps.map Placed.size).sum := by
  induction ps generalizing a with
  | nil => simpa using h.symm
  | cons p ps ih =>
    have hrest := ih h.2.2
    rw [List.map_cons, List.sum_cons]
    omega

end Consecutive

/-! ## Symbols and labels -/

namespace Layout

variable {unique : Bool} {table : OpcodeTable} {source : Text} {l : Layout}

/-- **What a symbol stands for**: the last statement behind the `START` that has it as its label. -/
theorem lookup_eq_some_iff (h : ofSource unique table source = .ok l) {symbol : Text} {x : Int} :
    l.symbols.lookup symbol = some x ↔
      symbol ≠ Statement.absent ∧ ∃ before p behind, l.placed.tail = before ++ p :: behind ∧
        p.label = symbol ∧ p.address = x ∧ ∀ q ∈ behind, q.label ≠ symbol := by
  rw [lookup_ofSource h, Option.map_eq_some_iff]
  constructor
  · rintro ⟨p, hp, rfl⟩
    obtain ⟨hne, hlabel, before, behind, htail, hlast⟩ := definition?_eq_some_iff.mp hp
    exact ⟨hne, before, p, behind, htail, hlabel, rfl, hlast⟩
  · rintro ⟨hne, before, p, behind, htail, hlabel, rfl, hlast⟩
    exact ⟨p, definition?_eq_some_iff.mpr ⟨hne, hlabel, before, behind, htail, hlast⟩, rfl⟩

/-- The symbols are the labels behind the `START`. -/
theorem exists_lookup_iff (h : ofSource unique table source = .ok l) {symbol : Text} :
    (∃ x, l.symbols.lookup symbol = some x) ↔
      symbol ≠ Statement.absent ∧ ∃ p ∈ l.placed.tail, p.label = symbol := by
  constructor
  · rintro ⟨x, hx⟩
    obtain ⟨hne, before, p, behind, htail, hlabel, -⟩ := (lookup_eq_some_iff h).mp hx
    exact ⟨hne, p, by simp [htail], hlabel⟩
  · rintro ⟨hne, hlabel⟩
    obtain ⟨before, p, behind, -, -, -, hx⟩ := exists_last_label h hne hlabel
    exact ⟨p.address, hx⟩

/-- Without a `START` there is nothing to lay out. -/
theorem ofSource_of_no_start (h : ∀ s ∈ Statement.ofSource source, s.isStart = false) :
    ofSource unique table source = .ok empty := by
  have hbody : body source = [] := List.dropWhile_eq_nil_iff.mpr fun s hs => by simp [h s hs]
  rw [ofSource, hbody, ofStatements]

/-- **The layout of a source program.**  Without a `START` it is empty.  Otherwise there is a placed
statement for each from the first `START` on, in order and so on growing lines.  The first stands at
the start of the program, a number of at most 31 bits, and takes no storage; each other stands where
the one before it ends.  No size is negative, and all together are the length.  The symbols are the
labels behind the first statement, each at the address of the last statement that has it, within the
program.

All that holds of the layout in 64-bit registers too, if the source program has fewer than 2^29
bytes. -/
theorem ofSource_storage {unique : Bool} {table : OpcodeTable} {source : Text} {l : Layout}
    (h : ofSource unique table source = .ok l ∨
      source.length < 2 ^ 29 ∧ Wrapping.ofSource unique table source = .ok l) :
    ((∀ s ∈ Statement.ofSource source, s.isStart = false) → l = empty) ∧
    (∀ before s behind, Statement.ofSource source = before ++ s :: behind →
      (∀ t ∈ before, t.isStart = false) → s.isStart = true →
      l.placed.map Placed.toStatement = s :: behind ∧
      (l.placed.Pairwise fun p q => p.line < q.line) ∧
      l.program.name = s.label ∧ s.startAddress = .ok l.program.start ∧
      0 ≤ l.program.start ∧ l.program.start < 2147483648 ∧
      (∀ p ∈ l.placed, 0 ≤ p.size) ∧ l.program.length = (l.placed.map Placed.size).sum ∧
      ∃ first rest, l.placed = first :: rest ∧ first.address = l.program.start ∧ first.size = 0 ∧
        (∀ ps p q qs, l.placed = ps ++ p :: q :: qs → q.address = p.address + p.size) ∧
        ∀ symbol,
          ((∃ x, l.symbols.lookup symbol = some x) ↔
            symbol ≠ Statement.absent ∧ ∃ p ∈ rest, p.label = symbol) ∧
          ∀ x, l.symbols.lookup symbol = some x →
            l.program.start ≤ x ∧ x ≤ l.program.start + l.program.length ∧
            ∃ ps p qs, rest = ps ++ p :: qs ∧ p.label = symbol ∧ p.address = x ∧
              ∀ q ∈ qs, q.label ≠ symbol) := by
  replace h : ofSource unique table source = .ok l := by
    rcases h with h | ⟨hsource, h⟩
    · exact h
    · exact (wrapping_ofSource hsource).symm.trans h
  refine ⟨fun hnone => ?_, fun before s behind hsource hbefore hs => ?_⟩
  · rw [ofSource_of_no_start hnone] at h
    exact (Except.ok.inj h).symm
  have hl := isLaidOut_ofSource h
  have hbody := body_of_ofSource hsource hbefore hs
  have hstatements := h
  rw [ofSource, hbody] at hstatements
  obtain ⟨start, run, hstart, -, rfl⟩ := ofStatements_cons_eq_ok_iff.mp hstatements
  have hsum := hl.consecutive.eq_add_sum
  refine ⟨(map_toStatement_ofSource h).trans hbody, pairwise_line h, rfl, hstart, hl.start_nonneg,
    hl.start_lt, fun p hp => (hl.consecutive.bounds hp).2.1, by omega, _, _, rfl, rfl, rfl,
    fun ps p q qs hsplit => ?_, fun symbol => ⟨exists_lookup_iff h, fun x hx => ?_⟩⟩
  · exact List.isChain_iff_forall_rel_of_append_cons_cons.mp hl.consecutive.isChain hsplit
  · obtain ⟨hlow, hhigh⟩ := hl.symbol_bounds hx
    exact ⟨hlow, hhigh, ((lookup_eq_some_iff h).mp hx).2⟩

/-- A statement before the `START`, a label defined again, and a second `START`, which takes no
storage, laid out in registers. -/
theorem ofSource_storage_again :
    ∃ l, ofSource false (.parse "LDA 00") "- LDA X\nP START 10\nA LDA B\n\nA RESW 2\n- START 5\n" =
        .ok l ∧
      Wrapping.ofSource false (.parse "LDA 00")
        "- LDA X\nP START 10\nA LDA B\n\nA RESW 2\n- START 5\n" = .ok l ∧
      l.placed = [⟨⟨2, "P", "START", "10"⟩, 0x10, 0⟩, ⟨⟨3, "A", "LDA", "B"⟩, 0x10, 3⟩,
        ⟨⟨5, "A", "RESW", "2"⟩, 0x13, 6⟩, ⟨⟨6, "-", "START", "5"⟩, 0x19, 0⟩] ∧
      l.program.length = (l.placed.map Placed.size).sum ∧ l.symbols.lookup "A" = some 0x13 ∧
      l.program.start ≤ 0x13 ∧ 0x13 ≤ l.program.start + l.program.length ∧
      ¬ ∃ x, l.symbols.lookup "P" = some x := by
  have hshort : List.length ("- LDA X\nP START 10\nA LDA B\n\nA RESW 2\n- START 5\n" : Text) <
      2 ^ 29 := by
    decide +kernel
  have hrun : (Wrapping.ofSource false (.parse "LDA 00")
      "- LDA X\nP START 10\nA LDA B\n\nA RESW 2\n- START 5\n").toOption.map
        (fun l => (l.placed, l.symbols.lookup "A")) =
      some ([⟨⟨2, "P", "START", "10"⟩, 0x10, 0⟩, ⟨⟨3, "A", "LDA", "B"⟩, 0x10, 3⟩,
        ⟨⟨5, "A", "RESW", "2"⟩, 0x13, 6⟩, ⟨⟨6, "-", "START", "5"⟩, 0x19, 0⟩], some 0x13) := by
    decide +kernel
  obtain ⟨l, hl, hresult⟩ := exists_ok_of_toOption hrun
  obtain ⟨hplaced, hlookup⟩ := Prod.mk.inj hresult
  obtain ⟨-, -, -, -, -, -, -, hlength, first, rest, hfirst, -, -, -, hsymbols⟩ :=
    (ofSource_storage (Or.inr ⟨hshort, hl⟩)).2 [⟨1, "-", "LDA", "X"⟩] ⟨2, "P", "START", "10"⟩
      [⟨3, "A", "LDA", "B"⟩, ⟨5, "A", "RESW", "2"⟩, ⟨6, "-", "START", "5"⟩] (by decide +kernel)
      (by decide +kernel) (by decide +kernel)
  obtain ⟨rfl, rfl⟩ := List.cons.inj (hplaced.symm.trans hfirst)
  obtain ⟨hlow, hhigh, -⟩ := (hsymbols "A").2 _ hlookup
  refine ⟨l, (wrapping_ofSource hshort).symm.trans hl, hl, hplaced, hlength, hlookup, hlow, hhigh,
    fun hlabel => ?_⟩
  exact absurd ((hsymbols "P").1.mp hlabel).2 (by decide +kernel)

end Layout

end Sic
