import Sic.Proofs.Layout.Steps

/-!
# The first error decides

A source program that cannot be laid out has a first line that is to blame.  The lines before it can
be laid out, and nothing that might stand behind it makes a difference.

* `exists_first_error` finds the line: the pass over the statements has come to the one on that
  line, with a layout of the lines before it, and cannot add it.
* `exists_ofSource_firstLines` is the other case: if all lines can be laid out, so can the first
  few, and what they give is what all of them give for these lines.
* `exists_only_definition`: where a label is defined for the second time, it was defined once, and
  no label before it was defined twice.
-/

set_option autoImplicit false

namespace Sic

open Text

/-! ## Statements up to a line -/

theorem filter_append_of_forall {α : Type} {p : α → Bool} {xs ys : List α}
    (hxs : ∀ x ∈ xs, p x = true) (hys : ∀ y ∈ ys, ¬ p y = true) : (xs ++ ys).filter p = xs := by
  rw [List.filter_append, List.filter_eq_self.mpr hxs, List.filter_eq_nil_iff.mpr hys,
    List.append_nil]

namespace Statement

theorem ofSource_firstLines (k : Nat) (source : Text) :
    ofSource (source.firstLines k) = (ofSource source).filter fun s => s.line ≤ (k : Int) := by
  obtain ⟨behind, hsplit, hfirst, hbehind⟩ := exists_ofSource_eq_append k source
  rw [hsplit, filter_append_of_forall]
  · simpa using hfirst
  · simpa using hbehind

/-- The statements up to a line are those up to the statement on that line. -/
theorem ofSource_firstLines_of_eq_append {source : Text} {before behind : List Statement}
    {s : Statement} {n : Nat} (h : ofSource source = before ++ s :: behind) (hn : s.line = n)
    (hpos : 1 ≤ n) :
    ofSource (source.firstLines (n - 1)) = before ∧
      ofSource (source.firstLines n) = before ++ [s] := by
  have hlines := Layout.pairwise_line_ofSource source
  rw [h, List.pairwise_append, List.pairwise_cons] at hlines
  obtain ⟨-, ⟨hbehind, -⟩, hbefore⟩ := hlines
  constructor
  · rw [ofSource_firstLines, h, filter_append_of_forall]
    · intro t ht
      have hlt := hbefore t ht s List.mem_cons_self
      exact decide_eq_true (by omega)
    · intro t ht
      rcases List.mem_cons.mp ht with rfl | ht
      · exact mt of_decide_eq_true (by omega)
      · have hlt := hbehind t ht
        exact mt of_decide_eq_true (by omega)
  · rw [ofSource_firstLines, h, List.append_cons, filter_append_of_forall]
    · intro t ht
      rcases List.mem_append.mp ht with ht | ht
      · have hlt := hbefore t ht s List.mem_cons_self
        exact decide_eq_true (by omega)
      · rw [List.mem_singleton.mp ht]
        exact decide_eq_true (by omega)
    · intro t ht
      have hlt := hbehind t ht
      exact mt of_decide_eq_true (by omega)

end Statement

namespace Layout

variable {unique : Bool} {table : OpcodeTable} {source : Text}

/-! ## The first error -/

/-- **The line that is to blame for an error.** -/
theorem exists_first_error {e : ProgramError} (h : ofSource unique table source = .error e) :
    ∃ (n : Nat) (before behind : List Statement) (s : Statement) (l : Layout),
      Statement.ofSource source = before ++ s :: behind ∧ s.line = n ∧ 1 ≤ n ∧
      n ≤ source.lines.length ∧ ofSource unique table (source.firstLines (n - 1)) = .ok l ∧
      add unique table l s = .error e := by
  rw [ofSource_eq_foldlM] at h
  obtain ⟨before, s, behind, l, hsplit, hbefore, hs⟩ := exists_foldlM_of_error h
  have hmem : s ∈ Statement.ofSource source := by simp [hsplit]
  obtain ⟨hlow, hhigh⟩ := Statement.line_bounds_of_mem_ofLines hmem
  obtain ⟨n, hn⟩ := Int.eq_ofNat_of_zero_le (a := s.line) (by omega)
  have hfirst := (Statement.ofSource_firstLines_of_eq_append hsplit hn (by omega)).1
  refine ⟨n, before, behind, s, l, hsplit, hn, by omega, by omega, ?_, hs⟩
  rw [ofSource_eq_foldlM, hfirst, hbefore]

/-- What stands behind a line with an error makes no difference. -/
theorem ofSource_append_of_error {before behind : List Statement} {s : Statement} {l : Layout}
    {n : Nat} {e : ProgramError} (hsplit : Statement.ofSource source = before ++ s :: behind)
    (hn : s.line = n) (hpos : 1 ≤ n)
    (hl : ofSource unique table (source.firstLines (n - 1)) = .ok l)
    (hs : add unique table l s = .error e) (rest : Text) :
    ofSource unique table (source.firstLines n ++ "\n" ++ rest) = .error e := by
  obtain ⟨hbefore, hfirst⟩ := Statement.ofSource_firstLines_of_eq_append hsplit hn hpos
  obtain ⟨more, hmore⟩ := Statement.exists_ofSource_append hpos source rest
  rw [ofSource_eq_foldlM, hbefore] at hl
  rw [ofSource_eq_foldlM, hmore, hfirst, List.append_assoc, foldlM_append_of_ok hl,
    List.singleton_append, List.foldlM_cons, hs]
  rfl

/-- **The first lines of a program that can be laid out** can be laid out alike. -/
theorem exists_ofSource_firstLines {l : Layout} (h : ofSource unique table source = .ok l)
    (k : Nat) :
    ∃ l', ofSource unique table (source.firstLines k) = .ok l' ∧
      l'.placed = l.placed.filter fun p => p.line ≤ (k : Int) := by
  obtain ⟨behind, hsplit, hfirst, hbehind⟩ := Statement.exists_ofSource_eq_append k source
  rw [ofSource_eq_foldlM, hsplit, List.foldlM_append] at h
  obtain ⟨l', hl', h⟩ := bind_eq_ok_iff.mp h
  obtain ⟨placed, hplaced, hmem⟩ := exists_placed_of_foldlM hl'
  obtain ⟨more, hmore, hmem'⟩ := exists_placed_of_foldlM h
  refine ⟨l', by rw [ofSource_eq_foldlM, hl'], ?_⟩
  rw [hmore, filter_append_of_forall]
  · intro p hp
    rw [hplaced] at hp
    simpa using hfirst _ (hmem p hp)
  · intro p hp
    simpa using hbehind _ (hmem' p hp)

/-! ## Labels defined again -/

/-- Among distinct labels, one that is defined has a single definition. -/
theorem exists_only_definition {l : Layout} (h : ofSource true table source = .ok l)
    {symbol : Text} {x : Int} (hx : l.symbols.lookup symbol = some x) :
    ∃ before p behind, l.placed.tail = before ++ p :: behind ∧ p.label = symbol ∧ p.address = x ∧
      ∀ q ∈ before ++ behind, q.label ≠ symbol := by
  rw [lookup_ofSource h, Option.map_eq_some_iff] at hx
  obtain ⟨p, hp, rfl⟩ := hx
  obtain ⟨hne, rfl, before, behind, htail, hlast⟩ := definition?_eq_some_iff.mp hp
  have hdistinct := (ofSource_unique_iff.mp h).2
  rw [htail, DistinctLabels, List.pairwise_append] at hdistinct
  refine ⟨before, p, behind, htail, rfl, rfl, fun q hq => ?_⟩
  rcases List.mem_append.mp hq with hq | hq
  · intro heq
    exact hne (heq ▸ hdistinct.2.2 q hq p List.mem_cons_self heq)
  · exact hlast q hq

/-- **Errors are local to the first bad line.**  If a source program cannot be laid out, the error
has the number of one of its lines; the lines before that one can be laid out, and up to that one
they give the same error whatever follows.  If it can be laid out, so can its first lines, and they
give the statements that the whole program has on these lines.  An error for a label that is already
defined arises only where labels must be unique, and is about the first statement behind the `START`
that has the label of an earlier one; the address in it is that of the only one that has it. -/
theorem ofSource_firstLines_local (unique : Bool) (table : OpcodeTable) (source : Text) :
    (∀ e, ofSource unique table source = .error e →
      ∃ n : Nat, e.line = n ∧ 1 ≤ n ∧ n ≤ source.lines.length ∧
        (∃ l, ofSource unique table (source.firstLines (n - 1)) = .ok l) ∧
        ∀ rest, ofSource unique table (source.firstLines n ++ "\n" ++ rest) = .error e) ∧
    (∀ l, ofSource unique table source = .ok l → ∀ k : Nat,
      ∃ l', ofSource unique table (source.firstLines k) = .ok l' ∧
        l'.placed = l.placed.filter fun p => p.line ≤ (k : Int)) ∧
    (∀ symbol line previous,
      ofSource unique table source = .error (.duplicate symbol line previous) →
      unique = true ∧ symbol ≠ Statement.absent ∧
      ∃ (n : Nat) (l : Layout) (s : Statement) (behind : List Statement),
        ofSource unique table (source.firstLines (n - 1)) = .ok l ∧
        body source = l.placed.map Placed.toStatement ++ s :: behind ∧
        s.line = line ∧ line = n ∧ s.label = symbol ∧ DistinctLabels l.placed.tail ∧
        ∃ before p behind', l.placed.tail = before ++ p :: behind' ∧ p.label = symbol ∧
          p.address = previous ∧ ∀ q ∈ before ++ behind', q.label ≠ symbol) := by
  refine ⟨fun e he => ?_, fun l hl k => exists_ofSource_firstLines hl k,
    fun symbol line previous he => ?_⟩
  · obtain ⟨n, before, behind, s, l, hsplit, hn, hpos, hle, hl, hs⟩ := exists_first_error he
    refine ⟨n, (line_of_add_eq_error hs).trans hn, hpos, hle, ⟨l, hl⟩, fun rest => ?_⟩
    exact ofSource_append_of_error hsplit hn hpos hl hs rest
  · obtain ⟨n, before, behind, s, l, hsplit, hn, hpos, -, hl, hs⟩ := exists_first_error he
    rcases add_eq_error_cases hs with ⟨role, form, fault, herror⟩ |
      ⟨hplaced, rfl, hlabel, x, hx, herror⟩
    · cases herror
    · cases herror
      obtain ⟨hbefore, -⟩ := Statement.ofSource_firstLines_of_eq_append hsplit hn hpos
      have hbody : body source = l.placed.map Placed.toStatement ++ s :: behind := by
        have hbody := map_toStatement_ofSource hl
        rw [body, hbefore] at hbody
        rw [body, hsplit, List.dropWhile_append, ← hbody, if_neg (by simpa using hplaced)]
      refine ⟨rfl, by simpa [Statement.isLabelled] using hlabel, n, l, s, behind, hl, hbody, rfl,
        hn, rfl, (ofSource_unique_iff.mp hl).2, ?_⟩
      exact exists_only_definition hl hx

/-- The label of the `START` is no definition, so it is the third line that defines a label again;
that a later line has a bad operand does not matter.  Without that label the program can be laid out
up to the bad line. -/
theorem ofSource_firstLines_local_again :
    ofSource true (.parse "LDA 00") "P START 10\nP RESB 2\nP LDA P\n- RESW X\n" =
        .error (.duplicate "P" 3 0x10) ∧
      (∀ rest, ofSource true (.parse "LDA 00")
          (firstLines 3 "P START 10\nP RESB 2\nP LDA P\n- RESW X\n" ++ "\n" ++ rest) =
        .error (.duplicate "P" 3 0x10)) ∧
      (∃ l, ofSource true (.parse "LDA 00")
          (firstLines 2 "P START 10\nP RESB 2\nP LDA P\n- RESW X\n") = .ok l ∧
        ∃ before p behind, l.placed.tail = before ++ p :: behind ∧ p.label = ("P" : Text) ∧
          p.address = 0x10) ∧
      ∃ l l', ofSource true (.parse "LDA 00") "P START 10\n\nA LDA P\n- END A\n" = .ok l ∧
        ofSource true (.parse "LDA 00") (firstLines 3 "P START 10\n\nA LDA P\n- END A\n") =
          .ok l' ∧
        l'.placed = [⟨⟨1, "P", "START", "10"⟩, 0x10, 0⟩, ⟨⟨3, "A", "LDA", "P"⟩, 0x10, 3⟩] := by
  have herror : ofSource true (.parse "LDA 00") "P START 10\nP RESB 2\nP LDA P\n- RESW X\n" =
      .error (.duplicate "P" 3 0x10) := by
    refine map_eq_error_iff (f := fun _ => ()).mp ?_
    decide +kernel
  have hrun : (ofSource true (.parse "LDA 00")
      "P START 10\n\nA LDA P\n- END A\n").toOption.map Layout.placed =
      some [⟨⟨1, "P", "START", "10"⟩, 0x10, 0⟩, ⟨⟨3, "A", "LDA", "P"⟩, 0x10, 3⟩,
        ⟨⟨4, "-", "END", "A"⟩, 0x13, 0⟩] := by
    decide +kernel
  obtain ⟨l, hl, hplaced⟩ := exists_ok_of_toOption hrun
  obtain ⟨hlocal, -, hagain⟩ := ofSource_firstLines_local true (.parse "LDA 00")
    "P START 10\nP RESB 2\nP LDA P\n- RESW X\n"
  obtain ⟨n, hn, -, -, -, hrest⟩ := hlocal _ herror
  obtain ⟨-, -, m, l₂, s, behind, hl₂, -, -, hm, -, -, before, p, behind', htail, hlabel, hprevious,
    -⟩ := hagain _ _ _ herror
  obtain ⟨l', hl', hfirst⟩ := (ofSource_firstLines_local true (.parse "LDA 00")
    "P START 10\n\nA LDA P\n- END A\n").2.1 l hl 3
  obtain rfl : n = 3 := Int.ofNat_inj.mp hn.symm
  obtain rfl : m = 3 := Int.ofNat_inj.mp hm.symm
  refine ⟨herror, hrest, ⟨l₂, hl₂, before, p, behind', htail, hlabel, hprevious⟩, l, l', hl, hl',
    ?_⟩
  rw [hfirst, hplaced]
  decide +kernel

end Layout

end Sic
