import Sic.Proofs.Strictness
import Sic.Proofs.Symbols

/-!
# Layout, statement by statement

A layout is made in one pass over the statements of the source program, and what the pass does with
a statement depends only on those before it.  So it can be cut at any line: what stands behind the
line has no influence on the layout of what stands before it, nor on an error in it.

* `Layout.add` is what the pass does with one statement, and `ofSource_eq_foldlM` says that laying
  out a program is adding its statements, one after the other.
* `add_eq_error_cases` says why a statement cannot be added, and `line_of_add_eq_error` that the
  error has its line.
* `exists_ofSource_eq_append` and `exists_ofSource_append` cut the statements of a source program at
  a line.
-/

set_option autoImplicit false

namespace Sic

open Text

/-! ## Texts cut at a line -/

namespace Text

/-- The first lines of a text. -/
def firstLines (n : Nat) (t : Text) : Text := join "\n" (t.lines.take n)

theorem unlines_eq_join {ts : List Text} (h : ts ≠ []) : unlines ts = join "\n" ts ++ "\n" := by
  induction ts with
  | nil => exact absurd rfl h
  | cons t ts ih =>
    cases ts with
    | nil => simp [unlines, join]
    | cons u ts =>
      have hrest := ih (List.cons_ne_nil u ts)
      rw [unlines, List.flatMap_cons, ← unlines, hrest]
      simp [join]

theorem feed_not_mem_of_mem_lines {t line : Text} (h : line ∈ t.lines) : (0x0A : UInt8) ∉ line :=
  (mem_of_mem_splitOn h).1

end Text

namespace Statement

/-- The statements of lines of which the first has the number `n`. -/
def ofLines (n : Nat) (ls : List Text) : List Statement :=
  (ls.zipIdx n).filterMap fun e => ofLine? e.2 e.1

theorem ofSource_eq_ofLines (source : Text) : ofSource source = ofLines 1 source.lines := rfl

theorem ofLines_append (n : Nat) (ls ls' : List Text) :
    ofLines n (ls ++ ls') = ofLines n ls ++ ofLines (n + ls.length) ls' := by
  rw [ofLines, List.zipIdx_append, List.filterMap_append]
  rfl

theorem line_bounds_of_mem_ofLines {n : Nat} {ls : List Text} {s : Statement}
    (h : s ∈ ofLines n ls) : n ≤ s.line ∧ s.line < n + ls.length := by
  obtain ⟨⟨t, k⟩, hmem, hs⟩ := List.mem_filterMap.mp h
  obtain ⟨hlow, hhigh, -⟩ := List.mem_zipIdx hmem
  rw [Layout.line_of_ofLine? hs]
  omega

/-- The statements of the first lines. -/
theorem ofSource_firstLines_eq_ofLines (k : Nat) (source : Text) :
    ofSource (source.firstLines k) = ofLines 1 (source.lines.take k) := by
  by_cases hnil : source.lines.take k = []
  · rw [firstLines, hnil]
    rfl
  · have hfeed : ∀ line ∈ source.lines.take k, (0x0A : UInt8) ∉ line :=
      fun line hline => feed_not_mem_of_mem_lines (List.mem_of_mem_take hline)
    have hlines : lines (source.firstLines k) = source.lines.take k :=
      List.splitOn_intercalate _ hfeed hnil
    rw [ofSource_eq_ofLines, hlines]

/-- **Cutting a source program at a line** cuts its statements in two. -/
theorem exists_ofSource_eq_append (k : Nat) (source : Text) :
    ∃ behind, ofSource source = ofSource (source.firstLines k) ++ behind ∧
      (∀ s ∈ ofSource (source.firstLines k), s.line ≤ k) ∧ ∀ s ∈ behind, k < s.line := by
  have hlength : (source.lines.take k).length = min k source.lines.length := List.length_take
  have hdrop : (source.lines.drop k).length = source.lines.length - k := List.length_drop
  refine ⟨ofLines (1 + (source.lines.take k).length) (source.lines.drop k), ?_, fun s hs => ?_,
    fun s hs => ?_⟩
  · rw [ofSource_firstLines_eq_ofLines, ← ofLines_append, List.take_append_drop]
    rfl
  · rw [ofSource_firstLines_eq_ofLines] at hs
    have hbounds := line_bounds_of_mem_ofLines hs
    omega
  · have hbounds := line_bounds_of_mem_ofLines hs
    omega

/-- Whatever stands behind the first lines, their statements come first. -/
theorem exists_ofSource_append {n : Nat} (hn : 1 ≤ n) (source rest : Text) :
    ∃ more, ofSource (source.firstLines n ++ "\n" ++ rest) =
      ofSource (source.firstLines n) ++ more := by
  have hne : source.lines.take n ≠ [] := by
    have hpos : source.lines ≠ [] := List.splitOn_ne_nil _ _
    rw [Ne, List.take_eq_nil_iff]
    rintro (h | h)
    · omega
    · exact hpos h
  have hfeed : ∀ line ∈ source.lines.take n, (0x0A : UInt8) ∉ line :=
    fun line hline => feed_not_mem_of_mem_lines (List.mem_of_mem_take hline)
  rw [ofSource_firstLines_eq_ofLines, ofSource_eq_ofLines, firstLines, ← unlines_eq_join hne,
    lines_unlines_append hfeed, ofLines_append]
  exact ⟨_, rfl⟩

end Statement

/-! ## Adding a statement -/

namespace Layout

/-- The address behind the last statement of a layout. -/
def next (l : Layout) : Int := l.program.start + l.program.length

/-- Adds a statement to a layout.  A layout without statements waits for a `START` to begin with;
from then on each statement is placed behind the last. -/
def add (unique : Bool) (table : OpcodeTable) (l : Layout) (s : Statement) :
    Except ProgramError Layout :=
  if l.placed.isEmpty then
    if s.isStart then
      s.startAddress.map fun start => ⟨⟨s.label, start, 0⟩, [⟨s, start, 0⟩], .empty⟩
    else .ok l
  else
    match s.size table with
    | .error e => .error e
    | .ok size =>
      (l.symbols.enter unique s l.next).map fun symbols =>
        ⟨{ l.program with length := l.program.length + size },
          l.placed ++ [⟨s, l.next, size⟩], symbols⟩

/-- A layout with a run of statements behind it. -/
def append (l : Layout) (run : Run) : Layout :=
  ⟨{ l.program with length := run.next - l.program.start }, l.placed ++ run.placed, run.symbols⟩

section Add

variable {unique : Bool} {table : OpcodeTable} {l l' : Layout} {s : Statement}
  {ss : List Statement}

/-- **Adding statements to a layout that has begun** is placing them behind it. -/
theorem foldlM_add_of_placed (hl : l.placed ≠ []) :
    ss.foldlM (add unique table) l = (place unique table l.next l.symbols ss).map l.append := by
  induction ss generalizing l with
  | nil =>
    have hlength : l.next - l.program.start = l.program.length := by
      rw [next]
      omega
    simp only [place, Except.map, append, hlength, List.append_nil]
    rfl
  | cons s ss ih =>
    have hbegun : l.placed.isEmpty = false := by simpa using hl
    rw [List.foldlM_cons, place, add, hbegun]
    cases hsize : s.size table with
    | error e => rfl
    | ok size =>
      cases henter : l.symbols.enter unique s l.next with
      | error e => rfl
      | ok symbols =>
        have hnext : l.program.start + (l.program.length + size) = l.next + size := by
          rw [next]
          omega
        refine (ih (by simp)).trans ?_
        simp only [next] at hnext ⊢
        rw [hnext]
        cases place unique table (l.program.start + l.program.length + size) symbols ss with
        | error e => rfl
        | ok run => simp [Except.map, append]

/-- **Laying out a program is adding its statements, one after the other.** -/
theorem ofSource_eq_foldlM (unique : Bool) (table : OpcodeTable) (source : Text) :
    ofSource unique table source = (Statement.ofSource source).foldlM (add unique table) empty := by
  rw [ofSource, body]
  induction Statement.ofSource source with
  | nil => rfl
  | cons s ss ih =>
    rw [List.foldlM_cons]
    cases hs : s.isStart with
    | false =>
      have hadd : add unique table empty s = .ok empty := by simp [add, empty, hs]
      rw [List.dropWhile_cons_of_pos (by simp [hs]), hadd]
      exact ih
    | true =>
      rw [List.dropWhile_cons_of_neg (by simp [hs]), ofStatements]
      cases hstart : s.startAddress with
      | error e => simp [add, empty, hs, hstart, Except.map, bind, Except.bind]
      | ok start =>
        have hadd : add unique table empty s =
            .ok ⟨⟨s.label, start, 0⟩, [⟨s, start, 0⟩], .empty⟩ := by
          simp [add, empty, hs, hstart, Except.map]
        rw [hadd]
        refine Eq.trans ?_ (foldlM_add_of_placed (List.cons_ne_nil _ _)).symm
        simp only [next, Int.add_zero]
        cases place unique table start .empty ss with
        | error e => rfl
        | ok run => rfl

/-- Adding a statement puts it behind the others, if it puts it anywhere. -/
theorem placed_of_add (h : add unique table l s = .ok l') :
    l'.placed = l.placed ∨ ∃ p : Placed, p.toStatement = s ∧ l'.placed = l.placed ++ [p] := by
  rw [add] at h
  split at h
  · rename_i hnil
    split at h
    · obtain ⟨start, -, rfl⟩ := map_eq_ok_iff.mp h
      exact Or.inr ⟨⟨s, start, 0⟩, rfl, by simp [List.isEmpty_iff.mp hnil]⟩
    · cases h
      exact Or.inl rfl
  · split at h
    · cases h
    · obtain ⟨symbols, -, rfl⟩ := map_eq_ok_iff.mp h
      exact Or.inr ⟨_, rfl, rfl⟩

/-- **Statements that are added come behind the others.** -/
theorem exists_placed_of_foldlM (h : ss.foldlM (add unique table) l = .ok l') :
    ∃ more : List Placed, l'.placed = l.placed ++ more ∧ ∀ p ∈ more, p.toStatement ∈ ss := by
  induction ss generalizing l with
  | nil =>
    cases h
    exact ⟨[], by simp⟩
  | cons s ss ih =>
    rw [List.foldlM_cons] at h
    obtain ⟨l₁, hadd, h⟩ := bind_eq_ok_iff.mp h
    obtain ⟨more, hmore, hmem⟩ := ih h
    rcases placed_of_add hadd with hsame | ⟨p, rfl, hplaced⟩
    · exact ⟨more, by rw [hmore, hsame], fun q hq => List.mem_cons_of_mem _ (hmem q hq)⟩
    · refine ⟨p :: more, by simp [hmore, hplaced], fun q hq => ?_⟩
      rcases List.mem_cons.mp hq with rfl | hq
      · exact List.mem_cons_self
      · exact List.mem_cons_of_mem _ (hmem q hq)

end Add

end Layout

/-! ## Errors -/

/-- The line that an error arises in. -/
def ProgramError.line : ProgramError → Int
  | .badOperand e => e.line
  | .duplicate _ line _ => line
  | .undefined r => r.line

namespace Statement

variable {s : Statement} {e : ProgramError}

/-- A statement that cannot be sized has an operand that cannot be used. -/
theorem operandError_of_size {table : OpcodeTable} (h : s.size table = .error e) :
    ∃ role form, s.OperandError role form e := by
  rw [size] at h
  split at h
  · cases h
  · rw [directiveSize] at h
    split at h
    · cases h
    · exact ⟨_, _, operandError_of_count (map_eq_error_iff.mp h)⟩
    · exact ⟨_, _, operandError_of_count h⟩
    · exact ⟨_, _, operandError_of_byteLiteral (map_eq_error_iff.mp h)⟩
    · cases h

end Statement

/-- **When a label cannot be entered.** -/
theorem SymbolTable.enter_eq_error_iff {unique : Bool} {t : SymbolTable} {s : Statement} {a : Int}
    {e : ProgramError} :
    t.enter unique s a = .error e ↔
      unique = true ∧ s.isLabelled = true ∧
        ∃ previous, t.lookup s.label = some previous ∧ e = .duplicate s.label s.line previous := by
  unfold enter
  cases s.isLabelled with
  | false => simp
  | true => cases unique <;> cases t.lookup s.label <;> simp [eq_comm]

namespace Layout

section Error

variable {unique : Bool} {table : OpcodeTable} {l : Layout} {s : Statement} {e : ProgramError}

/-- **When a statement cannot be added**: its operand cannot be used, or its label is already
defined and labels must be unique. -/
theorem add_eq_error_cases (h : add unique table l s = .error e) :
    (∃ role form, s.OperandError role form e) ∨
      l.placed ≠ [] ∧ unique = true ∧ s.isLabelled = true ∧
        ∃ previous, l.symbols.lookup s.label = some previous ∧
          e = .duplicate s.label s.line previous := by
  rw [add] at h
  split at h
  · split at h
    · exact Or.inl ⟨_, _, Statement.operandError_of_startAddress (map_eq_error_iff.mp h)⟩
    · cases h
  · rename_i hbegun
    split at h
    · rename_i hsize
      cases h
      exact Or.inl (Statement.operandError_of_size hsize)
    · exact Or.inr ⟨by simpa using hbegun,
        SymbolTable.enter_eq_error_iff.mp (map_eq_error_iff.mp h)⟩

/-- An error has the line of the statement that cannot be added. -/
theorem line_of_add_eq_error (h : add unique table l s = .error e) : e.line = s.line := by
  rcases add_eq_error_cases h with ⟨role, form, fault, rfl⟩ | ⟨-, -, -, previous, -, rfl⟩
  · rfl
  · rfl

end Error

end Layout

end Sic
