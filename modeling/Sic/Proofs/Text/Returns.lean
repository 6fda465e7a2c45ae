import Mathlib.Data.List.Forall2
import Sic.Proofs.Text.Fields

/-!
# Carriage returns

Lines may end with a line feed or with a carriage return before it.  Nothing that reads lines tells
the two apart, because a carriage return is white space and stands at the end of its line.

* `dropReturns` and `addReturns` change the one end of a line into the other;
  `dropReturns_addReturns` says that dropping undoes adding, also where returns already stood.
* `forall₂_lines_dropReturns`: but for a return at its end, every line is what it was.
* `filterMap_lines_dropReturns`: what a reader of numbered lines finds is the same, if a line says
  the same to it with a return at its end.  `fields_append_return` and `trim_append_return` say so
  of the two ways in which lines are read.
-/

set_option autoImplicit false

namespace Sic

namespace Text

/-- A text in which lines end with a line feed alone: a carriage return is left out if a line feed
follows. -/
def dropReturns : Text → Text
  | [] => []
  | b :: t => if b = 0x0D ∧ t.head? = some 0x0A then dropReturns t else b :: dropReturns t

/-- A text in which every line feed has a carriage return before it. -/
def addReturns (t : Text) : Text := t.flatMap fun b => if b = 0x0A then [0x0D, 0x0A] else [b]

theorem dropReturns_cons_feed (t : Text) : dropReturns (0x0A :: t) = 0x0A :: dropReturns t :=
  if_neg fun h => absurd h.1 (by decide)

theorem head?_addReturns (t : Text) : (addReturns t).head? ≠ some 0x0A := by
  cases t with
  | nil => exact Option.some_ne_none _ ∘ Eq.symm
  | cons b t =>
    rw [addReturns, List.flatMap_cons]
    split
    · exact fun h => absurd (Option.some_inj.mp h) (by decide)
    · rename_i hb
      exact fun h => hb (Option.some_inj.mp h)

/-- **Dropping returns undoes adding them**, whatever returns stood in the text before. -/
theorem dropReturns_addReturns (t : Text) : dropReturns (addReturns t) = t := by
  induction t with
  | nil => rfl
  | cons b t ih =>
    rw [addReturns, List.flatMap_cons, ← addReturns]
    split
    · rename_i hb
      subst hb
      have hreturn : dropReturns (0x0D :: 0x0A :: addReturns t) =
          dropReturns (0x0A :: addReturns t) := if_pos ⟨rfl, rfl⟩
      rw [List.cons_append, List.cons_append, List.nil_append, hreturn, dropReturns_cons_feed, ih]
    · -- A return of the text itself stays, since no line begins with a line feed any more.
      rw [List.singleton_append, dropReturns, if_neg fun h => head?_addReturns t h.2, ih]

/-! ## Lines -/

/-- A line that is another one, or has a carriage return behind it. -/
def SameButReturn (line line' : Text) : Prop := line = line' ∨ line = line' ++ [0x0D]

theorem SameButReturn.cons {line line' : Text} (h : SameButReturn line line') (b : UInt8) :
    SameButReturn (b :: line) (b :: line') := by
  rcases h with rfl | rfl
  · exact Or.inl rfl
  · exact Or.inr rfl

theorem lines_cons_feed (t : Text) : lines (0x0A :: t) = [] :: lines t := by
  rw [lines, List.splitOn_cons_eq_if_modifyHead]
  rfl

theorem lines_cons {b : UInt8} (hb : b ≠ 0x0A) (t : Text) :
    lines (b :: t) = (lines t).modifyHead (b :: ·) := by
  rw [lines, List.splitOn_cons_eq_if_modifyHead, if_neg (by simpa using hb)]
  rfl

/-- A byte before two texts keeps their lines the same. -/
theorem forall₂_lines_cons {t t' : Text} (h : List.Forall₂ SameButReturn (lines t) (lines t'))
    (b : UInt8) : List.Forall₂ SameButReturn (lines (b :: t)) (lines (b :: t')) := by
  by_cases hb : b = 0x0A
  · subst hb
    rw [lines_cons_feed, lines_cons_feed]
    exact .cons (Or.inl rfl) h
  · rw [lines_cons hb, lines_cons hb]
    generalize lines t = ls at h
    generalize lines t' = ls' at h
    cases h with
    | nil => exact .nil
    | cons hline hrest => exact .cons (hline.cons b) hrest

/-- **But for a return at its end, every line is what it was.** -/
theorem forall₂_lines_dropReturns (t : Text) :
    List.Forall₂ SameButReturn (lines t) (lines (dropReturns t)) := by
  induction t with
  | nil => exact .cons (Or.inl rfl) .nil
  | cons b t ih =>
    rw [dropReturns]
    split
    · rename_i hreturn
      obtain ⟨rfl, hhead⟩ := hreturn
      obtain ⟨t, rfl⟩ := List.head?_eq_some_iff.mp hhead
      rw [lines_cons (by decide), lines_cons_feed]
      rw [dropReturns_cons_feed, lines_cons_feed, lines_cons_feed] at ih
      rw [dropReturns_cons_feed, lines_cons_feed]
      exact .cons (Or.inr rfl) (List.forall₂_cons.mp ih).2
    · exact forall₂_lines_cons ih b

/-- **What is read from numbered lines**, if a line says the same with a return at its end. -/
theorem filterMap_lines_dropReturns {α : Type} {f : Text → Nat → Option α}
    (hf : ∀ line n, f (line ++ [0x0D]) n = f line n) (t : Text) (n : Nat) :
    ((lines (dropReturns t)).zipIdx n).filterMap (fun e => f e.1 e.2) =
      ((lines t).zipIdx n).filterMap fun e => f e.1 e.2 := by
  have hlines := forall₂_lines_dropReturns t
  generalize lines t = ls at hlines
  generalize lines (dropReturns t) = ls' at hlines
  induction hlines generalizing n with
  | nil => rfl
  | @cons line line' _ _ hline _ ih =>
    have hsame : f line' n = f line n := by
      rcases hline with rfl | rfl
      · rfl
      · exact (hf line' n).symm
    rw [List.zipIdx_cons, List.zipIdx_cons, List.filterMap_cons, List.filterMap_cons, hsame, ih]

theorem fields_append_return (line : Text) : fields (line ++ [0x0D]) = fields line := by
  rw [fields_append_blank rfl]
  exact List.append_nil _

theorem trim_append_return (line : Text) : trim (line ++ [0x0D]) = trim line := by
  rw [trim, trim, marked_append_ascii (by decide), List.dropWhile_append]
  split
  · rename_i hblank
    rw [List.isEmpty_iff.mp hblank]
    rfl
  · rw [List.reverse_append]
    rfl

end Text

end Sic
