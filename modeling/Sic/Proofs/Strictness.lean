import Sic.Proofs.Listing

/-!
# Strict assembly only rejects

A symbol defined again and a reference to nothing are passed over in a lenient assembly and are
errors in a strict one.  The two runs go through the same steps as long as the strict one goes on,
so strictness decides whether there is a result and never which.

* `place_unique_iff` and `ofSource_unique_iff`: laying out with unique labels is laying out, with
  labels that are distinct.
* `Placed.code_strict_iff` and `encode_strict_iff`: encoding with all references defined is
  encoding, without a reference to nothing.

Labels are compared over the whole program, and references only up to its end.  The two conditions
are about the result of the lenient run, so it does not matter which error a strict run meets first.
-/

set_option autoImplicit false

namespace Sic

/-! ## Unique labels -/

/-- Where labels must be unique, a label is entered if it is new. -/
theorem SymbolTable.enter_unique_iff {t t' : SymbolTable} {s : Statement} {a : Int} :
    t.enter true s a = .ok t' ↔
      t.enter false s a = .ok t' ∧ (s.isLabelled = true → t.lookup s.label = none) := by
  rw [enter_eq_ok_iff, enter_eq_ok_iff]
  cases s.isLabelled with
  | false => simp
  | true => simp [and_comm]

namespace Layout

/-- Statements of which no two carry the same label. -/
def DistinctLabels (placed : List Placed) : Prop :=
  placed.Pairwise fun p q => p.label = q.label → p.label = Statement.absent

/-- Statements whose labels are not defined yet. -/
def NewLabels (symbols : SymbolTable) (placed : List Placed) : Prop :=
  ∀ p ∈ placed, p.isLabelled = true → symbols.lookup p.label = none

section Place

variable {table : OpcodeTable} {a : Int} {symbols symbols' : SymbolTable}
  {statements : List Statement} {run : Run}

/-- Labels are new behind a statement if they were new before it and are not its own. -/
theorem newLabels_enter_iff {unique : Bool} {s : Statement} {placed : List Placed}
    (h : symbols.enter unique s a = .ok symbols') :
    NewLabels symbols' placed ↔
      NewLabels symbols placed ∧ ∀ q ∈ placed, s.label = q.label → s.label = Statement.absent := by
  rw [NewLabels, NewLabels, ← forall₂_and]
  refine forall₂_congr fun q _ => ?_
  rw [SymbolTable.lookup_enter h]
  by_cases heq : s.label = q.label
  · by_cases habsent : q.label = Statement.absent <;>
      simp [Statement.isLabelled, heq, habsent]
  · simp [heq]

/-- **Placing with unique labels** is placing statements whose labels are new and distinct. -/
theorem place_unique_iff :
    place true table a symbols statements = .ok run ↔
      place false table a symbols statements = .ok run ∧
        NewLabels symbols run.placed ∧ DistinctLabels run.placed := by
  induction statements generalizing a symbols run with
  | nil =>
    constructor
    · intro h
      cases h
      exact ⟨rfl, fun _ hp => absurd hp List.not_mem_nil, List.Pairwise.nil⟩
    · exact fun h => h.1
  | cons s statements ih =>
    rw [place_cons_eq_ok_iff, place_cons_eq_ok_iff]
    constructor
    · rintro ⟨size, symbols', rest, hsize, henter, hrest, rfl⟩
      obtain ⟨henter, hnew⟩ := SymbolTable.enter_unique_iff.mp henter
      obtain ⟨hrest, hnews, hdistinct⟩ := ih.mp hrest
      obtain ⟨hnews, hother⟩ := (newLabels_enter_iff henter).mp hnews
      exact ⟨⟨size, symbols', rest, hsize, henter, hrest, rfl⟩,
        List.forall_mem_cons.mpr ⟨hnew, hnews⟩, List.pairwise_cons.mpr ⟨hother, hdistinct⟩⟩
    · rintro ⟨⟨size, symbols', rest, hsize, henter, hrest, rfl⟩, hnews, hdistinct⟩
      obtain ⟨hnew, hnews⟩ := List.forall_mem_cons.mp hnews
      obtain ⟨hother, hdistinct⟩ := List.pairwise_cons.mp hdistinct
      have hnews' := (newLabels_enter_iff henter).mpr ⟨hnews, hother⟩
      exact ⟨size, symbols', rest, hsize, SymbolTable.enter_unique_iff.mpr ⟨henter, hnew⟩,
        ih.mpr ⟨hrest, hnews', hdistinct⟩, rfl⟩

end Place

/-- **Laying out with unique labels** is laying out, if the labels behind the `START` are
distinct. -/
theorem ofSource_unique_iff {table : OpcodeTable} {source : Text} {l : Layout} :
    ofSource true table source = .ok l ↔
      ofSource false table source = .ok l ∧ DistinctLabels l.placed.tail := by
  rw [ofSource, ofSource]
  cases body source with
  | nil =>
    constructor
    · intro h
      cases h
      exact ⟨rfl, List.Pairwise.nil⟩
    · exact fun h => h.1
  | cons s statements =>
    rw [ofStatements_cons_eq_ok_iff, ofStatements_cons_eq_ok_iff]
    constructor
    · rintro ⟨start, run, hstart, hrun, rfl⟩
      obtain ⟨hrun, -, hdistinct⟩ := place_unique_iff.mp hrun
      exact ⟨⟨start, run, hstart, hrun, rfl⟩, hdistinct⟩
    · rintro ⟨⟨start, run, hstart, hrun, rfl⟩, hdistinct⟩
      have hnew : NewLabels .empty run.placed := fun p _ _ => SymbolTable.lookup_empty p.label
      exact ⟨start, run, hstart, place_unique_iff.mpr ⟨hrun, hnew, hdistinct⟩, rfl⟩

end Layout

/-! ## Defined references -/

/-- Where references must be defined, a statement is encoded if it makes none to nothing. -/
theorem Placed.code_strict_iff {table : OpcodeTable} {symbols : SymbolTable} {p : Placed}
    {code : Text} :
    p.code true table symbols = .ok code ↔
      p.code false table symbols = .ok code ∧ p.undefinedReference? table symbols = none := by
  unfold Placed.code undefinedReference? OpcodeTable.contains
  cases table.lookup p.opcode with
  | none => simp
  | some op => cases p.target symbols <;> simp

/-- **Encoding with all references defined** is encoding, if there is no reference to nothing. -/
theorem Layout.encode_strict_iff {table : OpcodeTable} {l : Layout} {lines : List Listed} :
    l.encode true table = .ok lines ↔
      l.encode false table = .ok lines ∧ l.undefinedReferences table = [] := by
  rw [encode, encode, mapM_list_eq_ok_iff, mapM_list_eq_ok_iff, undefinedReferences,
    List.filterMap_eq_nil_iff, and_assoc]
  refine and_congr_right fun hencoded => ?_
  rw [← hencoded, List.forall_mem_map, ← forall₂_and]
  exact forall₂_congr fun x _ => Placed.code_strict_iff

/-! ## Strict assembly -/

/-- **Strict assembly only rejects.**  Whatever is emitted, a strict assembly has a result exactly
if the lenient one has, without references to nothing and with no label carried by two statements
behind the `START`; and then it is the same result. -/
theorem Assembly.assemble_strict_iff (emitter : Emitter) (table : OpcodeTable) (source : Text)
    (a : Assembly) :
    assemble ⟨emitter, true, true⟩ (some table) source = .ok a ↔
      assemble ⟨emitter, false, false⟩ (some table) source = .ok a ∧ a.undefined = [] ∧
        Layout.DistinctLabels a.layout.placed.tail := by
  rw [assemble_eq_ok_iff, assemble_eq_ok_iff, Layout.ofSource_unique_iff, Layout.encode_strict_iff]
  constructor
  · rintro ⟨hblank, ⟨hlayout, hdistinct⟩, ⟨hlisting, hnone⟩, hrecords, hundefined⟩
    exact ⟨⟨hblank, hlayout, hlisting, hrecords, hundefined⟩, hundefined.trans hnone, hdistinct⟩
  · rintro ⟨⟨hblank, hlayout, hlisting, hrecords, hundefined⟩, hnone, hdistinct⟩
    exact ⟨hblank, ⟨hlayout, hdistinct⟩, ⟨hlisting, hundefined.symm.trans hnone⟩, hrecords,
      hundefined⟩

end Sic
