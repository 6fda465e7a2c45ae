import Mathlib.Data.List.Nodup
import Sic.Proofs.LastEntry
import Sic.Proofs.Layout
import Sic.Proofs.OpcodeTable.Format

/-!
# Histories of a symbol table, and its listing

A symbol table comes about by definitions made one after the other, some of them for symbols that
are already defined.  The listing shows nothing of that.

* `defineAll` makes definitions one after the other and keeps what each of them answers;
  `getElem?_defineAll` says what that is, and `lookup_ofDefinitions` what the table holds in the
  end.
* `Before` is the order of a listing, and `pairwise_toList` says that a listing is in this order.
* `eq_toList`: there is only one list of the symbols of a table in this order.  So the listing does
  not depend on how the table came to hold them, nor on the order in which the symbols are found
  before they are sorted (`eq_toList_of_perm`).
-/

set_option autoImplicit false

namespace Sic.SymbolTable

open Text

/-! ## Definitions one after the other -/

/-- Makes definitions one after the other: what each of them answers, and the table behind them. -/
def defineAll (t : SymbolTable) : List (Text × Int) → List (Option Int) × SymbolTable
  | [] => ([], t)
  | (symbol, address) :: rest =>
    let (previous, t) := t.lookupThenDefine symbol address
    let (answers, t) := t.defineAll rest
    (previous :: answers, t)

/-- The table that definitions lead to. -/
def ofDefinitions (definitions : List (Text × Int)) : SymbolTable := (empty.defineAll definitions).2

/-- What definitions answer, from the first on. -/
def answers (definitions : List (Text × Int)) : List (Option Int) :=
  (empty.defineAll definitions).1

/-- A definition gives its symbol its address. -/
def Gives (definition : Text × Int) (symbol : Text) (address : Int) : Prop :=
  definition = (symbol, address)

instance (definition : Text × Int) (symbol : Text) (address : Int) :
    Decidable (Gives definition symbol address) := inferInstanceAs (Decidable (_ = _))

theorem defineAll_snd (t : SymbolTable) (definitions : List (Text × Int)) :
    (t.defineAll definitions).2 = definitions.foldl (fun t d => t.define d.1 d.2) t := by
  induction definitions generalizing t with
  | nil => rfl
  | cons d definitions ih => exact ih (t.define d.1 d.2)

theorem lookup_define_eq_some_iff (t : SymbolTable) (d : Text × Int) (symbol : Text)
    (address : Int) : (t.define d.1 d.2).lookup symbol = some address ↔
      Gives d symbol address ∨ t.lookup symbol = some address ∧ ∀ other, ¬ Gives d symbol other := by
  obtain ⟨name, a⟩ := d
  rw [lookup_define]
  by_cases hname : name = symbol
  · simp [Gives, hname]
  · simp [Gives, hname]

/-- **The last definition of a symbol counts.** -/
theorem lookup_ofDefinitions (definitions : List (Text × Int)) (symbol : Text) (address : Int) :
    (ofDefinitions definitions).lookup symbol = some address ↔
      IsLast Gives definitions symbol address := by
  rw [ofDefinitions, defineAll_snd, lookup_foldl_iff lookup_define_eq_some_iff, lookup_empty]
  simp

/-- The symbols are the names that were defined. -/
theorem isSome_lookup_ofDefinitions (definitions : List (Text × Int)) (symbol : Text) :
    ((ofDefinitions definitions).lookup symbol).isSome = true ↔
      symbol ∈ definitions.map Prod.fst := by
  simp only [Option.isSome_iff_exists, lookup_ofDefinitions, exists_isLast_iff]
  simp [Gives]

theorem length_defineAll (t : SymbolTable) (definitions : List (Text × Int)) :
    (t.defineAll definitions).1.length = definitions.length := by
  induction definitions generalizing t with
  | nil => rfl
  | cons d definitions ih => exact congrArg (· + 1) (ih (t.define d.1 d.2))

/-- What a definition answers, on the table as the definitions before it have left it. -/
theorem getElem?_defineAll (t : SymbolTable) (before after : List (Text × Int)) (symbol : Text)
    (address : Int) : (t.defineAll (before ++ (symbol, address) :: after)).1[before.length]? =
      some ((t.defineAll before).2.lookup symbol) := by
  induction before generalizing t with
  | nil => rfl
  | cons d before ih => exact ih (t.define d.1 d.2)

/-! ## The order of a listing -/

/-- A symbol with a lower address, or with a lower name at the same address. -/
def Before (a b : Text × Int) : Prop := a.2 < b.2 ∨ a.2 = b.2 ∧ a.1 < b.1

instance (a b : Text × Int) : Decidable (Before a b) := inferInstanceAs (Decidable (_ ∨ _))

theorem Before.irrefl (a : Text × Int) : ¬ Before a a := by
  rintro (h | ⟨-, h⟩)
  · exact Int.lt_irrefl _ h
  · exact List.lt_irrefl _ h

theorem Before.asymm {a b : Text × Int} (h : Before a b) : ¬ Before b a := by
  rintro (h' | ⟨heq, h'⟩) <;> rcases h with h | ⟨heq', h⟩
  · omega
  · omega
  · omega
  · exact List.lt_asymm h h'

theorem precedes_iff {a b : Text × Int} : precedes a b = true ↔ Before a b ∨ a = b := by
  rw [precedes, Bool.or_eq_true, Bool.and_eq_true, decide_eq_true_eq, beq_iff_eq,
    Ordering.isLE_iff_eq_lt_or_eq_eq, compare_eq_lt_iff, Std.compare_eq_iff_eq, Before,
    Prod.ext_iff]
  tauto

theorem precedes_trans (a b c : Text × Int) (hab : precedes a b = true)
    (hbc : precedes b c = true) : precedes a c = true := by
  simp only [precedes, Bool.or_eq_true, Bool.and_eq_true, decide_eq_true_eq, beq_iff_eq] at *
  rcases hab with hab | ⟨hab, hnames⟩
  · exact Or.inl (by omega)
  · rcases hbc with hbc | ⟨hbc, hnames'⟩
    · exact Or.inl (by omega)
    · exact Or.inr ⟨hab.trans hbc, Std.TransCmp.isLE_trans hnames hnames'⟩

theorem precedes_total (a b : Text × Int) : (precedes a b || precedes b a) = true := by
  simp only [precedes, Bool.or_eq_true, Bool.and_eq_true, decide_eq_true_eq, beq_iff_eq]
  rcases Int.lt_trichotomy a.2 b.2 with h | h | h
  · exact Or.inl (Or.inl h)
  · have hswap : compare b.1 a.1 = (compare a.1 b.1).swap := Std.OrientedOrd.eq_swap
    have hnames : (compare a.1 b.1).isLE = true ∨ (compare b.1 a.1).isLE = true := by
      rw [hswap]
      cases compare a.1 b.1 <;> simp
    exact hnames.imp (fun hle => Or.inr ⟨h, hle⟩) fun hle => Or.inr ⟨h.symm, hle⟩
  · exact Or.inr (Or.inl h)

theorem before_or_eq_of_not_before {a b : Text × Int} (h : ¬ Before b a) : Before a b ∨ a = b := by
  rcases Bool.or_eq_true_iff.mp (precedes_total a b) with hle | hle
  · exact precedes_iff.mp hle
  · exact Or.inr ((precedes_iff.mp hle).resolve_left h).symm

/-! ## The listing -/

theorem mem_toList_iff {t : SymbolTable} {symbol : Text} {address : Int} :
    (symbol, address) ∈ t.toList ↔ t.lookup symbol = some address := by
  rw [toList, List.mem_mergeSort]
  exact Std.TreeMap.mem_toList_iff_getElem?_eq_some

theorem mem_map_fst_toList_iff {t : SymbolTable} {symbol : Text} :
    symbol ∈ t.toList.map Prod.fst ↔ (t.lookup symbol).isSome = true := by
  simp [mem_toList_iff, Option.isSome_iff_exists]

theorem length_toList (t : SymbolTable) : t.toList.length = t.size := by
  rw [toList, List.length_mergeSort]
  exact Std.TreeMap.length_toList

/-- No symbol is listed twice. -/
theorem nodup_map_fst_toList (t : SymbolTable) : (t.toList.map Prod.fst).Nodup := by
  have hperm : t.toList.Perm t.addresses.toList := List.mergeSort_perm _ _
  rw [(hperm.map Prod.fst).nodup_iff, List.Nodup, List.pairwise_map]
  exact Std.TreeMap.distinct_keys_toList.imp fun h heq =>
    h (Std.compare_eq_iff_eq.mpr heq)

/-- **A listing is in order.** -/
theorem pairwise_toList (t : SymbolTable) : t.toList.Pairwise Before := by
  have hsorted : t.toList.Pairwise fun a b => precedes a b = true :=
    List.pairwise_mergeSort precedes_trans precedes_total _
  refine hsorted.imp₂ (fun a b hle hne => ?_) (List.pairwise_map.mp (nodup_map_fst_toList t))
  exact (precedes_iff.mp hle).resolve_right fun heq => hne (congrArg Prod.fst heq)

/-- **There is only one list of the symbols in this order**, in whatever order they are found. -/
theorem eq_toList {t : SymbolTable} {symbols : List (Text × Int)} (hsorted : symbols.Pairwise Before)
    (hmem : ∀ symbol address, (symbol, address) ∈ symbols ↔ t.lookup symbol = some address) :
    symbols = t.toList := by
  have hnodup {l : List (Text × Int)} (h : l.Pairwise Before) : l.Nodup :=
    h.imp fun {a b} (hab : Before a b) (heq : a = b) => Before.irrefl b (heq ▸ hab)
  have hperm : symbols.Perm t.toList :=
    (List.perm_ext_iff_of_nodup (hnodup hsorted) (hnodup (pairwise_toList t))).mpr
      fun s => (hmem s.1 s.2).trans mem_toList_iff.symm
  exact hperm.eq_of_pairwise (fun a b _ _ hab hba => absurd hba hab.asymm) hsorted
    (pairwise_toList t)

/-- **Sorting leads to the listing**, in whatever order the symbols are found and however they are
sorted. -/
theorem eq_toList_of_perm {t : SymbolTable} {found sorted : List (Text × Int)}
    (hnodup : found.Nodup)
    (hmem : ∀ symbol address, (symbol, address) ∈ found ↔ t.lookup symbol = some address)
    (hperm : sorted.Perm found) (hsorted : sorted.Pairwise fun a b => ¬ Before b a) :
    sorted = t.toList := by
  have hstrict : sorted.Pairwise Before :=
    hsorted.imp₂ (fun a b hle hne => (before_or_eq_of_not_before hle).resolve_right hne)
      (hperm.nodup_iff.mpr hnodup)
  exact eq_toList hstrict fun symbol address => hperm.mem_iff.trans (hmem symbol address)

/-- The listing depends on what the symbols are, and not on how the table came to have them. -/
theorem toList_eq_of_lookup_eq {t t' : SymbolTable}
    (h : ∀ symbol, t.lookup symbol = t'.lookup symbol) : t.toList = t'.toList :=
  eq_toList (pairwise_toList t) fun symbol address => by rw [mem_toList_iff, h]

/-- Tables that hold the same have the same symbols. -/
theorem lookup_eq_of_toList_addresses_eq {t t' : SymbolTable}
    (h : t.addresses.toList = t'.addresses.toList) (symbol : Text) :
    t.lookup symbol = t'.lookup symbol := by
  refine Option.ext fun address => ?_
  rw [lookup, lookup, ← Std.TreeMap.mem_toList_iff_getElem?_eq_some, h,
    Std.TreeMap.mem_toList_iff_getElem?_eq_some]

/-- **The listing is canonical.**  Whatever definitions a table comes from, its listing has every
name that was defined once, with the address of its last definition, and as many symbols as the
table; they are in strictly increasing order of the addresses, and of the names where these are
equal.  However the symbols are found and sorted, there is no other list of them in this order.  So
definitions that leave the same symbols lead to the same listing, in whatever order they were made
and however often a symbol was redefined.  Each definition answers what could be looked up just
before it. -/
theorem toList_ofDefinitions (definitions : List (Text × Int)) :
    (∀ symbol address, (symbol, address) ∈ (ofDefinitions definitions).toList ↔
      IsLast Gives definitions symbol address) ∧
    (∀ symbol, ((ofDefinitions definitions).toList.map Prod.fst).count symbol =
      if symbol ∈ definitions.map Prod.fst then 1 else 0) ∧
    (ofDefinitions definitions).toList.Pairwise
      (fun a b => a.2 < b.2 ∨ a.2 = b.2 ∧ a.1 < b.1) ∧
    (ofDefinitions definitions).toList.length = (ofDefinitions definitions).size ∧
    (∀ found sorted : List (Text × Int), found.Nodup →
      (∀ symbol address, (symbol, address) ∈ found ↔
        (ofDefinitions definitions).lookup symbol = some address) →
      sorted.Perm found →
      sorted.Pairwise (fun a b => ¬ (b.2 < a.2 ∨ b.2 = a.2 ∧ b.1 < a.1)) →
      sorted = (ofDefinitions definitions).toList) ∧
    (∀ definitions', (∀ symbol, (ofDefinitions definitions').lookup symbol =
        (ofDefinitions definitions).lookup symbol) →
      (ofDefinitions definitions').toList = (ofDefinitions definitions).toList ∧
      (ofDefinitions definitions').listing = (ofDefinitions definitions).listing) ∧
    (answers definitions).length = definitions.length ∧
    ∀ before symbol address after, definitions = before ++ (symbol, address) :: after →
      (answers definitions)[before.length]? = some ((ofDefinitions before).lookup symbol) := by
  refine ⟨fun symbol address => ?_, fun symbol => ?_, pairwise_toList _, length_toList _,
    fun _ _ => eq_toList_of_perm, fun definitions' h => ?_, ?_, ?_⟩
  · rw [mem_toList_iff, lookup_ofDefinitions]
  · rw [(nodup_map_fst_toList _).count]
    exact if_congr (mem_map_fst_toList_iff.trans (isSome_lookup_ofDefinitions _ _)) rfl rfl
  · have htoList := toList_eq_of_lookup_eq h
    exact ⟨htoList, by rw [listing, listing, htoList]⟩
  · exact length_defineAll empty definitions
  · rintro before symbol address after rfl
    exact getElem?_defineAll empty before after symbol address

/-- Two symbols at one address in the end, one of which was elsewhere before. -/
def wandering : List (Text × Int) := [("B", 16), ("C", -1), ("B", 4), ("A", 4)]

/-- The symbols that are left of them, each defined once. -/
def settled : List (Text × Int) := [("A", 4), ("B", 4), ("C", -1)]

theorem toList_ofDefinitions_wandering :
    (∀ symbol, (ofDefinitions settled).lookup symbol = (ofDefinitions wandering).lookup symbol) ∧
      (ofDefinitions settled).toList = (ofDefinitions wandering).toList ∧
      (ofDefinitions settled).listing = (ofDefinitions wandering).listing ∧
      (ofDefinitions wandering).toList = ([("C", -1), ("A", 4), ("B", 4)] : List (Text × Int)) ∧
      (answers wandering)[2]? = some ((ofDefinitions [("B", 16), ("C", -1)]).lookup "B") ∧
      (ofDefinitions [("B", 16), ("C", -1)]).lookup "B" = some 16 := by
  have haddresses : (ofDefinitions settled).addresses.toList =
      (ofDefinitions wandering).addresses.toList := by decide +kernel
  have hsettled : (ofDefinitions settled).addresses.toList = settled := by decide +kernel
  have hlookup := lookup_eq_of_toList_addresses_eq haddresses
  obtain ⟨-, -, -, -, hsort, hcanonical, -, hanswers⟩ := toList_ofDefinitions wandering
  have hfound (symbol : Text) (address : Int) : (symbol, address) ∈ settled ↔
      (ofDefinitions wandering).lookup symbol = some address := by
    rw [lookup, ← Std.TreeMap.mem_toList_iff_getElem?_eq_some, ← haddresses, hsettled]
  exact ⟨hlookup, (hcanonical settled hlookup).1, (hcanonical settled hlookup).2,
    (hsort settled [("C", -1), ("A", 4), ("B", 4)] (by decide +kernel) hfound (by decide +kernel)
      (by decide +kernel)).symm,
    hanswers [("B", 16), ("C", -1)] "B" 4 [("A", 4)] rfl, by decide +kernel⟩

end Sic.SymbolTable
