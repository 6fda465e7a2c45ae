import Mathlib.Data.List.Basic

/-!
# The last entry counts

An opcode table is filled line by line and a symbol table definition by definition, and in both what
comes later counts.  Here this is said once, for any table that is filled item by item, where an item
may give a key a value, and whatever the table is made of.

* `IsLast gives items key value`: the last of the items that give `key` a value gives it `value`.
* `isLast_append` and `isLast_cons` take the items apart, and `isLast_iff_of_pairwise` is about items
  of which no two are for the same key.
* `lookup_foldl_iff`: if adding one item gives a key the item's value, or else leaves what it had,
  then after all items each key has the value of its last item.
-/

set_option autoImplicit false

namespace Sic

section LastEntry

variable {ι κ ν : Type} {gives : ι → κ → ν → Prop} {items items' : List ι} {item : ι} {key : κ}
  {value : ν}

/-- Items that do not give the key any value. -/
def Silent (gives : ι → κ → ν → Prop) (items : List ι) (key : κ) : Prop :=
  ∀ item ∈ items, ∀ value, ¬ gives item key value

/-- The value that the last of the items with a value for the key gives it. -/
def IsLast (gives : ι → κ → ν → Prop) (items : List ι) (key : κ) (value : ν) : Prop :=
  ∃ before item after, items = before ++ item :: after ∧ gives item key value ∧
    Silent gives after key

theorem silent_append :
    Silent gives (items ++ items') key ↔ Silent gives items key ∧ Silent gives items' key :=
  List.forall_mem_append

theorem silent_cons :
    Silent gives (item :: items) key ↔
      (∀ value, ¬ gives item key value) ∧ Silent gives items key :=
  List.forall_mem_cons

theorem not_isLast_nil : ¬ IsLast gives [] key value := by
  rintro ⟨before, item, after, hitems, -⟩
  exact absurd hitems (by simp)

/-- The last item is among the later items, if any of these has a value for the key. -/
theorem isLast_append :
    IsLast gives (items ++ items') key value ↔
      IsLast gives items' key value ∨ IsLast gives items key value ∧ Silent gives items' key := by
  constructor
  · rintro ⟨before, item, after, hitems, hgives, hafter⟩
    obtain ⟨rest, rfl, rfl⟩ | ⟨rest, rfl, hrest⟩ := List.append_eq_append_iff.mp hitems
    · exact Or.inl ⟨rest, item, after, rfl, hgives, hafter⟩
    · cases rest with
      | nil =>
        rw [List.nil_append] at hrest
        exact Or.inl ⟨[], item, after, hrest.symm, hgives, hafter⟩
      | cons first rest =>
        obtain ⟨rfl, rfl⟩ := List.cons.inj hrest
        obtain ⟨hrest, hafter⟩ := silent_append.mp hafter
        exact Or.inr ⟨⟨before, item, rest, rfl, hgives, hrest⟩, hafter⟩
  · rintro (⟨before, item, after, rfl, hgives, hafter⟩ |
      ⟨⟨before, item, after, rfl, hgives, hafter⟩, hsilent⟩)
    · exact ⟨items ++ before, item, after, by simp, hgives, hafter⟩
    · exact ⟨before, item, after ++ items', by simp, hgives, silent_append.mpr ⟨hafter, hsilent⟩⟩

theorem isLast_singleton : IsLast gives [item] key value ↔ gives item key value := by
  constructor
  · rintro ⟨before, item', after, hitems, hgives, -⟩
    obtain ⟨rfl, rfl, rfl⟩ : before = [] ∧ item = item' ∧ after = [] := by
      cases before <;> simp_all
    exact hgives
  · intro hgives
    exact ⟨[], item, [], rfl, hgives, fun _ h => absurd h List.not_mem_nil⟩

theorem isLast_cons :
    IsLast gives (item :: items) key value ↔
      IsLast gives items key value ∨ gives item key value ∧ Silent gives items key := by
  rw [← List.singleton_append, isLast_append, isLast_singleton]

/-- Either some item is the last one for a key, or none has a value for it. -/
theorem exists_isLast_or_silent (gives : ι → κ → ν → Prop) (items : List ι) (key : κ) :
    (∃ value, IsLast gives items key value) ∨ Silent gives items key := by
  induction items with
  | nil => exact Or.inr fun _ h => absurd h List.not_mem_nil
  | cons item items ih =>
    rcases ih with ⟨value, hlast⟩ | hsilent
    · exact Or.inl ⟨value, isLast_cons.mpr (Or.inl hlast)⟩
    · by_cases hgives : ∃ value, gives item key value
      · obtain ⟨value, hvalue⟩ := hgives
        exact Or.inl ⟨value, isLast_cons.mpr (Or.inr ⟨hvalue, hsilent⟩)⟩
      · exact Or.inr (silent_cons.mpr ⟨not_exists.mp hgives, hsilent⟩)

theorem exists_isLast_iff :
    (∃ value, IsLast gives items key value) ↔ ∃ item ∈ items, ∃ value, gives item key value := by
  constructor
  · rintro ⟨value, before, item, after, rfl, hgives, -⟩
    exact ⟨item, by simp, value, hgives⟩
  · rintro ⟨item, hitem, value, hgives⟩
    exact (exists_isLast_or_silent gives items key).resolve_right fun hsilent =>
      hsilent item hitem value hgives

/-- Where no two items have a value for the same key, the only item for a key is the last one. -/
theorem isLast_iff_of_pairwise
    (h : items.Pairwise fun i j => ∀ key value value', gives i key value → ¬ gives j key value') :
    IsLast gives items key value ↔ ∃ item ∈ items, gives item key value := by
  constructor
  · rintro ⟨before, item, after, rfl, hgives, -⟩
    exact ⟨item, by simp, hgives⟩
  · rintro ⟨item, hitem, hgives⟩
    obtain ⟨before, after, rfl⟩ := List.append_of_mem hitem
    have hafter := (List.pairwise_cons.mp (List.pairwise_append.mp h).2.1).1
    exact ⟨before, item, after, rfl, hgives, fun other hother value' =>
      hafter other hother key value value' hgives⟩

/-- **What a table holds after all items.**  Adding an item gives a key the value that the item has
for it, and leaves the other keys what they had. -/
theorem lookup_foldl_iff {τ : Type} {lookup : τ → κ → Option ν} {add : τ → ι → τ}
    (hadd : ∀ t item key value, lookup (add t item) key = some value ↔
      gives item key value ∨ lookup t key = some value ∧ ∀ other, ¬ gives item key other)
    (items : List ι) (t : τ) (key : κ) (value : ν) :
    lookup (items.foldl add t) key = some value ↔
      IsLast gives items key value ∨ lookup t key = some value ∧ Silent gives items key := by
  induction items generalizing t with
  | nil => simp [not_isLast_nil, Silent]
  | cons item items ih =>
    rw [List.foldl_cons, ih, hadd, isLast_cons, silent_cons]
    tauto

end LastEntry

end Sic
