import Sic.Text.Blank

/-!
# White space, fields and lines

What the marking of white space says about single bytes, and what follows for the operations that
rest on it.

* `isAsciiBlank_of_mem_fields`: a field of a line holds no ASCII white space, whatever else it
  holds.
* `trim_eq_self`: a text that begins and ends with solid bytes is left alone by trimming.
* `lines_unlines`: texts without a line feed, each written as a line of its own, are read back line
  by line, with an empty line behind them.

A byte is *solid* if it belongs to no white-space character wherever it stands: the ASCII bytes that
are not white space themselves.  A wide white-space character has no ASCII byte in its encoding,
which is all that the proofs use of the Unicode property.
-/

set_option autoImplicit false

namespace Sic

namespace Text

/-- An ASCII byte that is not white space. -/
def isSolid (b : UInt8) : Bool := b < 0x80 && !isAsciiBlank b

/-! ## The marking -/

theorem isBlank₂_ascii {a b : UInt8} (h : isBlank₂ a b = true) : ¬ a < 0x80 ∧ ¬ b < 0x80 := by
  simp only [isBlank₂, Bool.and_eq_true, Bool.or_eq_true, beq_iff_eq] at h
  obtain ⟨rfl, rfl | rfl⟩ := h <;> decide

theorem isBlank₃_ascii {a b c : UInt8} (h : isBlank₃ a b c = true) :
    ¬ a < 0x80 ∧ ¬ b < 0x80 ∧ ¬ c < 0x80 := by
  simp only [isBlank₃, Bool.and_eq_true, Bool.or_eq_true, beq_iff_eq, decide_eq_true_eq] at h
  have hc : ¬ c < 0x80 := by
    rcases h with ((⟨_, rfl⟩ | ⟨_, ((⟨hc, -⟩ | rfl) | rfl) | rfl⟩) | ⟨_, rfl⟩) | ⟨_, rfl⟩
    · decide
    · exact UInt8.not_lt.mpr hc
    all_goals decide
  rcases h with ((⟨⟨rfl, rfl⟩, -⟩ | ⟨⟨rfl, rfl⟩, -⟩) | ⟨⟨rfl, rfl⟩, -⟩) | ⟨⟨rfl, rfl⟩, -⟩ <;>
    exact ⟨by decide, by decide, hc⟩

/-- A marking in which every ASCII byte is marked for what it is. -/
def AsciiMarked (m : List (UInt8 × Bool)) : Prop := ∀ e ∈ m, e.1 < 0x80 → e.2 = isAsciiBlank e.1

theorem unmarked_mark (a : UInt8) (m : List (UInt8 × Bool)) :
    unmarked (mark a m) = a :: unmarked m := by
  fun_cases mark a m <;> simp [unmarked]

theorem asciiMarked_mark (a : UInt8) {m : List (UInt8 × Bool)} (h : AsciiMarked m) :
    AsciiMarked (mark a m) := by
  fun_cases mark a m with
  | case1 => simp [AsciiMarked]
  | case2 b x t hb =>
    obtain ⟨ha, hb⟩ := isBlank₂_ascii hb
    intro e he
    rcases List.mem_cons.mp he with rfl | he
    · exact fun h' => absurd h' ha
    · rcases List.mem_cons.mp he with rfl | he
      · exact fun h' => absurd h' hb
      · exact h e (List.mem_cons_of_mem _ he)
  | case3 b x _ =>
    intro e he
    rcases List.mem_cons.mp he with rfl | he
    · exact fun _ => rfl
    · exact h e he
  | case4 b x c y t _ hc =>
    obtain ⟨ha, hb, hc⟩ := isBlank₃_ascii hc
    intro e he
    rcases List.mem_cons.mp he with rfl | he
    · exact fun h' => absurd h' ha
    · rcases List.mem_cons.mp he with rfl | he
      · exact fun h' => absurd h' hb
      · rcases List.mem_cons.mp he with rfl | he
        · exact fun h' => absurd h' hc
        · exact h e (List.mem_cons_of_mem _ (List.mem_cons_of_mem _ he))
  | case5 b x c y t _ _ =>
    intro e he
    rcases List.mem_cons.mp he with rfl | he
    · exact fun _ => rfl
    · exact h e he

/-- Marking keeps the bytes. -/
@[simp] theorem unmarked_marked (t : Text) : unmarked (marked t) = t := by
  induction t with
  | nil => rfl
  | cons a t ih =>
    rw [marked, List.foldr_cons, unmarked_mark]
    exact congrArg (a :: ·) ih

theorem asciiMarked_marked (t : Text) : AsciiMarked (marked t) := by
  induction t with
  | nil => simp [AsciiMarked, marked]
  | cons a t ih =>
    rw [marked, List.foldr_cons]
    exact asciiMarked_mark a ih

/-- A solid byte is never marked as white space. -/
theorem snd_of_mem_marked {t : Text} {b : UInt8} {x : Bool} (h : (b, x) ∈ marked t)
    (hb : isSolid b = true) : x = false := by
  rw [isSolid, Bool.and_eq_true, decide_eq_true_eq, Bool.not_eq_true'] at hb
  exact (asciiMarked_marked t _ h hb.1).trans hb.2

/-! ## Trimming -/

theorem dropWhile_marked_of_head {p : UInt8 × Bool → Bool} {m : List (UInt8 × Bool)}
    (h : ∀ e, m.head? = some e → p e = false) : m.dropWhile p = m := by
  cases m with
  | nil => rfl
  | cons e m => rw [List.dropWhile_cons, h e rfl, if_neg Bool.false_ne_true]

/-- **Trimming leaves a text with solid ends alone.** -/
theorem trim_eq_self {t : Text} (hfirst : ∀ b, t.head? = some b → isSolid b = true)
    (hlast : ∀ b, t.getLast? = some b → isSolid b = true) : trim t = t := by
  have hhead : ∀ e, (marked t).head? = some e → e.2 = false := by
    intro e he
    refine snd_of_mem_marked (List.mem_of_head? he) (hfirst e.1 ?_)
    rw [← unmarked_marked t, unmarked, List.head?_map, he, Option.map_some]
  have hend : ∀ e, (marked t).reverse.head? = some e → e.2 = false := by
    intro e he
    rw [List.head?_reverse] at he
    refine snd_of_mem_marked (List.mem_of_getLast? he) (hlast e.1 ?_)
    rw [← unmarked_marked t, unmarked, List.getLast?_map, he, Option.map_some]
  rw [trim, dropWhile_marked_of_head hhead, dropWhile_marked_of_head hend, List.reverse_reverse,
    unmarked_marked]

/-- A text that does not end with a space is what is left of it in a padded column. -/
theorem dropSpacesRight_padRight {t : Text} (h : t.getLast? ≠ some 0x20) (width length : Nat) :
    dropSpacesRight (padRight width length t) = t := by
  rw [dropSpacesRight, padRight, List.reverse_append, List.reverse_replicate,
    List.dropWhile_append_of_pos (by simp)]
  cases ht : t.reverse with
  | nil => exact (List.reverse_eq_nil_iff.mp ht).symm
  | cons b r =>
    have hb : t.getLast? = some b := by rw [← List.head?_reverse, ht, List.head?_cons]
    have hne : (b == 0x20) = false := beq_eq_false_iff_ne.mpr fun e => h (e ▸ hb)
    rw [List.dropWhile_cons, hne, if_neg Bool.false_ne_true, ← ht, List.reverse_reverse]

/-- Trimming leaves only bytes of the text. -/
theorem mem_of_mem_trim {t : Text} {b : UInt8} (h : b ∈ trim t) : b ∈ t := by
  rw [trim, unmarked, List.mem_map] at h
  obtain ⟨e, he, rfl⟩ := h
  have hinner : e ∈ (marked t).dropWhile Prod.snd := by
    simpa using List.dropWhile_subset _ (List.mem_reverse.mp he)
  rw [← unmarked_marked t]
  exact List.mem_map_of_mem (List.dropWhile_subset _ hinner)

theorem mem_of_mem_dropSpacesRight {t : Text} {b : UInt8} (h : b ∈ dropSpacesRight t) : b ∈ t := by
  rw [dropSpacesRight, List.mem_reverse] at h
  simpa using List.dropWhile_subset _ h

/-- No space is left at the end. -/
theorem getLast?_dropSpacesRight (t : Text) : (dropSpacesRight t).getLast? ≠ some 0x20 := by
  have hhead := List.head?_dropWhile_not (· == (0x20 : UInt8)) t.reverse
  rw [dropSpacesRight, List.getLast?_reverse]
  intro h
  rw [h] at hhead
  exact absurd hhead (by decide)

/-! ## Fields and lines -/

/-- The pieces of a split hold elements of the list, and none that was split at. -/
theorem mem_of_mem_splitOnP {α : Type} {p : α → Bool} {xs piece : List α}
    (h : piece ∈ xs.splitOnP p) : ∀ x ∈ piece, x ∈ xs ∧ p x = false := by
  induction xs generalizing piece with
  | nil =>
    rw [List.splitOnP_nil, List.mem_singleton] at h
    subst h
    simp
  | cons a xs ih =>
    rw [List.splitOnP_cons_eq_if_modifyHead] at h
    split at h
    · rcases List.mem_cons.mp h with rfl | h
      · simp
      · exact fun x hx => ⟨List.mem_cons_of_mem _ (ih h x hx).1, (ih h x hx).2⟩
    · rename_i ha
      obtain ⟨first, rest, hr⟩ := List.exists_cons_of_ne_nil (List.splitOnP_ne_nil p xs)
      rw [hr] at ih
      rw [hr, List.modifyHead_cons] at h
      intro x hx
      rcases List.mem_cons.mp h with rfl | h
      · rcases List.mem_cons.mp hx with rfl | hx
        · exact ⟨List.mem_cons_self, by simpa using ha⟩
        · have hx' := ih List.mem_cons_self x hx
          exact ⟨List.mem_cons_of_mem _ hx'.1, hx'.2⟩
      · have hx' := ih (List.mem_cons_of_mem _ h) x hx
        exact ⟨List.mem_cons_of_mem _ hx'.1, hx'.2⟩

/-- The pieces of a text hold bytes of the text, and not the separator. -/
theorem mem_of_mem_splitOn {t piece : Text} {sep : UInt8} (h : piece ∈ t.splitOn sep) :
    sep ∉ piece ∧ ∀ b ∈ piece, b ∈ t := by
  rw [List.splitOn_eq_splitOnP] at h
  refine ⟨fun hsep => ?_, fun b hb => (mem_of_mem_splitOnP h b hb).1⟩
  simpa using (mem_of_mem_splitOnP h sep hsep).2

theorem isAsciiBlank_of_not_ascii {b : UInt8} (h : ¬ b < 0x80) : isAsciiBlank b = false := by
  rw [UInt8.lt_iff_toNat_lt] at h
  simp only [isAsciiBlank, Bool.or_eq_false_iff, beq_eq_false_iff_ne, Bool.and_eq_false_iff,
    decide_eq_false_iff_not, UInt8.le_iff_toNat_le]
  refine ⟨fun hb => ?_, Or.inr ?_⟩
  · subst hb
    exact h (by decide)
  · have h1 : (0x80 : UInt8).toNat = 128 := rfl
    have h2 : (0x0D : UInt8).toNat = 13 := rfl
    omega

/-- **A field holds no ASCII white space.** -/
theorem isAsciiBlank_of_mem_fields {t f : Text} (hf : f ∈ fields t) {b : UInt8} (hb : b ∈ f) :
    isAsciiBlank b = false := by
  rw [fields, List.mem_filterMap] at hf
  obtain ⟨m, hm, hf⟩ := hf
  split at hf
  · cases hf
  · cases hf
    obtain ⟨e, he, rfl⟩ := List.mem_map.mp hb
    obtain ⟨hmem, hsnd⟩ := mem_of_mem_splitOnP hm e he
    by_cases hascii : e.1 < 0x80
    · rw [← asciiMarked_marked t e hmem hascii]
      exact hsnd
    · exact isAsciiBlank_of_not_ascii hascii

/-- The numbers of lines go up. -/
theorem pairwise_zipIdx {α : Type} (xs : List α) (n : Nat) :
    (xs.zipIdx n).Pairwise fun x y => x.2 < y.2 := by
  rw [← List.pairwise_map (f := Prod.snd), List.zipIdx_map_snd]
  exact List.pairwise_lt_range'

/-- Texts without a line feed, each written as a line of its own before a text, come before its
lines. -/
theorem lines_unlines_append {ts : List Text} (h : ∀ t ∈ ts, (0x0A : UInt8) ∉ t) (rest : Text) :
    lines (unlines ts ++ rest) = ts ++ lines rest := by
  induction ts with
  | nil => rfl
  | cons t ts ih =>
    have hsplit : unlines (t :: ts) ++ rest = t ++ 0x0A :: (unlines ts ++ rest) := by
      rw [unlines, List.flatMap_cons, List.append_assoc, List.append_assoc]
      rfl
    rw [lines, hsplit, List.splitOn_append_cons_self_of_not_mem (h t List.mem_cons_self)]
    exact congrArg (t :: ·) (ih fun u hu => h u (List.mem_cons_of_mem _ hu))

/-- Texts without a line feed are the lines of the text that has each as a line of its own, but for
the empty one behind the last line feed. -/
theorem lines_unlines {ts : List Text} (h : ∀ t ∈ ts, (0x0A : UInt8) ∉ t) :
    lines (unlines ts) = ts ++ [[]] := by
  rw [← List.append_nil (unlines ts), lines_unlines_append h]
  rfl

/-- Texts without a line feed can be told from the text that has each as a line of its own. -/
theorem unlines_inj {ts us : List Text} (ht : ∀ t ∈ ts, (0x0A : UInt8) ∉ t)
    (hu : ∀ u ∈ us, (0x0A : UInt8) ∉ u) : unlines ts = unlines us ↔ ts = us := by
  constructor
  · intro h
    have hlines := congrArg lines h
    rw [lines_unlines ht, lines_unlines hu] at hlines
    exact List.append_cancel_right hlines
  · exact congrArg unlines

theorem mem_join {sep : UInt8} {ts : List Text} {b : UInt8} (h : b ∈ join [sep] ts) :
    b = sep ∨ ∃ t ∈ ts, b ∈ t := by
  induction ts with
  | nil => simp [join] at h
  | cons t ts ih =>
    cases ts with
    | nil => exact Or.inr ⟨t, List.mem_singleton_self t, by simpa [join] using h⟩
    | cons u ts =>
      rw [join, List.intercalate_cons_cons, List.append_assoc, List.mem_append,
        List.mem_append] at h
      rcases h with h | h | h
      · exact Or.inr ⟨t, List.mem_cons_self, h⟩
      · exact Or.inl (List.mem_singleton.mp h)
      · rcases ih h with h | ⟨v, hv, hb⟩
        · exact Or.inl h
        · exact Or.inr ⟨v, List.mem_cons_of_mem _ hv, hb⟩

end Text

end Sic
