import Sic.Proofs.Text.Blank

/-!
# Fields that are written and read again

A line that is written from fields has to be read back as these fields.  That is so because a field
holds no white space on its own, and because an ASCII blank between two texts belongs to neither.

* `IsWord` is what a field is like: it is not empty, and no byte of it is marked when it stands
  alone.  `isWord_of_mem_fields` says that the fields of any text are words.
* `fields_append_blank`: the fields of two texts with an ASCII blank between them are those of the
  one and those of the other.  With `IsWord.fields_eq` it reads a written line field by field, and
  `fields_append_flatMap` reads any number of words with spaces before them.
* `length_fields_le`: fields take no more room, with a byte between neighbours, than the text they
  were read from.

Marking a byte depends on the two bytes behind it, so a field could in principle be marked otherwise
when it stands alone.  It is not: bytes that make a white-space character are marked wherever they
stand (`infix_of_infix_mark`), and bytes that make none alone make none with more behind them
(`mark_of_mark_append`).
-/

set_option autoImplicit false

namespace Sic

namespace Text

/-! ## Pieces of a split -/

section Split

variable {α : Type} {p : α → Bool} {xs : List α}

/-- The pieces of a split stand in the list, and the first of them at its beginning. -/
theorem splitOnP_eq_cons_infix (p : α → Bool) (xs : List α) :
    ∃ first rest, xs.splitOnP p = first :: rest ∧ first <+: xs ∧ ∀ piece ∈ rest, piece <:+: xs := by
  induction xs with
  | nil => exact ⟨[], [], by simp⟩
  | cons x xs ih =>
    obtain ⟨first, rest, hsplit, hfirst, hrest⟩ := ih
    rw [List.splitOnP_cons_eq_if_modifyHead, hsplit]
    split
    · refine ⟨[], first :: rest, rfl, List.nil_prefix, fun piece hpiece => ?_⟩
      rcases List.mem_cons.mp hpiece with rfl | hpiece
      · exact List.infix_cons hfirst.isInfix
      · exact List.infix_cons (hrest piece hpiece)
    · exact ⟨x :: first, rest, rfl, (List.prefix_cons_inj x).mpr hfirst,
        fun piece hpiece => List.infix_cons (hrest piece hpiece)⟩

theorem infix_of_mem_splitOnP {piece : List α} (h : piece ∈ xs.splitOnP p) : piece <:+: xs := by
  obtain ⟨first, rest, hsplit, hfirst, hrest⟩ := splitOnP_eq_cons_infix p xs
  rw [hsplit] at h
  rcases List.mem_cons.mp h with rfl | h
  · exact hfirst.isInfix
  · exact hrest piece h

/-- A split loses one element between any two pieces. -/
theorem length_splitOnP (p : α → Bool) (xs : List α) :
    (xs.splitOnP p).flatten.length + (xs.splitOnP p).length = xs.length + 1 := by
  induction xs with
  | nil => simp
  | cons x xs ih =>
    obtain ⟨first, rest, hsplit⟩ := List.exists_cons_of_ne_nil (List.splitOnP_ne_nil p xs)
    rw [hsplit] at ih
    rw [List.splitOnP_cons_eq_if_modifyHead, hsplit]
    split <;> simp at ih ⊢ <;> omega

end Split

/-- The lines of a text with a line feed each have one byte more than the text. -/
theorem length_lines (t : Text) : t.lines.flatten.length + t.lines.length = t.length + 1 :=
  length_splitOnP (· == 0x0A) t

/-! ## Marking a part of a text -/

/-- The three ways to mark a byte: alone, with the byte behind it, or with the two behind it. -/
theorem mark_cases (a : UInt8) (m : List (UInt8 × Bool)) :
    mark a m = (a, isAsciiBlank a) :: m ∨
      (∃ b x t, m = (b, x) :: t ∧ mark a m = (a, true) :: (b, true) :: t) ∨
      ∃ b x c y t, m = (b, x) :: (c, y) :: t ∧
        mark a m = (a, true) :: (b, true) :: (c, true) :: t := by
  fun_cases mark a m with
  | case1 => exact Or.inl rfl
  | case2 b x t => exact Or.inr (Or.inl ⟨b, x, t, rfl, rfl⟩)
  | case3 => exact Or.inl rfl
  | case4 b x _ c y t => exact Or.inr (Or.inr ⟨b, x, c, y, t, rfl, rfl⟩)
  | case5 => exact Or.inl rfl

/-- Bytes that are not marked stand at the beginning of a marking or were not marked before. -/
theorem infix_of_infix_mark {a : UInt8} {m piece : List (UInt8 × Bool)}
    (hpiece : ∀ e ∈ piece, e.2 = false) (h : piece <:+: mark a m) :
    piece <+: mark a m ∨ piece <:+: m := by
  -- A piece that begins with a marked byte is empty.
  have hskip {b : UInt8} {t : List (UInt8 × Bool)} (h : piece <:+: (b, true) :: t) :
      piece <:+: t := by
    rcases List.infix_cons_iff.mp h with h | h
    · cases piece with
      | nil => exact List.nil_infix
      | cons e piece =>
        obtain ⟨rfl, -⟩ := List.cons_prefix_cons.mp h
        cases hpiece _ List.mem_cons_self
    · exact h
  obtain hmark | ⟨b, x, t, rfl, hmark⟩ | ⟨b, x, c, y, t, rfl, hmark⟩ := mark_cases a m
  · rw [hmark] at h ⊢
    exact List.infix_cons_iff.mp h
  · rw [hmark] at h
    exact Or.inr (List.infix_cons (hskip (hskip h)))
  · rw [hmark] at h
    exact Or.inr (List.infix_cons (List.infix_cons (hskip (hskip (hskip h)))))

/-- A byte that is not marked leaves the marking behind it alone. -/
theorem mark_eq_of_cons_prefix {a : UInt8} {e : UInt8 × Bool} {m piece : List (UInt8 × Bool)}
    (he : e.2 = false) (h : e :: piece <+: mark a m) :
    e = (a, false) ∧ piece <+: m ∧ mark a m = (a, false) :: m := by
  obtain hmark | ⟨b, x, t, -, hmark⟩ | ⟨b, x, c, y, t, -, hmark⟩ := mark_cases a m <;>
    rw [hmark] at h ⊢
  · obtain ⟨rfl, hpiece⟩ := List.cons_prefix_cons.mp h
    have ha : isAsciiBlank a = false := he
    rw [ha]
    exact ⟨rfl, hpiece, rfl⟩
  · obtain ⟨rfl, -⟩ := List.cons_prefix_cons.mp h
    cases he
  · obtain ⟨rfl, -⟩ := List.cons_prefix_cons.mp h
    cases he

/-- A byte that makes no white-space character with what follows makes none with a part of it. -/
theorem mark_of_mark_append {a : UInt8} {m rest : List (UInt8 × Bool)}
    (h : mark a (m ++ rest) = (a, false) :: (m ++ rest)) : mark a m = (a, false) :: m := by
  have ha : isAsciiBlank a = false := by
    obtain hmark | ⟨b, x, t, -, hmark⟩ | ⟨b, x, c, y, t, -, hmark⟩ := mark_cases a (m ++ rest) <;>
      simp_all
  fun_cases mark a m with
  | case1 => rw [ha]
  | case2 b x t hb => simp [mark, hb] at h
  | case3 => rw [ha]
  | case4 b x hb c y t hc => simp [mark, hb, hc] at h
  | case5 => rw [ha]

/-- **Bytes of a text that are not marked are not marked when they stand alone.** -/
theorem marked_unmarked {t : Text} {piece : List (UInt8 × Bool)}
    (hpiece : ∀ e ∈ piece, e.2 = false) (h : piece <:+: marked t) :
    marked (unmarked piece) = piece := by
  induction t generalizing piece with
  | nil =>
    rw [List.infix_nil.mp h]
    rfl
  | cons a t ih =>
    rcases infix_of_infix_mark hpiece h with h | h
    · cases piece with
      | nil => rfl
      | cons e piece =>
        obtain ⟨rfl, hprefix, hmark⟩ := mark_eq_of_cons_prefix (hpiece e List.mem_cons_self) h
        have halone : marked (unmarked piece) = piece :=
          ih (fun e he => hpiece e (List.mem_cons_of_mem _ he)) hprefix.isInfix
        obtain ⟨rest, hrest⟩ := hprefix
        rw [← hrest] at hmark
        have hmarked : marked (unmarked ((a, false) :: piece)) = mark a piece :=
          congrArg (mark a) halone
        rw [hmarked, mark_of_mark_append hmark]
    · exact ih hpiece h

/-! ## Words -/

/-- A text that is not empty and holds no white space. -/
structure IsWord (w : Text) : Prop where
  ne_nil : w ≠ []
  solid : ∀ e ∈ marked w, e.2 = false

/-- A field is a part of the marking between bytes that are marked. -/
theorem exists_of_mem_fields {t f : Text} (h : f ∈ fields t) :
    ∃ m, m ∈ (marked t).splitOnP Prod.snd ∧ m ≠ [] ∧ f = unmarked m := by
  rw [fields, List.mem_filterMap] at h
  obtain ⟨m, hm, h⟩ := h
  split at h
  · cases h
  · rename_i hne
    exact ⟨m, hm, by simpa using hne, (Option.some_inj.mp h).symm⟩

/-- **The fields of a text are words.** -/
theorem isWord_of_mem_fields {t f : Text} (h : f ∈ fields t) : IsWord f := by
  obtain ⟨m, hm, hne, rfl⟩ := exists_of_mem_fields h
  have hfalse : ∀ e ∈ m, e.2 = false := fun e he => (mem_of_mem_splitOnP hm e he).2
  refine ⟨by simpa [unmarked] using hne, ?_⟩
  rwa [marked_unmarked hfalse (infix_of_mem_splitOnP hm)]

/-- A text with a field is not blank. -/
theorem isBlank_of_mem_fields {t f : Text} (h : f ∈ fields t) : isBlank t = false := by
  obtain ⟨m, hm, hne, -⟩ := exists_of_mem_fields h
  obtain ⟨e, m, rfl⟩ := List.exists_cons_of_ne_nil hne
  obtain ⟨hmem, hfalse⟩ := mem_of_mem_splitOnP hm e List.mem_cons_self
  rw [isBlank, List.all_eq_false]
  exact ⟨e, hmem, by simp [hfalse]⟩

/-- A word is read as one field. -/
theorem IsWord.fields_eq {w : Text} (h : IsWord w) : fields w = [w] := by
  have hne : marked w ≠ [] := by
    intro hnil
    have hempty := unmarked_marked w
    rw [hnil] at hempty
    exact h.ne_nil hempty.symm
  rw [fields, List.splitOnP_eq_singleton h.solid]
  simp [hne]

/-- No ASCII blank stands in a word. -/
theorem IsWord.not_mem_of_blank {w : Text} (h : IsWord w) {b : UInt8} (hb : isAsciiBlank b = true) :
    b ∉ w := by
  intro hmem
  have hsolid : isAsciiBlank b = false :=
    isAsciiBlank_of_mem_fields (h.fields_eq ▸ List.mem_singleton_self w) hmem
  exact Bool.false_ne_true (hsolid.symm.trans hb)

theorem isWord_of_solid {w : Text} (hne : w ≠ []) (h : ∀ b ∈ w, isSolid b = true) : IsWord w := by
  refine ⟨hne, fun e he => snd_of_mem_marked he (h e.1 ?_)⟩
  rw [← unmarked_marked w]
  exact List.mem_map_of_mem he

/-! ## Writing fields -/

theorem isBlank₂_of_ascii {a b : UInt8} (h : a < 0x80 ∨ b < 0x80) : isBlank₂ a b = false := by
  refine Bool.eq_false_iff.mpr fun hblank => ?_
  obtain ⟨ha, hb⟩ := isBlank₂_ascii hblank
  exact h.elim ha hb

theorem isBlank₃_of_ascii {a b c : UInt8} (h : a < 0x80 ∨ b < 0x80 ∨ c < 0x80) :
    isBlank₃ a b c = false := by
  refine Bool.eq_false_iff.mpr fun hblank => ?_
  obtain ⟨ha, hb, hc⟩ := isBlank₃_ascii hblank
  exact h.elim ha fun h => h.elim hb hc

/-- An ASCII byte is marked for itself. -/
theorem mark_ascii {b : UInt8} (hb : b < 0x80) (m : List (UInt8 × Bool)) :
    mark b m = (b, isAsciiBlank b) :: m := by
  fun_cases mark b m with
  | case2 c _ _ hc => simp [isBlank₂_of_ascii (b := c) (Or.inl hb)] at hc
  | case4 c _ _ d _ _ hd => simp [isBlank₃_of_ascii (b := c) (c := d) (Or.inl hb)] at hd
  | _ => rfl

/-- An ASCII byte takes no part in the marking before it. -/
theorem mark_append_ascii {b : UInt8} (hb : b < 0x80) (a : UInt8) (m rest : List (UInt8 × Bool))
    (x : Bool) : mark a (m ++ (b, x) :: rest) = mark a m ++ (b, x) :: rest := by
  fun_cases mark a m with
  | case1 =>
    cases rest <;>
      simp [mark, isBlank₂_of_ascii (Or.inr hb), isBlank₃_of_ascii (Or.inr (Or.inl hb))]
  | case2 c y t hc => simp [mark, hc]
  | case3 c y hc => simp [mark, hc, isBlank₃_of_ascii (Or.inr (Or.inr hb))]
  | case4 c y hc d z t hd => simp [mark, hc, hd]
  | case5 c y hc d z t hd => simp [mark, hc, hd]

theorem marked_append_ascii {b : UInt8} (hb : b < 0x80) (s t : Text) :
    marked (s ++ b :: t) = marked s ++ (b, isAsciiBlank b) :: marked t := by
  induction s with
  | nil => exact mark_ascii hb (marked t)
  | cons a s ih =>
    have hcons : marked (a :: s ++ b :: t) = mark a (marked (s ++ b :: t)) := rfl
    rw [hcons, ih, mark_append_ascii hb]
    rfl

/-- **The fields of two texts with an ASCII blank between them** are those of the two texts. -/
theorem fields_append_blank {b : UInt8} (hb : isAsciiBlank b = true) (s t : Text) :
    fields (s ++ b :: t) = fields s ++ fields t := by
  have hascii : b < 0x80 := by
    by_cases h : b < 0x80
    · exact h
    · rw [isAsciiBlank_of_not_ascii h] at hb
      cases hb
  have hsnd : Prod.snd (b, isAsciiBlank b) = true := hb
  rw [fields, marked_append_ascii hascii, List.splitOnP_append_cons _ _ hsnd,
    List.filterMap_append]
  rfl

/-- Words behind a text, each with a space before it, are read back. -/
theorem fields_append_flatMap {ws : List Text} (h : ∀ w ∈ ws, IsWord w) (s : Text) :
    fields (s ++ ws.flatMap (0x20 :: ·)) = fields s ++ ws := by
  induction ws generalizing s with
  | nil => rw [List.flatMap_nil, List.append_nil, List.append_nil]
  | cons w ws ih =>
    obtain ⟨hw, hws⟩ := List.forall_mem_cons.mp h
    rw [List.flatMap_cons, List.cons_append, fields_append_blank rfl, ih hws, hw.fields_eq]
    rfl

/-- **Fields take no more room than the text they are read from**, with a byte between
neighbours. -/
theorem length_fields_le (t : Text) :
    (fields t).flatten.length + (fields t).length ≤ t.length + 1 := by
  have hfields (pieces : List (List (UInt8 × Bool))) :
      (pieces.filterMap fun m => if m.isEmpty then none else some (unmarked m)).flatten.length +
        (pieces.filterMap fun m => if m.isEmpty then none else some (unmarked m)).length ≤
      pieces.flatten.length + pieces.length := by
    induction pieces with
    | nil => simp
    | cons m pieces ih =>
      cases m with
      | nil => simp at ih ⊢; omega
      | cons e m => simp [unmarked] at ih ⊢; omega
  have hlength : (marked t).length = t.length := by
    rw [← List.length_map Prod.fst, ← unmarked, unmarked_marked]
  have hsplit := length_splitOnP Prod.snd (marked t)
  have hle := hfields ((marked t).splitOnP Prod.snd)
  rw [← fields] at hle
  omega

end Text

end Sic
