import Sic.Proofs.Outcome
import Sic.Proofs.Packing
import Sic.Proofs.Record.Format
import Sic.Proofs.Text.Returns

/-!
# The grammar of object programs

What a line of an object program may look like, apart from the functions that read it, and what
reading a text comes to in these terms.

* `WritesWord` is the form of a number, and `Record.WrittenAs` the grammar: the fields of a header,
  a text or an end record, and the record that they write.
* `ofFields_eq_ok_iff`: fields are read as a record exactly if they write it.  Each kind of record
  has its own lemma.
* `numberedLines` is what there is to read in a text, and `readLines_eq` says that no other line is
  looked at.
* `parse_eq_ok_iff` and `parse_eq_error_iff`: a text is read if all its lines are, and otherwise
  each line that is not is reported, with its number.
-/

set_option autoImplicit false

namespace Sic

open Text

/-! ## Numbers -/

/-- Hexadecimal digits, without a sign or anything else, that write a number of at most 32 bits. -/
def Text.WritesWord (t : Text) (n : Nat) : Prop :=
  isHexNumber t = true ∧ hexadecimalValue t = n ∧ n < 4294967296

theorem Text.word32OfHex?_eq_some_iff {t : Text} {n : Nat} :
    word32OfHex? t = some n ↔ WritesWord t n := by
  rw [word32OfHex?, Option.filter_eq_some_iff, natOfDigits?_sixteen_eq_some_iff, decide_eq_true_eq,
    WritesWord, and_assoc]

namespace Record

theorem number_eq_ok_iff {what : RecordNumber} {field : Text} {n : Nat} :
    number what field = .ok n ↔ WritesWord field n := by
  rw [number, ← word32OfHex?_eq_some_iff]
  split <;> simp [*]

/-! ## Records -/

/-- **The grammar of records**: the fields of a line, and the record that they write.  The spaces
behind a name are not part of it, and a text record carries as many bytes as it declares. -/
inductive WrittenAs : List Text → Record → Prop where
  | header {name start length : Text} {a n : Nat} (hstart : WritesWord start a)
      (hlength : WritesWord length n) :
      WrittenAs ["H", name, start, length] (.header (dropSpacesRight name) a n)
  | text {start count : Text} {codes : List Text} {a n : Nat} (hstart : WritesWord start a)
      (hcount : WritesWord count n) (hcodes : ∀ code ∈ codes, IsHexBytes code)
      (htotal : codes.flatten.length = 2 * n) :
      WrittenAs ("T" :: start :: count :: codes) (.text ⟨a, codes⟩)
  | entry {address : Text} {a : Nat} (haddress : WritesWord address a) :
      WrittenAs ["E", address] (.entry a)

theorem badCode?_eq_none_iff {codes : List Text} :
    badCode? codes = none ↔ ∀ code ∈ codes, IsHexBytes code := by
  refine ⟨fun h code hcode => ?_, badCode?_eq_none⟩
  have hread := List.findSome?_eq_none_iff.mp h code hcode
  split at hread
  · rename_i bytes hbytes
    exact isHexBytes_of_ofHex hbytes
  · cases hread

theorem headerOfFields_eq_ok_iff {name start length : Text} {r : Record} :
    headerOfFields name start length = .ok r ↔
      ∃ a n, WritesWord start a ∧ WritesWord length n ∧ .header (dropSpacesRight name) a n = r := by
  simp only [headerOfFields, bind_eq_ok_iff, number_eq_ok_iff]
  constructor
  · rintro ⟨a, ha, n, hn, h⟩
    exact ⟨a, n, ha, hn, Except.ok.inj h⟩
  · rintro ⟨a, n, ha, hn, rfl⟩
    exact ⟨a, ha, n, hn, rfl⟩

theorem textOfFields_eq_ok_iff {start count : Text} {codes : List Text} {r : Record} :
    textOfFields start count codes = .ok r ↔
      ∃ a n, WritesWord start a ∧ WritesWord count n ∧ (∀ code ∈ codes, IsHexBytes code) ∧
        codes.flatten.length = 2 * n ∧ .text ⟨a, codes⟩ = r := by
  simp only [textOfFields, bind_eq_ok_iff, number_eq_ok_iff]
  refine ⟨?_, ?_⟩
  · rintro ⟨a, ha, n, hn, h⟩
    cases hbad : badCode? codes with
    | some bad =>
      rw [hbad] at h
      cases h
    | none =>
      have hcodes := badCode?_eq_none_iff.mp hbad
      have hlength := TextRecord.length_flatten_codes a fun code hcode => (hcodes code hcode).2
      rw [hbad] at h
      dsimp only at h
      split at h
      · rename_i htotal
        exact ⟨a, n, ha, hn, hcodes, by rw [hlength, htotal], Except.ok.inj h⟩
      · cases h
  · rintro ⟨a, n, ha, hn, hcodes, htotal, rfl⟩
    have hlength := TextRecord.length_flatten_codes a fun code hcode => (hcodes code hcode).2
    refine ⟨a, ha, n, hn, ?_⟩
    rw [badCode?_eq_none hcodes]
    exact if_pos (by omega)

theorem entryOfField_eq_ok_iff {address : Text} {r : Record} :
    entryOfField address = .ok r ↔ ∃ a, WritesWord address a ∧ .entry a = r := by
  simp only [entryOfField, bind_eq_ok_iff, number_eq_ok_iff]
  constructor
  · rintro ⟨a, ha, h⟩
    exact ⟨a, ha, Except.ok.inj h⟩
  · rintro ⟨a, ha, rfl⟩
    exact ⟨a, ha, rfl⟩

/-- **What fields are read as**: the record that they write. -/
theorem ofFields_eq_ok_iff {fields : List Text} {r : Record} :
    ofFields fields = .ok r ↔ WrittenAs fields r := by
  constructor
  · intro h
    unfold ofFields at h
    split at h
    · split at h
      · obtain ⟨a, n, ha, hn, rfl⟩ := headerOfFields_eq_ok_iff.mp h
        exact .header ha hn
      · cases h
    · split at h
      · obtain ⟨a, n, ha, hn, hcodes, htotal, rfl⟩ := textOfFields_eq_ok_iff.mp h
        exact .text ha hn hcodes htotal
      · cases h
    · split at h
      · obtain ⟨a, ha, rfl⟩ := entryOfField_eq_ok_iff.mp h
        exact .entry ha
      · cases h
    · cases h
    · cases h
  · intro h
    cases h with
    | header ha hn => exact headerOfFields_eq_ok_iff.mpr ⟨_, _, ha, hn, rfl⟩
    | text ha hn hcodes htotal =>
      exact textOfFields_eq_ok_iff.mpr ⟨_, _, ha, hn, hcodes, htotal, rfl⟩
    | entry ha => exact entryOfField_eq_ok_iff.mpr ⟨_, ha, rfl⟩

/-- A line that writes a record: its fields, with `^` between neighbours, do. -/
def IsRecord (line : Text) : Prop := ∃ r, WrittenAs (line.splitOn 0x5E) r

theorem ofLine_eq_ok_iff {line : Text} {r : Record} :
    ofLine line = .ok r ↔ WrittenAs (line.splitOn 0x5E) r :=
  ofFields_eq_ok_iff

theorem isOk_ofLine_iff {line : Text} : (ofLine line).isOk = true ↔ IsRecord line := by
  simp only [IsRecord, ← ofLine_eq_ok_iff]
  cases ofLine line <;> simp [Except.isOk, Except.toBool]

instance (line : Text) : Decidable (IsRecord line) := decidable_of_iff _ isOk_ofLine_iff

/-! ## Lines -/

/-- A line with its number, without the white space around it, if anything else stands in it. -/
def numbered? (line : Text) (n : Nat) : Option (Nat × Text) :=
  if trim line = [] then none else some (n, trim line)

/-- What there is to read in a text: its lines, however they end, with their numbers, but without
those in which nothing stands. -/
def numberedLines (t : Text) : List (Nat × Text) :=
  ((lines (dropReturns t)).zipIdx 1).filterMap fun e => numbered? e.1 e.2

/-- **Each of these lines is read**, and no other. -/
theorem readLines_eq (t : Text) :
    readLines t = (numberedLines t).map fun e => (e.1, ofLine e.2) := by
  have hreturn (line : Text) (n : Nat) : numbered? (line ++ [0x0D]) n = numbered? line n := by
    rw [numbered?, trim_append_return, numbered?]
  rw [numberedLines, filterMap_lines_dropReturns hreturn, List.map_filterMap, readLines]
  refine List.filterMap_congr fun e _ => ?_
  by_cases hblank : trim e.1 = []
  · simp [numbered?, hblank]
  · simp [numbered?, hblank]

section Reading

@[simp] theorem badLines_cons_ok (n : Nat) (r : Record)
    (ls : List (Nat × Except RecordFault Record)) : badLines ((n, .ok r) :: ls) = badLines ls :=
  rfl

@[simp] theorem badLines_cons_error (n : Nat) (fault : RecordFault)
    (ls : List (Nat × Except RecordFault Record)) :
    badLines ((n, .error fault) :: ls) = (n, fault) :: badLines ls :=
  rfl

@[simp] theorem goodLines_cons_ok (n : Nat) (r : Record)
    (ls : List (Nat × Except RecordFault Record)) :
    goodLines ((n, .ok r) :: ls) = r :: goodLines ls :=
  rfl

variable {es : List (Nat × Text)}

/-- What lines are read as if none of them is bad. -/
theorem goodLines_eq_iff {rs : List Record} :
    badLines (es.map fun e => (e.1, ofLine e.2)) = [] ∧
        goodLines (es.map fun e => (e.1, ofLine e.2)) = rs ↔
      List.Forall₂ (fun e r => WrittenAs (e.2.splitOn 0x5E) r) es rs := by
  induction es generalizing rs with
  | nil => simp [badLines, goodLines, eq_comm]
  | cons e es ih =>
    cases he : ofLine e.2 with
    | error fault =>
      have hnot (r : Record) : ¬ WrittenAs (e.2.splitOn 0x5E) r := by
        simp [← ofLine_eq_ok_iff, he]
      simp [he, List.forall₂_cons_left_iff, hnot]
    | ok r =>
      have hiff (r' : Record) : WrittenAs (e.2.splitOn 0x5E) r' ↔ r = r' := by
        simp [← ofLine_eq_ok_iff, he]
      simp only [List.map_cons, he, badLines_cons_ok, goodLines_cons_ok,
        List.forall₂_cons_left_iff, hiff, ← ih]
      constructor
      · rintro ⟨hnil, rfl⟩
        exact ⟨r, _, rfl, ⟨hnil, rfl⟩, rfl⟩
      · rintro ⟨_, _, rfl, ⟨hnil, rfl⟩, rfl⟩
        exact ⟨hnil, rfl⟩

/-- The bad lines are those that write no record, each with its number and with what is wrong. -/
theorem badLines_eq_iff {bad : List (Nat × RecordFault)} :
    badLines (es.map fun e => (e.1, ofLine e.2)) = bad ↔
      List.Forall₂ (fun e b => b.1 = e.1 ∧ ofLine e.2 = .error b.2)
        (es.filter fun e => ¬ IsRecord e.2) bad := by
  induction es generalizing bad with
  | nil => simp [badLines, eq_comm]
  | cons e es ih =>
    cases he : ofLine e.2 with
    | ok r =>
      have hrecord : IsRecord e.2 := ⟨r, ofLine_eq_ok_iff.mp he⟩
      rw [List.filter_cons_of_neg (by simpa using hrecord), ← ih, List.map_cons, he,
        badLines_cons_ok]
    | error fault =>
      have hrecord : ¬ IsRecord e.2 := by
        rw [← isOk_ofLine_iff, he]
        exact Bool.false_ne_true
      rw [List.filter_cons_of_pos (by simpa using hrecord), List.map_cons, he,
        badLines_cons_error, List.forall₂_cons_left_iff]
      simp only [he, Except.error.injEq, ← ih]
      constructor
      · rintro rfl
        exact ⟨_, _, ⟨rfl, rfl⟩, rfl, rfl⟩
      · rintro ⟨⟨_, _⟩, _, ⟨rfl, rfl⟩, rfl, rfl⟩
        rfl

end Reading

/-! ## Texts -/

theorem parse_eq_ok_iff {t : Text} {rs : List Record} :
    parse t = .ok rs ↔ badLines (readLines t) = [] ∧ goodLines (readLines t) = rs := by
  rw [parse]
  split
  · rename_i hnil
    rw [Except.ok.injEq, and_iff_right hnil]
  · rename_i hbad
    exact ⟨fun h => (by cases h), fun h => (hbad h.1).elim⟩

theorem parse_eq_error_iff {t : Text} {bad : List (Nat × RecordFault)} :
    parse t = .error bad ↔ bad ≠ [] ∧ badLines (readLines t) = bad := by
  rw [parse]
  split
  · rename_i hnil
    rw [hnil]
    exact ⟨fun h => (by cases h), fun h => absurd h.2.symm h.1⟩
  · rename_i hbad
    rw [Except.error.injEq]
    exact ⟨fun h => ⟨h ▸ hbad, h⟩, And.right⟩

/-- **Object programs are read by their grammar.**  A line is read as the record that its fields
write.  A text is read if all lines in which something stands write a record, and then gives these
records, one for each line, in order.  Otherwise it gives no record, and what is wrong with each
line that writes none, in order, under the number that the line has in the text. -/
theorem parse_grammar (t : Text) :
    (∀ line r, ofLine line = .ok r ↔ WrittenAs (line.splitOn 0x5E) r) ∧
      (∀ rs, parse t = .ok rs ↔
        List.Forall₂ (fun e r => WrittenAs (e.2.splitOn 0x5E) r) (numberedLines t) rs) ∧
      ((∃ rs, parse t = .ok rs) ↔ ∀ e ∈ numberedLines t, IsRecord e.2) ∧
      ∀ bad, parse t = .error bad ↔
        bad ≠ [] ∧ List.Forall₂ (fun e b => b.1 = e.1 ∧ ofLine e.2 = .error b.2)
          ((numberedLines t).filter fun e => ¬ IsRecord e.2) bad := by
  have hok (rs : List Record) : parse t = .ok rs ↔
      List.Forall₂ (fun e r => WrittenAs (e.2.splitOn 0x5E) r) (numberedLines t) rs := by
    rw [parse_eq_ok_iff, readLines_eq, goodLines_eq_iff]
  refine ⟨fun line r => ofLine_eq_ok_iff, hok, ?_, fun bad => ?_⟩
  · have hnone : (∃ rs, parse t = .ok rs) ↔ badLines (readLines t) = [] := by
      simp [parse_eq_ok_iff]
    rw [hnone, readLines_eq, badLines_eq_iff, List.forall₂_nil_right_iff, List.filter_eq_nil_iff]
    simp
  · rw [parse_eq_error_iff, readLines_eq, badLines_eq_iff]

/-- A text with both kinds of line ends, a blank line, white space around a record, a count that
does not match, a number of more than 32 bits and a line of another kind. -/
def faultyText : Text :=
  "H^P^1f^03\r\n \t\r\n  T^ff^003^^aB^00Cd \r\nT^0^2^00\n\nE^100000000\r\nD^0^00\nE^000000FFF\n"

theorem parse_grammar_faulty :
    (numberedLines faultyText).map Prod.fst = [1, 3, 4, 6, 7, 8] ∧
      WrittenAs ["T", "ff", "003", [], "aB", "00Cd"] (.text ⟨255, [[], "aB", "00Cd"]⟩) ∧
      parse faultyText = .error [(4, .byteCount 0 2 1), (6, .badNumber .entryAddress "100000000"),
        (7, .unknownKind "D")] :=
  ⟨by decide +kernel,
    ((parse_grammar faultyText).1 "T^ff^003^^aB^00Cd" _).mp (by decide +kernel),
    ((parse_grammar faultyText).2.2.2 _).mpr ⟨by decide, by decide +kernel⟩⟩

end Record

end Sic
