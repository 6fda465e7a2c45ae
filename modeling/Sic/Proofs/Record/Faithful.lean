import Sic.Proofs.Record.Grammar

/-!
# Object programs are a faithful format

`Format` reads back what was written for readable records.  Here is the other half: whatever text is
read, and however it spells its numbers and lays out its lines, the records it gives are readable.
So they have a written form of their own, and that form is read as the same records.

* `WrittenAs.isReadable`: the records that the grammar gives are readable, and so is what is read
  from a line without a line feed (`isReadable_of_ofLine`).
* `exists_line_of_mem_parse`: each record of a program that is read comes from one of its lines.

It follows that the readable records are exactly those that survive being written and read.
-/

set_option autoImplicit false

namespace Sic

open Text

namespace Record

/-! ## What is read from a line -/

theorem fits_of_writesWord {field : Text} {n : Nat} (h : WritesWord field n) : Fits32 n :=
  ⟨Int.natCast_nonneg _, Int.ofNat_lt.mpr h.2.2⟩

/-- Fields that stand on a line write a readable record. -/
theorem WrittenAs.isReadable {fields : List Text} {r : Record} (h : WrittenAs fields r)
    (hfields : ∀ f ∈ fields, (0x5E : UInt8) ∉ f ∧ (0x0A : UInt8) ∉ f) : IsReadable r := by
  cases h with
  | @header name start length a n hstart hlength =>
    obtain ⟨hcaret, hfeed⟩ := hfields name (by simp)
    exact ⟨fun hmem => hcaret (mem_of_mem_dropSpacesRight hmem),
      fun hmem => hfeed (mem_of_mem_dropSpacesRight hmem), getLast?_dropSpacesRight name,
      fits_of_writesWord hstart, fits_of_writesWord hlength⟩
  | @text start count codes a n hstart hcount hcodes htotal =>
    -- The bytes carried are as many as declared, so their count fits the field that declares it.
    have hlength : TextRecord.length ⟨a, codes⟩ = n := by
      have := TextRecord.length_flatten_codes a fun code hcode => (hcodes code hcode).2
      omega
    exact ⟨fits_of_writesWord hstart, hlength ▸ fits_of_writesWord hcount, hcodes⟩
  | entry haddress => exact fits_of_writesWord haddress

/-- **What is read from a line is readable.** -/
theorem isReadable_of_ofLine {t : Text} {r : Record} (hfeed : (0x0A : UInt8) ∉ t)
    (h : ofLine t = .ok r) : IsReadable r := by
  refine (ofLine_eq_ok_iff.mp h).isReadable fun f hf => ?_
  obtain ⟨hcaret, hmem⟩ := mem_of_mem_splitOn hf
  exact ⟨hcaret, fun hf => hfeed (hmem _ hf)⟩

/-! ## What is read from a text -/

/-- Every record that is read stands on a line of the text. -/
theorem exists_line_of_mem_parse {t : Text} {rs : List Record} (h : parse t = .ok rs) {r : Record}
    (hr : r ∈ rs) : ∃ line ∈ t.lines, ofLine line.trim = .ok r := by
  obtain ⟨-, rfl⟩ := parse_eq_ok_iff.mp h
  rw [goodLines, List.mem_filterMap] at hr
  obtain ⟨⟨n, read⟩, hread, hr⟩ := hr
  rw [readLines, List.mem_filterMap] at hread
  obtain ⟨⟨line, k⟩, hline, hread⟩ := hread
  refine ⟨line, List.fst_mem_of_mem_zipIdx hline, ?_⟩
  cases read with
  | error fault => cases hr
  | ok record =>
    cases hr
    simp only at hread
    split at hread
    · cases hread
    · exact (Prod.mk.inj (Option.some_inj.mp hread)).2

theorem isReadable_of_mem_parse {t : Text} {rs : List Record} (h : parse t = .ok rs) :
    ∀ r ∈ rs, IsReadable r := by
  intro r hr
  obtain ⟨line, hline, hread⟩ := exists_line_of_mem_parse h hr
  have hfeed : (0x0A : UInt8) ∉ line := (mem_of_mem_splitOn hline).1
  exact isReadable_of_ofLine (fun hmem => hfeed (mem_of_mem_trim hmem)) hread

/-! ## Writing and reading -/

/-- **The format of object programs is faithful.**  Records are read back from what is written for
them exactly if each of them is readable: names have neither a `^` nor a line feed in them and do
not end with a space, numbers and byte counts have at most 32 bits, and every piece of code is made
of whole bytes.  Whatever text is read, the records it gives are readable, and so reading what is
written for them gives the same records again. -/
theorem parse_program_eq_self_iff (rs : List Record) :
    (parse (program rs) = .ok rs ↔ ∀ r ∈ rs, IsReadable r) ∧
      ∀ t : Text, parse t = .ok rs →
        (∀ r ∈ rs, IsReadable r) ∧ parse (program rs) = .ok rs := by
  refine ⟨⟨isReadable_of_mem_parse, parse_program⟩, fun t ht => ?_⟩
  have hreadable := isReadable_of_mem_parse ht
  exact ⟨hreadable, parse_program hreadable⟩

/-- A text with carriage returns, a blank line, short numbers, lower-case digits, a text record
without code and one with an empty piece of code, and a name that is no ASCII. -/
theorem parse_program_eq_self_iff_loose :
    parse "H^P\xE9 \xA0  ^1f^0\r\n \r\n  T^ff^00\nT^2^003^^aB^00Cd\r\nE^fFfFfFfF" =
        .ok [.header "P\xE9 \xA0" 31 0, .text ⟨255, []⟩, .text ⟨2, ["", "aB", "00Cd"]⟩,
          .entry 4294967295] ∧
      program [.header "P\xE9 \xA0" 31 0, .text ⟨255, []⟩, .text ⟨2, ["", "aB", "00Cd"]⟩,
          .entry 4294967295] =
        ("H^P\xE9 \xA0  ^00001F^000000\nT^0000FF^00\nT^000002^03^^aB^00Cd\nE^FFFFFFFF\n" : Text) ∧
      parse "H^P\xE9 \xA0  ^00001F^000000\nT^0000FF^00\nT^000002^03^^aB^00Cd\nE^FFFFFFFF\n" =
        .ok [.header "P\xE9 \xA0" 31 0, .text ⟨255, []⟩, .text ⟨2, ["", "aB", "00Cd"]⟩,
          .entry 4294967295] := by
  have hparse : parse "H^P\xE9 \xA0  ^1f^0\r\n \r\n  T^ff^00\nT^2^003^^aB^00Cd\r\nE^fFfFfFfF" =
      .ok [.header "P\xE9 \xA0" 31 0, .text ⟨255, []⟩, .text ⟨2, ["", "aB", "00Cd"]⟩,
        .entry 4294967295] := by
    decide +kernel
  have hprogram : program [.header "P\xE9 \xA0" 31 0, .text ⟨255, []⟩,
        .text ⟨2, ["", "aB", "00Cd"]⟩, .entry 4294967295] =
      ("H^P\xE9 \xA0  ^00001F^000000\nT^0000FF^00\nT^000002^03^^aB^00Cd\nE^FFFFFFFF\n" : Text) := by
    decide +kernel
  refine ⟨hparse, hprogram, ?_⟩
  rw [← hprogram]
  exact ((parse_program_eq_self_iff _).2 _ hparse).2

end Record

end Sic
