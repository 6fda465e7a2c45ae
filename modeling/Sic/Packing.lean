import Sic.Listing
import Sic.Record

/-!
# Packing code into records

An object program carries the code of a listing in text records of a limited capacity.  Lines are
packed in order into one open record.  Before a line is packed the open record is closed if the
line's code would fit into a record but no longer fits into this one or, when records are to break
at gaps, if the line does not stand where the line before it and the open record end.  Code that
fits into no record fills the open one and runs on into new ones.
-/

set_option autoImplicit false

namespace Sic

/-- How many bytes a text record may carry.  The two digits of its byte count allow 255. -/
structure Capacity where
  bytes : Nat
  pos : 0 < bytes
  le_max : bytes ≤ 255

namespace Capacity

/-- The largest capacity. -/
def max : Capacity := ⟨255, by decide, by decide⟩

/-- The capacity that a setting asks for; one out of range asks for the largest. -/
def ofSetting (n : Int) : Capacity :=
  if h : 0 < n ∧ n ≤ 255 then ⟨n.toNat, by omega, by omega⟩ else max

end Capacity

/-- How code is packed into text records. -/
structure Packing where
  capacity : Capacity
  /-- Whether a gap between two lines ends a record. -/
  breakAtGaps : Bool

namespace Packing

/-- A record being filled, and the address behind the last line packed into it. -/
structure Open where
  record : TextRecord
  next : Int
deriving DecidableEq, Repr

/-- Whether a line goes on in the open record. -/
def continues (p : Packing) (o : Open) (l : Listed) : Bool :=
  let bytes := (l.code.length + 1) / 2
  if p.breakAtGaps &&
      (l.address ≠ o.next || Address.offset o.record.start o.record.length ≠ l.address) then false
  else !(bytes ≤ p.capacity.bytes && p.capacity.bytes < o.record.length + bytes)

/-- A record with one more piece of code. -/
def append (r : TextRecord) (code : Text) : TextRecord := ⟨r.start, r.codes ++ [code]⟩

/-- Fills new records from an address on with code of whole bytes. -/
def fill (c : Capacity) (address : Int) (code : Text) : List TextRecord :=
  if h : code = [] then []
  else
    ⟨address, [code.take (2 * c.bytes)]⟩ ::
      fill c (Address.offset address c.bytes) (code.drop (2 * c.bytes))
termination_by code.length
decreasing_by
  have := List.length_pos_iff.mpr h
  have := c.pos
  simp only [List.length_drop]
  omega

/-- Pours code of whole bytes into a record, filling it up and running on into new ones. -/
def pour (c : Capacity) (r : TextRecord) (address : Int) (code : Text) : List TextRecord :=
  let room := c.bytes - r.length
  if room = 0 then r :: fill c address code
  else
    append r (code.take (2 * room)) ::
      fill c (Address.offset address room) (code.drop (2 * room))

/-- The records that packing one line leads to; the last of them stays open. -/
def packLine (p : Packing) (o : Option Open) (l : Listed) : List TextRecord :=
  let code := evenDigits l.code
  match o with
  | none => fill p.capacity l.address code
  | some o =>
    if p.continues o l then pour p.capacity o.record l.address code
    else o.record :: fill p.capacity l.address code

/-- Packs lines behind an open record. -/
def pack (p : Packing) (o : Option Open) : List Listed → List TextRecord
  | [] => o.toList.map Open.record
  | l :: rest =>
    if l.code.isEmpty then pack p o rest
    else
      let records := p.packLine o l
      let opened := records.getLast?.map fun r => ⟨r, Address.offset l.address l.size⟩
      records.dropLast ++ pack p opened rest

end Packing

/-- What an assembly emits: the records of a program with its listing.  Two emitters are given here,
and there may be others. -/
structure Emitter where
  emit : Program → List Listed → List Record

namespace Emitter

/-- Emits an object program. -/
def object (packing : Packing) : Emitter where
  emit program lines :=
    .header program.name program.start program.length ::
      (packing.pack none lines).map .text ++ [.entry program.start]

/-- Emits a dump record for every line with code. -/
def dump : Emitter where
  emit _ lines :=
    lines.filterMap fun l => if l.code.isEmpty then none else some (.dump l.address l.code)

end Emitter

end Sic
