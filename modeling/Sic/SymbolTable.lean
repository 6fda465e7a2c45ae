import Sic.Address
import Std.Data.TreeMap

/-!
# Symbol tables

The address of every label of a program.  A label defined again moves to the later address.
-/

set_option autoImplicit false

namespace Sic

/-- The symbols of a program with their addresses. -/
structure SymbolTable where
  addresses : Std.TreeMap Text Int

namespace SymbolTable

/-- The table without symbols. -/
def empty : SymbolTable := ⟨∅⟩

/-- Gives a symbol an address, in place of any it had. -/
def define (t : SymbolTable) (symbol : Text) (address : Int) : SymbolTable :=
  ⟨t.addresses.insert symbol address⟩

/-- The address of a symbol. -/
def lookup (t : SymbolTable) (symbol : Text) : Option Int := t.addresses[symbol]?

/-- Gives a symbol an address, and says which it had before. -/
def lookupThenDefine (t : SymbolTable) (symbol : Text) (address : Int) :
    Option Int × SymbolTable :=
  (t.lookup symbol, t.define symbol address)

/-- The number of symbols. -/
def size (t : SymbolTable) : Nat := t.addresses.size

/-- The order of a listing: by address, and by name where two symbols share one. -/
def precedes (a b : Text × Int) : Bool :=
  a.2 < b.2 || (a.2 == b.2 && (compare a.1 b.1).isLE)

/-- The symbols with their addresses, in the order of a listing. -/
def toList (t : SymbolTable) : List (Text × Int) := t.addresses.toList.mergeSort precedes

/-- The listing of the symbols, one a line. -/
def listing (t : SymbolTable) : Text :=
  Text.unlines (t.toList.map fun (symbol, address) => symbol ++ "\t" ++ Address.text address)

end SymbolTable

end Sic
