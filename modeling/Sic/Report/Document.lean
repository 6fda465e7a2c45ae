import Sic.Assembly

/-!
# The document of an assembly

An assembly as a document of named fields and lists, which the structured formats of a report write
out.
-/

set_option autoImplicit false

namespace Sic

namespace Report

/-- A part of a document. -/
inductive Node where
  | text (t : Text)
  | list (items : List Node)
  | fields (entries : List (Text × Node))

/-- A field that is a text. -/
def field (name : String) (t : Text) : Text × Node := (name, .text t)

/-- A field that is a list. -/
def listField {α : Type} (name : String) (node : α → Node) (items : List α) : Text × Node :=
  (name, .list (items.map node))

/-- A symbol in a document. -/
def symbolNode (symbol : Text × Int) : Node :=
  .fields [field "label" symbol.1, field "address" (Address.text symbol.2)]

/-- A line of the listing in a document; it has no code if its code is empty. -/
def lineNode (l : Listed) : Node :=
  .fields ([field "address" (Address.text l.address), field "label" l.label,
    field "opcode" l.opcode, field "operand" l.operand] ++
    if l.code.isEmpty then [] else [field "code" l.code])

/-- A record in a document. -/
def recordNode (r : Record) : Node := .text r.line

/-- A reference to nothing in a document. -/
def referenceNode (r : Reference) : Node :=
  .text ("line " ++ Text.decimal r.line ++ ": " ++ r.symbol)

/-- The document of an assembly. -/
def document (a : Assembly) : Node :=
  .fields ([field "name" a.program.name, field "start" (Address.text a.program.start),
    field "length" a.layout.lengthText, listField "symbols" symbolNode a.layout.symbols.toList,
    listField "listing" lineNode a.listing, listField "object" recordNode a.records] ++
    if a.undefined.isEmpty then []
    else [listField "unresolved" referenceNode a.undefined])

end Report

end Sic
