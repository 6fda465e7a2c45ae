import Sic.Toml.Scalar

/-!
# Reading TOML documents

The items of a document, from its bytes.  A document is valid UTF-8 without control characters other
than tabs and line breaks; a carriage return only stands before a line feed.  A byte order mark at
its beginning is passed over.

Readers carry a bound on how often they go on, which is the length of the document at first and
always exceeds that of what is left to read.
-/

set_option autoImplicit false

namespace Sic

namespace Toml

/-! ## Keys -/

/-- A character of a key that is not quoted. -/
def isBareChar (c : Char) : Bool :=
  isDigit c || ('a' ≤ c && c ≤ 'z') || ('A' ≤ c && c ≤ 'Z') || c = '_' || c = '-'

/-- Reads one part of a key. -/
def keyPart : Reader Text
  | [] => none
  | c :: t =>
    if c = quote then basicString t
    else if c = apostrophe then literalString t
    else if isBareChar c then
      some (textOf ((c :: t).takeWhile isBareChar), (c :: t).dropWhile isBareChar)
    else none

/-- Reads the parts of a key, at most `bound` of them; points divide them, and blanks may stand
around each. -/
def key : Nat → Reader Key
  | 0, _ => none
  | bound + 1, s => do
    let (part, rest) ← keyPart (s.dropWhile isGap)
    match rest.dropWhile isGap with
    | '.' :: rest =>
      let (parts, rest) ← key bound rest
      some (part :: parts, rest)
    | rest => some ([part], rest)

/-! ## Values -/

/-- What follows a comment, from the end of its line on. -/
def dropComment (s : List Char) : List Char := s.dropWhile fun c => !isBreak c

/-- What follows blanks, line breaks and comments; `inComment` tells whether a comment is open. -/
def dropFiller (inComment : Bool) : List Char → List Char
  | [] => []
  | c :: t =>
    if inComment then dropFiller (!isBreak c) t
    else if isLineSpace c then dropFiller false t
    else if c = '#' then dropFiller true t
    else c :: t

/-- Reads a string behind its first quote. -/
def string : Reader Text
  | '\x22' :: '\x22' :: t => basicLines t
  | s => basicString s

/-- Reads a literal string behind its first apostrophe. -/
def literal : Reader Text
  | '\x27' :: '\x27' :: t => literalLines t
  | s => literalString s

/-- Reads a value that is neither an array nor a table. -/
def scalar : Reader Value
  | 't' :: 'r' :: 'u' :: 'e' :: t => some (.boolean true, t)
  | 'f' :: 'a' :: 'l' :: 's' :: 'e' :: t => some (.boolean false, t)
  | 'i' :: 'n' :: 'f' :: t => some (.float, t)
  | 'n' :: 'a' :: 'n' :: t => some (.float, t)
  | c :: t =>
    if c = quote then (string t).map fun (v, rest) => (.string v, rest)
    else if c = apostrophe then (literal t).map fun (v, rest) => (.string v, rest)
    else if c = '+' || c = '-' then signed c t
    else if isDigit c then unsigned (c :: t)
    else none
  | [] => none

mutual

/-- Reads a value; `bound` bounds how deep it nests. -/
def value : Nat → Reader Value
  | 0, _ => none
  | bound + 1, s =>
    match s.dropWhile isGap with
    | '[' :: t => (items bound t).map fun (vs, rest) => (.array vs, rest)
    | '\x7b' :: t =>
      match t.dropWhile isGap with
      | '\x7d' :: rest => some (.table [], rest)
      | t => (entries bound t).map fun (es, rest) => (.table es, rest)
    | s => scalar s

/-- Reads the values of an array and its closing bracket. -/
def items : Nat → Reader (List Value)
  | 0, _ => none
  | bound + 1, s =>
    match dropFiller false s with
    | ']' :: rest => some ([], rest)
    | s => do
      let (v, rest) ← value bound s
      match dropFiller false rest with
      | ',' :: rest =>
        let (vs, rest) ← items bound rest
        some (v :: vs, rest)
      | ']' :: rest => some ([v], rest)
      | _ => none

/-- Reads the entries of a table on one line and its closing brace. -/
def entries : Nat → Reader (List (Key × Value))
  | 0, _ => none
  | bound + 1, s => do
    let (k, rest) ← key bound s
    match rest with
    | '=' :: rest =>
      let (v, rest) ← value bound rest
      match rest.dropWhile isGap with
      | ',' :: rest =>
        let (es, rest) ← entries bound rest
        some ((k, v) :: es, rest)
      | '\x7d' :: rest => some ([(k, v)], rest)
      | _ => none
    | _ => none

end

/-! ## Documents -/

/-- What follows the end of a line; only blanks and a comment may stand before it. -/
def lineEnd (s : List Char) : Option (List Char) :=
  match s.dropWhile isGap with
  | [] => some []
  | c :: t => if c = '#' then some (dropComment t) else if isBreak c then some (c :: t) else none

/-- Reads the head of a table behind its first bracket. -/
def head (bound : Nat) : Reader Item
  | '[' :: t => do
    let (k, rest) ← key bound t
    match rest with
    | ']' :: ']' :: rest => some (.arrayTable k, rest)
    | _ => none
  | t => do
    let (k, rest) ← key bound t
    match rest with
    | ']' :: rest => some (.table k, rest)
    | _ => none

/-- Reads a key and its value. -/
def pair (bound : Nat) : Reader Item := fun s => do
  let (k, rest) ← key bound s
  match rest with
  | '=' :: rest =>
    let (v, rest) ← value bound rest
    some (.pair k v, rest)
  | _ => none

/-- Reads an item. -/
def item (bound : Nat) : Reader Item
  | '[' :: t => head bound t
  | s => pair bound s

/-- The items of a document, at most `bound` of them. -/
def allItems : Nat → List Char → Option (List Item)
  | 0, _ => none
  | bound + 1, s =>
    match dropFiller false s with
    | [] => some []
    | s => do
      let (i, rest) ← item bound s
      let rest ← lineEnd rest
      let is ← allItems bound rest
      some (i :: is)

/-- The text of a document without a byte order mark. -/
def dropMark : Text → Text
  | 0xFF :: 0xFE :: t => t
  | 0xFE :: 0xFF :: t => t
  | 0xEF :: 0xBB :: 0xBF :: t => t
  | t => t

/-- Puts a character before a document, if it may stand there. -/
def addChar (g : Glyph) (rest : Option (List Char)) : Option (List Char) :=
  match g, rest with
  | .char c, some cs =>
    if c = '\r' then if cs.head? = some '\n' then some (c :: cs) else none
    else if (c.toNat < 0x20 && c ≠ '\t' && c ≠ '\n') || c.toNat = 0x7F then none
    else some (c :: cs)
  | _, _ => none

/-- The characters of a document. -/
def charsOf? (t : Text) : Option (List Char) :=
  (Text.glyphs (dropMark t)).foldr addChar (some [])

/-- Reads a document. -/
def parse? (t : Text) : Option (List Item) := do
  let cs ← charsOf? t
  allItems (cs.length + 1) cs

end Toml

end Sic
