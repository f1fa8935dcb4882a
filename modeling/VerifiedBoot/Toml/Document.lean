/-
TOML documents. Reading goes in two steps: the text is scanned into statements, one a line, and
the statements are gathered into tables. A statement is an entry of the table that the last header
named, or a header.
-/
import VerifiedBoot.Toml.Quoted
import VerifiedBoot.Toml.Scalar

namespace VerifiedBoot
namespace Toml

open Scan

/-! ## Keys -/

/-- The number of parts at which a dotted key is too long, and of open brackets and braces at which
a value is too deep. -/
def nestingLimit : Nat := 80

/-- Whether a character may stand in a key without quotes. -/
def isKeyChar (c : Char) : Bool := c.isAlphanum || c == '-' || c == '_'

def simpleKey : Scan String :=
  String.ofList <$>
    (Quoted.line <|> do return (← satisfy isKeyChar) :: (← takeWhile isKeyChar))

def keyPart : Scan String := do
  blanks
  let key ← simpleKey
  blanks
  return key

def KeyPath.ofParts? (parts : List String) : Option KeyPath :=
  if parts.length < nestingLimit then
    parts.getLast?.map fun name => { above := parts.dropLast, name }
  else none

/-- A key, which may be dotted. -/
def keyPath : Scan KeyPath := do
  let parts ← separated keyPart (char '.')
  KeyPath.ofParts? parts

/-! ## Values -/

def entry (value : Scan Value) : Scan (KeyPath × Value) := do
  let key ← keyPath
  char '='
  blanks
  return (key, ← value)

/-- Values between brackets. They may stand on lines of their own, and a comma may follow the
last. -/
def array (value : Scan Value) : Scan Value := do
  char '['
  let items ← separated (do gap; let v ← value; gap; return v) (char ',')
  unless items.isEmpty do discard (opt (char ','))
  gap
  char ']'
  return .array items

/-- Entries between braces, on one line. -/
def inlineTable (value : Scan Value) : Scan Value := do
  char '\x7b'
  let entries ← separated (do let e ← entry value; blanks; return e) (char ',')
  blanks
  char '\x7d'
  return .table .inline (← Table.addEntries [] entries)

def plainValue : Scan Value :=
  (do return .string (String.ofList (← Quoted.decode))) <|> Scalar.scalar

/-- A value with fewer than `depth` brackets and braces open at a time. -/
def value : Nat → Scan Value
  | 0 => failure
  | 1 => plainValue
  | depth + 1 => plainValue <|> array (value depth) <|> inlineTable (value depth)

/-! ## Statements -/

/-- A line of a document. -/
inductive Statement where
  | blank
  | entry (key : KeyPath) (value : Value)
  /-- The entries that follow belong to this table. -/
  | header (key : KeyPath)
  /-- The entries that follow belong to a new table of these. -/
  | repeatedHeader (key : KeyPath)

def header : Scan Statement :=
  (do
    word ['[', '[']
    let key ← keyPath
    word [']', ']']
    return .repeatedHeader key) <|>
  (do
    char '['
    let key ← keyPath
    char ']'
    return .header key)

/-- What stands on a line, before a comment. -/
def content : Scan Statement := do
  match ← peek? with
  | none | some '#' | some '\n' | some '\r' => return .blank
  | some '[' => header
  | some _ =>
    let (key, value) ← entry (value nestingLimit)
    return .entry key value

def statement : Scan Statement := do
  let some _ ← peek? | failure
  blanks
  let s ← content
  lineEnd
  return s

/-- All lines of a text, which may start with a byte order mark. -/
def statements : Scan (List Statement) := do
  discard (opt (char '\ufeff'))
  let lines ← many statement
  atEnd
  return lines

/-! ## Documents -/

/-- The entries under a header. -/
structure Section where
  key : KeyPath
  isRepeated : Bool
  entries : List (KeyPath × Value)

/-- The entries before the first header, and the sections. -/
def sections : List Statement → List (KeyPath × Value) × List Section
  | [] => ([], [])
  | .blank :: rest => sections rest
  | .entry key value :: rest => ((key, value) :: (sections rest).1, (sections rest).2)
  | .header key :: rest => ([], ⟨key, false, (sections rest).1⟩ :: (sections rest).2)
  | .repeatedHeader key :: rest => ([], ⟨key, true, (sections rest).1⟩ :: (sections rest).2)

def Table.addSection (t : Table) (s : Section) : Option Table :=
  if s.isRepeated then t.addToTables s.key s.entries else t.addTable s.key s.entries

def Table.ofStatements (lines : List Statement) : Option Table := do
  let (entries, rest) := sections lines
  rest.foldlM Table.addSection (← Table.addEntries [] entries)

def parse (text : List Char) : Option Table := do
  let (lines, _) ← statements text
  Table.ofStatements lines

end Toml
end VerifiedBoot
