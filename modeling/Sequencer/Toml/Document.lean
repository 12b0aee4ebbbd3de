import Sequencer.Toml.Value

/-!
# TOML documents

A document is read line by line into statements: a value under a key, the header of a
table, the header of an element of an array of tables.  The statements are then put into
tables in order, and the first that does not fit makes the document invalid.
-/

namespace Sequencer.Toml

inductive Statement where
  | assign (key : DottedKey) (value : Toml)
  | header (key : DottedKey)
  | element (key : DottedKey)

def isNewlineFront : List Char → Bool
  | '\n' :: _ => true
  | '\r' :: '\n' :: _ => true
  | _ => false

def commentEnd? : List Char → Option (List Char)
  | [] => some []
  | c :: rest =>
      if isNewlineFront (c :: rest) then some (dropNewline (c :: rest))
      else if isPlain c then commentEnd? rest
      else none

/-- The text after the line, when only blanks and a comment are left on it. -/
def lineEnd? (chars : List Char) : Option (List Char) :=
  match dropBlanks chars with
  | [] => some []
  | '#' :: rest => commentEnd? rest
  | rest => if isNewlineFront rest then some (dropNewline rest) else none

/-- Read one line, which a value may carry over several; an empty one says nothing. -/
def statement? (chars : List Char) : Option (Option Statement × List Char) :=
  match dropBlanks chars with
  | '[' :: '[' :: rest => do
      let (key, rest) ← key? (dropBlanks rest)
      let rest ← expect? ']' (dropBlanks rest)
      let rest ← expect? ']' rest
      let rest ← lineEnd? rest
      some (some (.element key), rest)
  | '[' :: rest => do
      let (key, rest) ← key? (dropBlanks rest)
      let rest ← expect? ']' (dropBlanks rest)
      let rest ← lineEnd? rest
      some (some (.header key), rest)
  | rest =>
      match lineEnd? rest with
      | some rest => some (none, rest)
      | none => do
          let (key, rest) ← key? rest
          let rest ← expect? '=' (dropBlanks rest)
          let rest := dropBlanks rest
          let (value, rest) ← value? (2 * rest.length + 2) depthLimit rest
          let rest ← lineEnd? rest
          some (some (.assign key value), rest)

/-- Read lines to the end of the text.  Each takes a character at least, so the length of
the text is fuel enough. -/
def statements? : Nat → List Char → Option (List Statement)
  | _, [] => some []
  | 0, _ :: _ => none
  | fuel + 1, chars => do
      let (statement, rest) ← statement? chars
      let statements ← statements? fuel rest
      some (statement.toList ++ statements)

structure Document where
  root : Entries := []
  current : List String := []

namespace Document

def apply (document : Document) : Statement → Option Document
  | .assign key value =>
      (Entries.modifyAt false (Entries.assign key value) document.current .header
        document.root).map fun root => { document with root }
  | .header key =>
      (Entries.openTable key document.root).map fun root => ⟨root, key.path ++ [key.name]⟩
  | .element key =>
      (Entries.openElement key document.root).map fun root => ⟨root, key.path ++ [key.name]⟩

end Document

/-- The entries of the table that a text describes.  A byte order mark may come first. -/
def parse? (text : String) : Option (List (String × Toml)) := do
  let chars := match text.toList with
    | '\uFEFF' :: rest => rest
    | chars => chars
  let statements ← statements? chars.length chars
  let document ← statements.foldlM Document.apply {}
  some (entriesToToml document.root)

end Sequencer.Toml
