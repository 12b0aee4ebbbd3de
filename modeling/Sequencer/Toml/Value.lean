import Sequencer.Toml.Table

/-!
# Reading TOML values

`value?` reads the value at the start of a text and returns what follows it.  Arrays may
run over lines and hold comments; a table in braces stays on its line.  Every nested call
reads at least one character, or is followed by one that does, so fuel of twice the length
of the text is enough.
-/

namespace Sequencer.Toml

/-- Drop blanks, line ends and comments; a comment has to end with its line. -/
def dropFiller? (inComment : Bool) : List Char → Option (List Char)
  | [] => if inComment then none else some []
  | '\n' :: rest => dropFiller? false rest
  | '\r' :: '\n' :: rest => dropFiller? false rest
  | c :: rest =>
      if inComment then
        if isPlain c then dropFiller? true rest else none
      else if isBlank c then dropFiller? false rest
      else if c = '#' then dropFiller? true rest
      else some (c :: rest)

def inlineTable? (fields : List (DottedKey × Toml)) : Option Toml :=
  (fields.foldlM (fun entries field => Entries.assign field.1 field.2 .header entries) []).map
    fun entries => .table (entriesToToml entries)

mutual

/-- Read a value, with arrays and tables at most `depth` deep. -/
def value? : Nat → Nat → List Char → Option (Toml × List Char)
  | 0, _, _ => none
  | fuel + 1, depth, chars =>
      match chars with
      | '"' :: _ => (string? chars).map fun (text, rest) => (.string text, rest)
      | '\'' :: _ => (string? chars).map fun (text, rest) => (.string text, rest)
      | '[' :: rest =>
          match depth with
          | 0 => none
          | depth + 1 => (items? fuel depth rest).map fun (items, rest) => (.array items, rest)
      | '\x7b' :: rest =>
          match depth with
          | 0 => none
          | depth + 1 =>
              match dropBlanks rest with
              | '\x7d' :: rest => some (.table [], rest)
              | rest =>
                  (fields? fuel depth rest).bind fun (fields, rest) =>
                    (inlineTable? fields).map (·, rest)
      | _ => scalarFront? chars

def items? : Nat → Nat → List Char → Option (List Toml × List Char)
  | 0, _, _ => none
  | fuel + 1, depth, chars => do
      match ← dropFiller? false chars with
      | ']' :: rest => some ([], rest)
      | chars =>
          let (item, rest) ← value? fuel depth chars
          match ← dropFiller? false rest with
          | ']' :: rest => some ([item], rest)
          | ',' :: rest =>
              let (items, rest) ← items? fuel depth rest
              some (item :: items, rest)
          | _ => none

def fields? : Nat → Nat → List Char → Option (List (DottedKey × Toml) × List Char)
  | 0, _, _ => none
  | fuel + 1, depth, chars => do
      let (key, rest) ← key? (dropBlanks chars)
      let rest ← expect? '=' (dropBlanks rest)
      let (value, rest) ← value? fuel depth (dropBlanks rest)
      match dropBlanks rest with
      | '\x7d' :: rest => some ([(key, value)], rest)
      | ',' :: rest =>
          let (fields, rest) ← fields? fuel depth rest
          some ((key, value) :: fields, rest)
      | _ => none

end

end Sequencer.Toml
