/-!
# Paths

A path is text with slashes between names.  Empty names and single dots say nothing; two
dots go up.  `parent?` cuts the last name off the text.
-/

namespace Sequencer.Files

def splitSlashes : List Char → List (List Char)
  | [] => [[]]
  | c :: rest =>
      match splitSlashes rest with
      | [] => [[c]]
      | name :: names => if c = '/' then [] :: name :: names else (c :: name) :: names

def names (path : String) : List String :=
  (splitSlashes path.toList).map String.ofList

def dropSlashes (path : String) : String :=
  String.ofList (path.toList.reverse.dropWhile (· == '/')).reverse

/-- Drop slashes and single dots at the end of a text, which is given backwards.  A slash
that is the whole text stays. -/
def trimEnd : List Char → List Char
  | ['/'] => ['/']
  | '/' :: rest => trimEnd rest
  | ['.', '/'] => ['/']
  | '.' :: '/' :: rest => trimEnd rest
  | rest => rest

/-- The path without its last name.  The empty path and the root have none. -/
def parent? (path : String) : Option String :=
  match trimEnd path.toList.reverse with
  | [] => none
  | ['/'] => none
  | backwards =>
      some (String.ofList (trimEnd (backwards.dropWhile (· != '/'))).reverse)

/-- How many bytes a name, and a path, may have. -/
def maxName : Nat := 255

def maxPath : Nat := 4095

def isAcceptable (path : String) : Bool :=
  !path.isEmpty && path.utf8ByteSize ≤ maxPath && path.toList.all (· != '\x00')

end Sequencer.Files
