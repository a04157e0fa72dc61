import PhpStyle.Text.Blank

/-!
# Paths

The name of the file that a path leads to. Components are separated by slashes; empty ones and
single dots say nothing.
-/

namespace PhpStyle.Path

/-- The components of a path that say something. -/
def components (path : String) : List (List Char) :=
  (Text.pieces '/' path.toList).filter fun piece => !(piece.isEmpty || piece == ['.'])

/-- The last component, unless it leads upwards. -/
def fileName? (path : String) : Option (List Char) :=
  (components path).getLast?.filter (· != ['.', '.'])

/-- A file name without its extension, which is what follows the last dot. A name that only
starts with a dot has no extension. -/
def dropExtension (name : List Char) : List Char :=
  match (name.reverse.dropWhile (· != '.')).reverse with
  | [] => name
  | ['.'] => name
  | before => before.dropLast

/-- The name of the file that a path leads to, without its extension. -/
def stem? (path : String) : Option String :=
  (fileName? path).map fun name => String.ofList (dropExtension name)

end PhpStyle.Path
