import PhpStyle.Config.Reader

/-!
# Configuration files

A configuration is read from the file of a `FileTree` to which a path leads.
-/

namespace PhpStyle

/-- Reads the configuration that a path leads to. A path that does not begin at the root begins at
the directory to which the steps `start` lead. -/
def Config.load (root : FileTree) (start : List String) (path : String) :
    Except ConfigError Config :=
  match root.read start path with
  | .ok text => Config.parse text
  | .error cause => .error (.unreadable path cause)

end PhpStyle
