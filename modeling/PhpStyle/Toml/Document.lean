import PhpStyle.Toml.Datetime
import PhpStyle.Toml.Number

/-!
# TOML documents

A document is a list of statements: keys with their values, and headers that say to which table
the keys below belong. `statements` reads them off the text, and `build` carries them out.

* `Node` — a table under construction. It remembers how a table came about, since a table may be
  completed later only if no header has opened it: `implied` tables come from the path of a header
  or of a dotted key, and `dotted` ones from a dotted key.
* `parse` — the entries of a document.
-/

namespace PhpStyle.Toml

/-! ## Statements -/

/-- The path of a key, outermost name first. -/
abbrev KeyPath := List String

/-- A statement of a document. -/
inductive Statement where
  /-- A header that opens a table. -/
  | header (path : KeyPath)
  /-- A header that adds a table to an array of tables. -/
  | arrayHeader (path : KeyPath)
  /-- A key with its value. -/
  | pair (path : KeyPath) (value : Value)

/-- The characters of a key without quotes. -/
def isBareKeyChar (c : Char) : Bool := c.isAlphanum || c == '-' || c == '_'

/-- One name of a key. -/
def keyName : Scan String := Scan.orElse lineString fun cs =>
  let name := cs.takeWhile isBareKeyChar
  if name.isEmpty then none else some (String.ofList name, cs.dropWhile isBareKeyChar)

/-- How many names a key has at most. -/
def maxPath : Nat := 79

/-- A key: names with points between them. -/
def key : Scan KeyPath := fun cs => do
  let item : Scan String := fun cs => do
    let (name, cs) ← keyName (cs.dropWhile isGap)
    return (name, cs.dropWhile isGap)
  let (path, cs) ← Scan.separated item (Scan.exactly ['.']) cs
  if path.length ≤ maxPath then some (path, cs) else none

/-! ## Tables under construction -/

/-- A table under construction, or what stands in one. -/
inductive Node where
  /-- A finished value. -/
  | leaf (value : Value)
  /-- A table. -/
  | table (implied dotted : Bool) (entries : List (String × Node))
  /-- An array of tables, last one first. -/
  | tables (items : List Node)

/-- The entries of a table under construction. -/
structure Draft where
  /-- Whether no header has opened the table. -/
  implied : Bool := false
  /-- Whether a dotted key has made the table. -/
  dotted : Bool := false
  /-- The entries. -/
  entries : List (String × Node) := []

namespace Draft

/-- The draft as a node. -/
def toNode (d : Draft) : Node := .table d.implied d.dotted d.entries

/-- Puts a node under a key, in the place of the one that is there. -/
def put (d : Draft) (key : String) (node : Node) : Draft :=
  if d.entries.any (·.1 == key) then
    { d with entries := d.entries.map fun (k, n) => if k == key then (k, node) else (k, n) }
  else { d with entries := d.entries ++ [(key, node)] }

/-- Puts a node under a key, behind all the others. -/
def putLast (d : Draft) (key : String) (node : Node) : Draft :=
  { d with entries := d.entries.filter (·.1 != key) ++ [(key, node)] }

/-- Changes the table at the end of a path. Tables that are missing on the way are made. The way
leads through the last table of an array of tables, and never through a value. A dotted key does
not lead through a table that a header has opened. -/
def alter (dotted : Bool) (change : Draft → Option Draft) : KeyPath → Draft → Option Draft
  | [], d => change d
  | key :: path, d => do
    match d.entries.lookup key with
    | none =>
      let child ← alter dotted change path { implied := true, dotted }
      return d.put key child.toNode
    | some (.leaf _) => none
    | some (.table implied isDotted entries) =>
      if dotted && !implied then none
      let child ← alter dotted change path ⟨implied, isDotted, entries⟩
      return d.put key child.toNode
    | some (.tables (.table implied isDotted entries :: others)) =>
      let child ← alter dotted change path ⟨implied, isDotted, entries⟩
      return d.put key (.tables (child.toNode :: others))
    | some (.tables _) => none

/-- Adds a value under a key that is still free. A dotted key adds it only to a table that dotted
keys have made, and a plain key only to one that they have not. -/
def add (path : KeyPath) (value : Node) (d : Draft) : Option Draft :=
  match path.getLast? with
  | none => none
  | some name =>
    let isDotted := 1 < path.length
    alter isDotted
      (fun d =>
        if d.dotted != isDotted || (d.entries.lookup name).isSome then none
        else some (d.put name value))
      path.dropLast d

/-- Opens the table of a header. It may be there already if only other headers imply it; its place
is then the last one, as if it were new. -/
def openTable (path : KeyPath) (d : Draft) : Option Draft :=
  match path.getLast? with
  | none => none
  | some name =>
    alter false
      (fun d =>
        match d.entries.lookup name with
        | none => some (d.putLast name (.table false false []))
        | some (.table true false entries) => some (d.putLast name (.table false false entries))
        | some _ => none)
      path.dropLast d

/-- Adds a table to the array of a header. -/
def pushTable (path : KeyPath) (d : Draft) : Option Draft :=
  match path.getLast? with
  | none => none
  | some name =>
    alter false
      (fun d =>
        match d.entries.lookup name with
        | none => some (d.put name (.tables [.table false false []]))
        | some (.tables items) => some (d.put name (.tables (.table false false [] :: items)))
        | some _ => none)
      path.dropLast d

end Draft

mutual

/-- The value of a node. -/
def Node.value : Node → Value
  | .leaf value => value
  | .table _ _ entries => .table (Node.entryValues entries)
  | .tables items => .array (Node.itemValues items).reverse

/-- The values of the entries of a table. -/
def Node.entryValues : List (String × Node) → List (String × Value)
  | [] => []
  | (key, node) :: rest => (key, node.value) :: Node.entryValues rest

/-- The values of the tables of an array. -/
def Node.itemValues : List Node → List Value
  | [] => []
  | node :: rest => node.value :: Node.itemValues rest

end

/-! ## Values -/

/-- What is left behind spaces, tabs, line ends and comments. -/
def dropSpaceAndComments : Nat → List Char → Option (List Char)
  | 0, _ => none
  | fuel + 1, cs =>
    match dropSpace cs with
    | '#' :: cs =>
      match newline (cs.dropWhile isPlain) with
      | some ((), cs) => dropSpaceAndComments fuel cs
      | none => none
    | cs => some cs

/-- The rest of an array behind its opening bracket. A comma may stand behind the last item. -/
def arrayRest (item : Scan Value) : Scan Value := fun cs => do
  let space (cs : List Char) : Option (List Char) := dropSpaceAndComments (cs.length + 1) cs
  let spaced : Scan Value := fun cs => do
    let (value, cs) ← item (← space cs)
    return (value, ← space cs)
  let (items, cs) ← Scan.opt (fun cs => Scan.separated spaced (Scan.exactly [',']) cs) cs
  let cs ← space cs
  match items, cs with
  | some items, ',' :: cs =>
    let ((), cs) ← Scan.exactly [']'] (← space cs)
    return (.array items, cs)
  | items, cs =>
    let ((), cs) ← Scan.exactly [']'] cs
    return (.array (items.getD []), cs)

/-- A key with its value. -/
def pair (item : Scan Value) : Scan (KeyPath × Value) := fun cs => do
  let (path, cs) ← key cs
  let ((), cs) ← Scan.exactly ['='] cs
  let (value, cs) ← item (cs.dropWhile isGap)
  return ((path, value), cs.dropWhile isGap)

/-- The rest of a table on one line behind its opening brace. -/
def inlineRest (item : Scan Value) : Scan Value := fun cs => do
  let cs := cs.dropWhile isGap
  let (pairs, cs) ← Scan.opt (fun cs => Scan.separated (pair item) (Scan.exactly [',']) cs) cs
  let ((), cs) ← Scan.exactly ['\x7d'] (cs.dropWhile isGap)
  let draft ← (pairs.getD []).foldlM (fun d (path, value) => Draft.add path (.leaf value) d) {}
  return (draft.toNode.value, cs)

/-- A value that holds no others. -/
def scalar : Scan Value := fun cs =>
  match cs with
  | '"' :: _ | '\'' :: _ => do
    let (text, cs) ← anyString cs
    return (.string text, cs)
  | 't' :: 'r' :: 'u' :: 'e' :: cs => some (.boolean true, cs)
  | 'f' :: 'a' :: 'l' :: 's' :: 'e' :: cs => some (.boolean false, cs)
  | cs =>
    match datetime cs with
    | some (text, cs) => some (.datetime text, cs)
    | none => number cs

/-- A value that holds others at most `depth` levels deep. -/
def valueWithin : Nat → Scan Value
  | 0, cs => scalar cs
  | depth + 1, cs =>
    match cs with
    | '[' :: cs => arrayRest (valueWithin depth) cs
    | '\x7b' :: cs => inlineRest (valueWithin depth) cs
    | cs => scalar cs

/-- How deep values are nested at most. -/
def maxDepth : Nat := 79

/-! ## Documents -/

/-- What follows a statement: spaces, perhaps a comment, and the end of the line or of the text. -/
def lineEnd (cs : List Char) : Option (List Char) :=
  let cs :=
    match cs.dropWhile isGap with
    | '#' :: cs => cs.dropWhile isPlain
    | cs => cs
  match cs with
  | [] => some []
  | cs =>
    match newline cs with
    | some ((), cs) => some cs
    | none => none

/-- A statement without what follows it. -/
def statement : Scan Statement := fun cs =>
  match cs with
  | '[' :: '[' :: cs => do
    let (path, cs) ← key cs
    let ((), cs) ← Scan.exactly [']', ']'] cs
    return (.arrayHeader path, cs)
  | '[' :: cs => do
    let (path, cs) ← key cs
    let ((), cs) ← Scan.exactly [']'] cs
    return (.header path, cs)
  | cs => do
    let ((path, value), cs) ← pair (valueWithin maxDepth) cs
    return (.pair path value, cs)

/-- The statements of a text. -/
def statements : Nat → List Char → Option (List Statement)
  | 0, _ => none
  | fuel + 1, cs =>
    match dropSpace cs with
    | [] => some []
    | '#' :: cs => do statements fuel (← lineEnd ('#' :: cs))
    | cs => do
      let (first, cs) ← statement cs
      let rest ← statements fuel (← lineEnd cs)
      return first :: rest

/-- Carries out a statement, where `path` is that of the header above it. -/
def Statement.apply (root : Draft) (path : KeyPath) : Statement → Option (Draft × KeyPath)
  | .header names => do return (← root.openTable names, names)
  | .arrayHeader names => do return (← root.pushTable names, names)
  | .pair names value => do
    return (← root.alter false (Draft.add names (.leaf value)) path, path)

/-- Carries out the statements of a document. -/
def build (statements : List Statement) : Option Draft := do
  let (root, _) ← statements.foldlM (fun (root, path) s => s.apply root path)
    (({}, []) : Draft × KeyPath)
  return root

/-- The entries of a document. A mark of the byte order at its start is passed over. -/
def parse (text : String) : Option Entries := do
  let cs :=
    match text.toList with
    | '\uFEFF' :: cs => cs
    | cs => cs
  let root ← build (← statements (cs.length + 1) cs)
  return Node.entryValues root.entries

end PhpStyle.Toml
