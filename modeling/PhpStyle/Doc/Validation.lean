import PhpStyle.Doc.Basic
import PhpStyle.Doc.Schema
import PhpStyle.Fault
import PhpStyle.Severity

/-!
# Validating a documentation block

A block is compared with a schema in three passes, whose findings follow each other: the
descriptions, the tags in the order of the schema, and the indentation of the tag contents.

* `DocProblem` — what can be wrong, with its severity and wording.
* `Finding` — a problem and its place in the comment.
* `DocSchema.descriptionFindings` — the first pass. An empty block, a missing short description
  and a refused tag end the validation; the result says so.
* `TagPass.step` — what the second pass does with one tag of the schema. A tag that is to be looked
  at is checked for its number, its place and its contents (`TagPass.check`).
* `DocSchema.findings` — everything that is wrong with a block.
-/

namespace PhpStyle

/-- Something that is wrong with a documentation block. -/
inductive DocProblem where
  /-- The block has neither text nor tags. -/
  | emptyBlock
  /-- The short description is missing. -/
  | noShort
  /-- The short description starts with one newline, or with several. -/
  | leadingNewlines (several : Bool)
  /-- The descriptions are not separated by one blank line. -/
  | gapBetween
  /-- The tags are not separated by one blank line. -/
  | gapBeforeTags
  /-- The short description has several lines. -/
  | severalLines
  /-- A tag is neither listed nor permitted. -/
  | foreignTag (name : String)
  /-- A required tag is missing. -/
  | missingTag (name : String)
  /-- A discouraged tag is used. -/
  | discouragedTag (name : String)
  /-- Another tag stands between this one and the first of its name. -/
  | scatteredTag (name : String)
  /-- A tag that must come first occurs several times. -/
  | repeatedFirstTag (name : String)
  /-- A single tag occurs several times. -/
  | repeatedTag (name : String)
  /-- A tag stands in front of one that should precede it. -/
  | wrongOrder (name orderText : String)
  /-- A tag that must come first does not. -/
  | notFirst (name : String)
  /-- A package tag names no package. -/
  | noPackageName (name : String)
  /-- A version tag is empty. -/
  | noVersion
  /-- A version tag lacks the revision marker. -/
  | badVersion (content : String)
  /-- A variable tag names no type. -/
  | noType
  /-- A content does not start in the common column. -/
  | misaligned (name : String) (expected found : Nat)
  /-- A content does not have the fixed distance. -/
  | misindented (name : String) (expected found : Nat)
  deriving DecidableEq, Repr

namespace DocProblem

/-- How grave the problem is. -/
def severity : DocProblem → Severity
  | foreignTag _ | discouragedTag _ => .warning
  | _ => .error

/-- The wording of the problem for a block of the given schema. -/
def message (schema : DocSchema) : DocProblem → String
  | emptyBlock => s!"{schema.title} doc comment is empty"
  | noShort => s!"Missing short description in {schema.label} doc comment"
  | leadingNewlines several =>
    let word := if several then "newlines" else "newline"
    s!"Extra {word} found before {schema.label} comment short description"
  | gapBetween =>
    s!"There must be exactly one blank line between descriptions in {schema.label} comment"
  | gapBeforeTags =>
    s!"There must be exactly one blank line before the tags in {schema.label} comment"
  | severalLines => s!"{schema.title} comment short description must be on a single line"
  | foreignTag name => s!"@{name} tag is not allowed in {schema.label} comment"
  | missingTag name => s!"Missing @{name} tag in {schema.label} comment"
  | discouragedTag name => s!"The usage of the @{name} in any comment is discouraged"
  | scatteredTag name => s!"@{name} tags must be grouped together"
  | repeatedFirstTag name => s!"Only 1 @{name} tag is allowed in {schema.label} comment"
  | repeatedTag name => s!"Only 1 @{name} tag is allowed in a {schema.label} comment"
  | wrongOrder name orderText =>
    s!"The @{name} tag is in the wrong order; the tag {orderText}"
  | notFirst name => s!"The @{name} tag must be the first tag in a {schema.label} comment"
  | noPackageName name => s!"@{name} tag must contain a name"
  | noVersion =>
    s!"Content missing for @version tag in {schema.label} comment, must be at least " ++
      s!"{schema.revisionMarker}$"
  | badVersion content =>
    s!"Invalid @version tag content \"{content}\" in {schema.label} comment; consider " ++
      s!"\"{schema.revisionMarker}$\" instead"
  | noType => s!"Var type missing for @var tag in {schema.label} comment"
  | misaligned name expected found =>
    s!"@{name} tag comment indented incorrectly. Expected {expected} spaces but found {found}."
  | misindented name expected found =>
    s!"@{name} tag indented incorrectly. Expected {expected} spaces but found {found}."

end DocProblem

/-- A place in a comment. -/
inductive Place where
  /-- The opening line. -/
  | start
  /-- The line with this number, where the opening line is line zero. -/
  | line (number : Nat)
  /-- The closing line. -/
  | stop
  deriving DecidableEq, Repr

/-- A problem and its place. -/
structure Finding where
  /-- What is wrong. -/
  problem : DocProblem
  /-- Where it is wrong. -/
  place : Place
  deriving DecidableEq, Repr

/-! ## Contents -/

/-- What is wrong with the content of a tag, for the tags whose content is checked. -/
def DocSchema.contentProblem? (schema : DocSchema) (tag : DocTag) : Option DocProblem :=
  let content := Text.trim tag.content.toList
  if tag.name == "package" || tag.name == "subpackage" then
    if content.isEmpty then some (.noPackageName tag.name) else none
  else if tag.name == "version" then
    if content.isEmpty then some .noVersion
    else if (Text.cutAt schema.revisionMarker.toList content).isSome then none
    else some (.badVersion (String.ofList content))
  else if tag.name == "var" then if content.isEmpty then some .noType else none
  else none

/-! ## Descriptions -/

namespace DocBlock

/-- The lines of the short description. -/
def shortLines (doc : DocBlock) : Nat := Text.newlines doc.short + 1

/-- Whether the tags are not separated from the descriptions by one blank line. -/
def isTight (doc : DocBlock) : Bool := !doc.tags.isEmpty && doc.newlinesBeforeTags != 2

/-- Newlines in front of the short description. -/
def leadFindings (doc : DocBlock) : List Finding :=
  let leading := (doc.short.toList.takeWhile (· == '\n')).length
  if leading = 0 then [] else [⟨.leadingNewlines (1 < leading), .line 1⟩]

/-- The gap between the descriptions. -/
def betweenFindings (doc : DocBlock) : List Finding :=
  if doc.long.isEmpty || doc.newlinesBetween == 2 then []
  else [⟨.gapBetween, .line (doc.shortLines + 1)⟩]

/-- The line that is reached in front of the long description. -/
def reached (doc : DocBlock) : Checked Nat :=
  if doc.long.isEmpty then .ok doc.shortLines else plus doc.shortLines doc.newlinesBetween

/-- The gap in front of the tags, where `reached` is the line in front of the long description. -/
def beforeTagsFindings (doc : DocBlock) (reached : Nat) : Checked (List Finding) := do
  if !doc.isTight then return []
  if doc.long.isEmpty then return [⟨.gapBeforeTags, .line reached⟩]
  let behind ← plus (← plus reached (Text.newlines doc.long)) 1
  return [⟨.gapBeforeTags, .line (behind - doc.newlinesBeforeTags)⟩]

/-- A short description with several lines. Its end is not looked at where the tags follow it
without a gap of one line. -/
def severalFindings (doc : DocBlock) : List Finding :=
  let short := doc.short.toList
  let short :=
    if doc.isTight then Text.dropEndWhile (fun c => c == '\n' || c == ' ') short else short
  if (Text.trim short).contains '\n' then [⟨.severalLines, .line 1⟩] else []

end DocBlock

/-- The first pass: its findings, and whether they end the validation. -/
def DocSchema.descriptionFindings (schema : DocSchema) (doc : DocBlock) :
    Checked (List Finding × Bool) := do
  if doc.isEmpty then return ([⟨.emptyBlock, .start⟩], true)
  let single := schema.short == .singleLine
  if single && Text.allBlank doc.short then return ([⟨.noShort, .start⟩], true)
  let before ← doc.beforeTagsFindings (← doc.reached)
  let several := if single then doc.severalFindings else []
  let found := doc.leadFindings ++ doc.betweenFindings ++ before ++ several
  match doc.tags.find? fun tag => !schema.accepts tag.name with
  | some tag => return (found ++ [⟨.foreignTag tag.name, .line tag.line⟩], true)
  | none => return (found, false)

/-! ## Tags -/

/-- The state of the second pass. -/
structure TagPass where
  /-- The largest first position among the tags that were in order. -/
  reached : Nat := 0
  /-- The length in bytes of the longest name among the tags that were checked. -/
  longest : Nat := 0
  /-- The tags whose indentation is to be checked. -/
  indented : List DocTag := []
  /-- What was found, in order. -/
  findings : List Finding := []

namespace TagPass

/-- The occurrences of a tag that do not stand side by side with the first one, which has position
`first`. -/
def scattered (spec : TagSpec) (first : Nat) (occurrences : List (DocTag × Nat)) : List Finding :=
  (occurrences.zipIdx first).filterMap fun ((tag, position), expected) =>
    if position = expected then none else some ⟨.scatteredTag spec.name, .line tag.line⟩

/-- What is found about the number of occurrences. -/
def numberFindings (spec : TagSpec) (tag : DocTag) (first : Nat)
    (occurrences : List (DocTag × Nat)) : List Finding :=
  if occurrences.length ≤ 1 then []
  else if spec.multiple then scattered spec first occurrences
  else [⟨.repeatedTag spec.name, .line tag.line⟩]

/-- What is found about the place of the first occurrence, if tags up to the position `reached` were
taken in. -/
def placeFindings (reached : Nat) (spec : TagSpec) (tag : DocTag) (first : Nat) : List Finding :=
  match spec.placement with
  | .ordered =>
    if reached < first then [] else [⟨.wrongOrder spec.name spec.orderText, .line tag.line⟩]
  | .first => if first = 1 then [] else [⟨.notFirst spec.name, .line tag.line⟩]

/-- What is found about the contents. -/
def contentFindings (schema : DocSchema) (checked : List DocTag) : List Finding :=
  checked.filterMap fun tag =>
    (schema.contentProblem? tag).map fun problem => ⟨problem, .line tag.line⟩

/-- Checks a tag of the schema that the block has: `tag` at position `first` is its first
occurrence, and `checked` are those whose content is looked at. -/
def check (schema : DocSchema) (pass : TagPass) (spec : TagSpec) (tag : DocTag) (first : Nat)
    (occurrences : List (DocTag × Nat)) (checked : List DocTag) : TagPass where
  reached := max pass.reached first
  longest := max pass.longest spec.name.utf8ByteSize
  indented := pass.indented ++ checked.filter fun tag => !Text.allBlank tag.content
  findings := pass.findings ++ numberFindings spec tag first occurrences ++
    placeFindings pass.reached spec tag first ++ contentFindings schema checked

/-- Notes a finding, and nothing else. -/
def note (pass : TagPass) (finding : Finding) : TagPass :=
  { pass with findings := pass.findings ++ [finding] }

/-- How many occurrences of a tag have their content looked at: all those of a multiple tag, and
the first one of a single tag. -/
def checkedCount (spec : TagSpec) (occurrences : List (DocTag × Nat)) : Nat :=
  if spec.multiple then occurrences.length else 1

/-- Takes in one tag of the schema. -/
def step (schema : DocSchema) (doc : DocBlock) (pass : TagPass) (spec : TagSpec) :
    Checked TagPass := do
  let occurrences := doc.occurrences spec.name
  match occurrences with
  | [] => return if spec.required then pass.note ⟨.missingTag spec.name, .stop⟩ else pass
  | (tag, first) :: others =>
    if spec.discouraged then return pass.note ⟨.discouragedTag spec.name, .stop⟩
    if !others.isEmpty && !spec.multiple && spec.placement == .first then
      return pass.note ⟨.repeatedFirstTag spec.name, .line tag.line⟩
    let checked ← firstOf (checkedCount spec occurrences) occurrences
    return check schema pass spec tag first occurrences (checked.map (·.1))

/-- Takes in all tags of the schema. -/
def run (schema : DocSchema) (doc : DocBlock) : Checked TagPass :=
  schema.tags.foldlM (step schema doc) {}

end TagPass

/-! ## Indentation -/

/-- The third pass for one tag, where `longest` is the length of the longest name. -/
def DocSchema.indentationFinding (schema : DocSchema) (longest : Nat) (tag : DocTag) :
    Checked (Option Finding) := do
  let found := tag.spacing
  match schema.indentation with
  | .aligned padding =>
    let distance ← minus longest tag.name.utf8ByteSize
    let expected ← plus distance padding
    return if found = expected then none
      else some ⟨.misaligned tag.name expected found, .line tag.line⟩
  | .fixed expected =>
    return if found = expected then none
      else some ⟨.misindented tag.name expected found, .line tag.line⟩

/-! ## All passes -/

/-- Everything that is wrong with a block. -/
def DocSchema.findings (schema : DocSchema) (doc : DocBlock) : Checked (List Finding) := do
  let (found, final) ← schema.descriptionFindings doc
  if final then return found
  let pass ← TagPass.run schema doc
  let indentation ← pass.indented.mapM (schema.indentationFinding pass.longest)
  return found ++ pass.findings ++ indentation.filterMap id

end PhpStyle
