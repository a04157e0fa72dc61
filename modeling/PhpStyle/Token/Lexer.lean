import PhpStyle.Text.Bytes
import PhpStyle.Token.Builder

/-!
# Cutting a source text into tokens

A `Lexer` holds what is left of the text, and `Lexer.emit` cuts a token of a given number of bytes
off its front. How many bytes a token has is computed in a different way for each sort of token.
Nothing in these computations says that a token ends where a character ends, or that it has a
character at all: a cut inside a character or behind the end stops the lexer, and so does a turn of
one of its loops that cuts nothing off, since such a turn would be repeated for ever.

* `Lexer.inlineHtml`, `Lexer.code` — what is cut off outside and inside the tags.
* `Lexer.run` — the two in turn, until nothing is left.
* `lex` — the kinds and texts of a source text, or the fault that stopped the lexer.
* `TokenSeq.ofSource` — the linked token sequence of a source text.
-/

namespace PhpStyle

/-! ## Words -/

/-- The characters of a name, namespace separators included. -/
def isWordChar (c : Char) : Bool := c.isAlphanum || c == '_' || c == '\\'

/-- The characters a name may start with. -/
def isWordStart (c : Char) : Bool := c.isAlpha || c == '_' || c == '\\'

/-- The kind of a word; capitals are read as small letters. -/
def wordKind (word : List Char) : Kind :=
  match String.ofList (word.map Char.toLower) with
  | "class" => .kwClass
  | "interface" => .kwInterface
  | "abstract" => .kwAbstract
  | "final" => .kwFinal
  | "extends" => .kwExtends
  | "implements" => .kwImplements
  | "function" => .kwFunction
  | "new" => .kwNew
  | "switch" => .kwSwitch
  | "case" => .kwCase
  | "default" => .kwDefault
  | "break" => .kwBreak
  | "return" => .kwReturn
  | "throw" => .kwThrow
  | "if" | "else" | "elseif" | "for" | "foreach" | "while" | "do" | "try" | "catch" =>
    .controlKeyword
  | "public" | "protected" | "private" | "static" | "var" | "const" | "echo" | "print"
  | "require" | "require_once" | "include" | "include_once" | "instanceof" | "as" | "global"
  | "continue" | "isset" | "unset" | "empty" | "array" | "list" => .keyword
  | _ => .identifier

/-! ## Sizes

How many bytes belong to the token at the front of a text. -/

/-- The size of the front with the property `p`. -/
def frontSize (p : Char → Bool) (cs : List Char) : Nat :=
  (Text.find? (!p ·) cs).getD (Text.size cs)

/-- The size of everything up to and including the first `needle`, or of the whole text. -/
def throughSize (needle cs : List Char) : Nat :=
  match Text.findText? needle cs with
  | some byte => byte + Text.size needle
  | none => Text.size cs

/-- The byte behind the next `quote` that no backslash escapes, or behind the end of the text. The
characters stand from byte `byte` on, and `escaped` says whether a backslash stands in front. -/
def stringEnd (quote : Char) (escaped : Bool) (byte : Nat) : List Char → Nat
  | [] => byte
  | c :: cs =>
    if escaped then stringEnd quote false (byte + c.utf8Size) cs
    else if c = '\\' then stringEnd quote true (byte + c.utf8Size) cs
    else if c = quote then byte + 1
    else stringEnd quote false (byte + c.utf8Size) cs

/-- The size of a string that `quote` opens and closes. Its first character is not looked at. -/
def stringSize (quote : Char) : List Char → Nat
  | [] => 0
  | c :: cs => stringEnd quote false c.utf8Size cs

/-- The names of the types that a value can be cast to. -/
def castTypes : List String :=
  ["int", "integer", "bool", "boolean", "float", "double", "real", "string", "array", "object",
    "unset"]

/-- Whether the text between parentheses is a type name, perhaps between spaces and tabs. -/
def isCastType (inner : List Char) : Bool :=
  let isGap (c : Char) : Bool := c == ' ' || c == '\t'
  let name := Text.dropEndWhile isGap (inner.dropWhile isGap)
  castTypes.contains (String.ofList (name.map Char.toLower))

/-- The size of the cast at the front of a text that starts with a parenthesis. -/
def castSize? (cs : List Char) : Checked (Option Nat) := do
  match Text.findText? [')'] cs with
  | none => return none
  | some close =>
    let (front, _) ← Text.cut close cs
    let (_, inner) ← Text.cut 1 front
    return if isCastType inner then some (close + 1) else none

/-- The operators of several characters, each before those it starts with. -/
def longOperators : List String :=
  ["===", "!==", "<=>", "**=", "==", "!=", "<>", "<=", ">=", "=>", "&&", "||", "++", "--", "+=",
    "-=", "*=", "/=", ".=", "%=", "??", "<<", ">>"]

/-- The size of the operator at the front of a text that starts with `c`. -/
def operatorSize (c : Char) (cs : List Char) : Nat :=
  match longOperators.find? fun op => op.toList.isPrefixOf cs with
  | some op => op.utf8ByteSize
  | none => c.utf8Size

/-- The size of the line end or space that belongs to the tag in front of it. -/
def gapSize (cs : List Char) : Nat :=
  if "\r\n".toList.isPrefixOf cs then 2
  else if cs.head?.any fun c => c == '\n' || c == ' ' then 1
  else 0

/-- The sizes of the lines of a text that ends at byte `stop`. The characters stand from byte `byte`
on, and the line that they continue starts at byte `start`. -/
def lineSizes (stop start byte : Nat) : List Char → Checked (List Nat)
  | [] => return if start < stop then [stop - start] else []
  | c :: cs => do
    if c = '\n' then
      return (← minus (byte + 1) start) :: (← lineSizes stop (byte + 1) (byte + c.utf8Size) cs)
    else lineSizes stop start (byte + c.utf8Size) cs

/-! ## Tokens -/

/-- The tag that begins code. -/
def openMark : List Char := "<?php".toList

/-- A text that is being cut. -/
structure Lexer where
  /-- What is left of the text. -/
  rest : List Char
  /-- The kinds and texts of the tokens so far. -/
  out : Array (Kind × String) := #[]

namespace Lexer

/-- Cuts a token of `len` bytes off the text. -/
def emit (l : Lexer) (kind : Kind) (len : Nat) : Checked Lexer := do
  let (text, rest) ← Text.cut len l.rest
  return { rest, out := l.out.push (kind, String.ofList text) }

/-- Cuts tokens of one kind off the text. -/
def emitAll (l : Lexer) (kind : Kind) (lens : List Nat) : Checked Lexer :=
  lens.foldlM (·.emit kind ·) l

/-- Blanks, cut after each newline. -/
def whitespace (l : Lexer) : Checked Lexer := do
  let len := frontSize Text.isBlank l.rest
  let (blanks, _) ← Text.cut len l.rest
  l.emitAll .whitespace (← lineSizes len 0 0 blanks)

/-- A documentation comment, cut after each newline. -/
def docComment (l : Lexer) : Checked Lexer := do
  let (comment, _) ← Text.cut (throughSize ['*', '/'] l.rest) l.rest
  l.emitAll .docComment ((Text.keepLines comment).map Text.size)

/-- An operator that starts with `c`. -/
def operator (l : Lexer) (c : Char) : Checked Lexer := l.emit .operator (operatorSize c l.rest)

/-- A token that starts with a character of its own: a bracket, a separator or an operator. -/
def punctuation (l : Lexer) (c : Char) : Checked Lexer :=
  match c with
  | ')' => l.emit .closeParen 1
  | '\x7b' => l.emit .openBrace 1
  | '\x7d' => l.emit .closeBrace 1
  | '[' => l.emit .openBracket 1
  | ']' => l.emit .closeBracket 1
  | ';' => l.emit .semicolon 1
  | ',' => l.emit .comma 1
  | ':' => if "::".toList.isPrefixOf l.rest then l.emit .doubleColon 2 else l.emit .colon 1
  | '-' => if "->".toList.isPrefixOf l.rest then l.emit .objectOperator 2 else l.operator c
  | _ => l.operator c

/-- The tokens at the front of code that starts with `c`, the closing tag apart. -/
def codeToken (l : Lexer) (c : Char) : Checked Lexer := do
  if Text.isBlank c then l.whitespace
  else if "/**".toList.isPrefixOf l.rest then l.docComment
  else if "/*".toList.isPrefixOf l.rest then l.emit .comment (throughSize ['*', '/'] l.rest)
  else if "//".toList.isPrefixOf l.rest || c == '#' then
    l.emit .comment (throughSize ['\n'] l.rest)
  else if c == '$' then
    let (_, name) ← Text.cut 1 l.rest
    l.emit .variableName (1 + frontSize isWordChar name)
  else if isWordStart c then
    let len := frontSize isWordChar l.rest
    let (word, _) ← Text.cut len l.rest
    l.emit (wordKind word) len
  else if c.isDigit then l.emit .literal (frontSize (fun d => d.isAlphanum || d == '.') l.rest)
  else if c == '\'' || c == '"' then l.emit .literal (stringSize c l.rest)
  else if c == '(' then
    match ← castSize? l.rest with
    | some len => l.emit .cast len
    | none => l.emit .openParen 1
  else l.punctuation c

/-! ## Loops -/

/-- Cuts off an opening tag, with the line end or space behind it. -/
def openTag (l : Lexer) : Checked Lexer := do
  let (_, behind) ← Text.cut (Text.size openMark) l.rest
  l.emit .openTag (Text.size openMark + gapSize behind)

/-- Cuts off the text in front of the next opening tag, and that tag. -/
def inlineHtml (l : Lexer) : Checked Lexer := do
  let len := (Text.findText? openMark l.rest).getD (Text.size l.rest)
  let l ← if 0 < len then l.emit .inlineHtml len else pure l
  if openMark.isPrefixOf l.rest then l.openTag else return l

/-- Cuts off code up to and including the next closing tag, with the newline behind it. -/
def code (l : Lexer) : Checked Lexer :=
  match l.rest with
  | [] => .ok l
  | c :: _ =>
    if "?>".toList.isPrefixOf l.rest then do
      let (_, behind) ← Text.cut 2 l.rest
      l.emit .closeTag (if behind.head? == some '\n' then 3 else 2)
    else
      match l.codeToken c with
      | .error fault => .error fault
      | .ok next => if next.rest.length < l.rest.length then next.code else .error .stuck
termination_by l.rest.length

/-- Cuts off markup and code in turn until nothing is left. -/
def run (l : Lexer) : Checked Lexer :=
  if l.rest.isEmpty then .ok l
  else
    match l.inlineHtml.bind code with
    | .error fault => .error fault
    | .ok next => if next.rest.length < l.rest.length then next.run else .error .stuck
termination_by l.rest.length

end Lexer

/-- The kinds and texts of a source text. -/
def lex (source : String) : Checked (List (Kind × String)) := do
  return (← Lexer.run { rest := source.toList }).out.toList

/-- The kinds and texts of a source text; none, if the lexer stops. -/
def lexemes (source : String) : List (Kind × String) :=
  match lex source with
  | .ok pairs => pairs
  | .error _ => []

/-- The linked token sequence of a source text. -/
def TokenSeq.ofSource (source : String) : TokenSeq := TokenSeq.ofPairs (lexemes source)

end PhpStyle
