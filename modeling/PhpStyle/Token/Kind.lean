/-!
# Token kinds

The classes into which a tokenizer sorts the pieces of a source text, with the names under which
they are written and the three groups that the analyses ask for: trivia, keywords that own a brace
scope, and branch labels.
-/

namespace PhpStyle

/-- The class of a token. -/
inductive Kind where
  /-- The tag that begins code. -/
  | openTag
  /-- The tag that ends code. -/
  | closeTag
  /-- Text outside the tags. -/
  | inlineHtml
  | whitespace
  /-- A comment that is no documentation block. -/
  | comment
  /-- One line of a documentation block. -/
  | docComment
  | identifier
  /-- A variable with its dollar sign. -/
  | variableName
  /-- A keyword without a kind of its own, such as a visibility modifier. -/
  | keyword
  /-- A keyword of a loop, a condition or an exception block. -/
  | controlKeyword
  | kwClass
  | kwInterface
  | kwAbstract
  | kwFinal
  | kwExtends
  | kwImplements
  | kwFunction
  | kwNew
  | kwSwitch
  | kwCase
  | kwDefault
  | kwBreak
  | kwReturn
  | kwThrow
  /-- A type cast with its parentheses. -/
  | cast
  /-- A number or a quoted string. -/
  | literal
  | openParen
  | closeParen
  | openBrace
  | closeBrace
  | openBracket
  | closeBracket
  | colon
  | doubleColon
  | semicolon
  | comma
  | objectOperator
  | operator
  deriving DecidableEq, Repr

namespace Kind

/-- The written name of a kind. -/
def name : Kind → String
  | openTag => "open-tag"
  | closeTag => "close-tag"
  | inlineHtml => "inline-html"
  | whitespace => "whitespace"
  | comment => "comment"
  | docComment => "doc-comment"
  | identifier => "identifier"
  | variableName => "variable"
  | keyword => "keyword"
  | controlKeyword => "control-keyword"
  | kwClass => "class"
  | kwInterface => "interface"
  | kwAbstract => "abstract"
  | kwFinal => "final"
  | kwExtends => "extends"
  | kwImplements => "implements"
  | kwFunction => "function"
  | kwNew => "new"
  | kwSwitch => "switch"
  | kwCase => "case"
  | kwDefault => "default"
  | kwBreak => "break"
  | kwReturn => "return"
  | kwThrow => "throw"
  | cast => "cast"
  | literal => "literal"
  | openParen => "open-paren"
  | closeParen => "close-paren"
  | openBrace => "open-brace"
  | closeBrace => "close-brace"
  | openBracket => "open-bracket"
  | closeBracket => "close-bracket"
  | colon => "colon"
  | doubleColon => "double-colon"
  | semicolon => "semicolon"
  | comma => "comma"
  | objectOperator => "object-operator"
  | operator => "operator"

/-- Every kind, in the order of declaration. -/
def all : List Kind :=
  [openTag, closeTag, inlineHtml, whitespace, comment, docComment, identifier, variableName,
    keyword, controlKeyword, kwClass, kwInterface, kwAbstract, kwFinal, kwExtends, kwImplements,
    kwFunction, kwNew, kwSwitch, kwCase, kwDefault, kwBreak, kwReturn, kwThrow, cast, literal,
    openParen, closeParen, openBrace, closeBrace, openBracket, closeBracket, colon, doubleColon,
    semicolon, comma, objectOperator, operator]

/-- The kind with the given written name. -/
def ofName? (s : String) : Option Kind := all.find? (·.name == s)

/-- A kind is found under its own name. -/
@[simp] theorem ofName?_name (k : Kind) : ofName? k.name = some k := by
  cases k <;> decide

/-- Whitespace and both sorts of comment. -/
def isTrivia : Kind → Bool
  | whitespace | comment | docComment => true
  | _ => false

/-- The keywords that own the next brace scope. -/
def ownsScope : Kind → Bool
  | kwSwitch | kwClass | kwInterface | kwFunction | controlKeyword => true
  | _ => false

/-- The labels of the branches of a switch. -/
def isLabel : Kind → Bool
  | kwCase | kwDefault => true
  | _ => false

end Kind

end PhpStyle
