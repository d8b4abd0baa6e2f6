/-!
# Kinds of tokens

The terminal symbols of the language, the names they are reported by, and the reserved words.
-/

namespace Nominal

/-- The terminal symbols. Constructors that start with `kw` are reserved words. -/
inductive Kind where
  | eof
  | number
  | string
  | identifier
  | openCurly
  | closeCurly
  | openParen
  | closeParen
  | assignment
  | equals
  | not
  | notEquals
  | less
  | lessEquals
  | greater
  | greaterEquals
  | dot
  | semicolon
  | colon
  | comma
  | arrow
  | plus
  | dash
  | slash
  | star
  | kwVal
  | kwVar
  | kwFun
  | kwClass
  | kwNew
  | kwReturn
  | kwIf
  | kwElse
  | kwWhile
  | kwPrint
  | kwTrue
  | kwFalse
  deriving DecidableEq, Inhabited

namespace Kind

/-- The name a kind is reported by. -/
def name : Kind → String
  | eof => "EOF"
  | number => "Number"
  | string => "String"
  | identifier => "Identifier"
  | openCurly => "OpenCurly"
  | closeCurly => "CloseCurly"
  | openParen => "OpenParen"
  | closeParen => "CloseParen"
  | assignment => "Assignment"
  | equals => "Equals"
  | not => "Not"
  | notEquals => "NotEquals"
  | less => "Less"
  | lessEquals => "LessEquals"
  | greater => "Greater"
  | greaterEquals => "GreaterEquals"
  | dot => "Dot"
  | semicolon => "Semicolon"
  | colon => "Colon"
  | comma => "Comma"
  | arrow => "Arrow"
  | plus => "Plus"
  | dash => "Dash"
  | slash => "Slash"
  | star => "Star"
  | kwVal => "Val"
  | kwVar => "Var"
  | kwFun => "Fun"
  | kwClass => "Class"
  | kwNew => "New"
  | kwReturn => "Return"
  | kwIf => "If"
  | kwElse => "Else"
  | kwWhile => "While"
  | kwPrint => "Print"
  | kwTrue => "True"
  | kwFalse => "False"

/-- The reserved words and their kinds. -/
def reserved : List (String × Kind) :=
  [("val", kwVal), ("var", kwVar), ("fun", kwFun), ("class", kwClass), ("new", kwNew),
   ("return", kwReturn), ("if", kwIf), ("else", kwElse), ("while", kwWhile), ("print", kwPrint),
   ("true", kwTrue), ("false", kwFalse)]

/-- The kind of a reserved word. -/
def ofReserved? (word : String) : Option Kind :=
  reserved.lookup word

/-- The kind of a word, which is an identifier unless it is reserved. -/
def ofWord (word : String) : Kind :=
  (ofReserved? word).getD identifier

/-- The marks of punctuation and their kinds. A mark stands before every shorter mark that begins
it, so the first one that fits is the longest. -/
def marks : List (String × Kind) :=
  [("\x7b", openCurly), ("\x7d", closeCurly), ("(", openParen), (")", closeParen), ("==", equals),
   ("!=", notEquals), ("!", not), ("=", assignment), ("<=", lessEquals), ("<", less),
   (">=", greaterEquals), (">", greater), (".", dot), (";", semicolon), (":", colon),
   (",", comma), ("->", arrow), ("+", plus), ("-", dash), ("/", slash), ("*", star)]

end Kind

end Nominal
