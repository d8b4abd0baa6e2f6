import Nominal.Text.Quoted

/-!
# What can be wrong with a program

A `Cause` says what is wrong, without saying where. Its name, its message and its tip are three
functions of it, so that the rules which report a cause never handle wording.
-/

namespace Nominal

/-- A typing rule that was broken. -/
inductive TypingFault where
  /-- A `val` without a value. -/
  | uninitialised (name : String)
  /-- An inferred type that variables can not have. -/
  | unstorable (name type : String)
  /-- Neither a type nor a value is given. -/
  | untyped (name : String)
  /-- An annotation names a type that values can not have. -/
  | notForValues (type : String)
  /-- The body of a function, or of a lambda when there is no name, never returns. -/
  | missingReturn (function : Option String)
  /-- The left side of an assignment names no place. -/
  | notAssignable
  /-- An operator has overloads, but none for these operands. -/
  | noOverload (name : String) (arguments : List String)
  /-- `new` is applied to a type that is no class. -/
  | notInstantiable (type : String)
  /-- Any other fault, in words. -/
  | other (message : String)
  deriving DecidableEq

/-- What is wrong. -/
inductive Cause where
  | unrecognisedToken (text : String)
  | unexpectedToken (text : String)
  | unexpectedTokenDetailed (text detail : String)
  | invalidNumber (text : String)
  | unterminatedString
  | wrongType (expected provided : String)
  | undefinedType (name : String)
  | alreadyDefinedType (name : String)
  | undefinedMember (owner member : String)
  | alreadyDefinedMember (owner member : String)
  | undefinedVariable (name : String)
  | alreadyDefinedVariable (name : String)
  | assignmentToConst (name : String)
  | arity (callee : String) (expected provided : Nat)
  | invalidReturn
  | typing (fault : TypingFault)
  | nestingTooDeep (limit : Nat)
  deriving DecidableEq

/-- A broken typing rule in words. -/
def TypingFault.message : TypingFault → String
  | uninitialised name => s!"Immutable variable {name} must be initialized"
  | unstorable name type => s!"Variable {name} can not hold a value of type {type}"
  | untyped name =>
    s!"Variable {name} needs to be explicitly typed, as it does not get initialized immediately"
  | notForValues type => s!"Type {type} can not be used for values"
  | missingReturn (some name) => s!"Missing return statement in function {name}"
  | missingReturn none => "Missing return statement in lambda"
  | notAssignable => "Only variables and members can be assigned to"
  | noOverload name arguments =>
    let types := ", ".intercalate arguments
    s!"No overload of {name} matches the arguments ({types})"
  | notInstantiable type => s!"Type {type} can not be instantiated"
  | other message => message

namespace Cause

/-- The word that names the kind of error. -/
def name : Cause → String
  | unrecognisedToken _ => "UnrecognisedToken"
  | unexpectedToken _ => "UnexpectedToken"
  | unexpectedTokenDetailed _ _ => "UnexpectedTokenDetailed"
  | invalidNumber _ => "NumberParseError"
  | unterminatedString => "UnterminatedString"
  | wrongType _ _ => "WrongType"
  | undefinedType _ => "UndefinedType"
  | alreadyDefinedType _ => "AlreadyDefinedType"
  | undefinedMember _ _ => "UndefinedMember"
  | alreadyDefinedMember _ _ => "AlreadyDefinedMember"
  | undefinedVariable _ => "UndefinedVariable"
  | alreadyDefinedVariable _ => "AlreadyDefinedVariable"
  | assignmentToConst _ => "AssignmentToConst"
  | arity _ _ _ => "ArityError"
  | invalidReturn => "InvalidReturn"
  | typing _ => "TypingError"
  | nestingTooDeep _ => "NestingTooDeep"

/-- What is wrong, in words. -/
def message : Cause → String
  | unrecognisedToken text => "unrecognised token: " ++ quoted text
  | unexpectedToken text => "unexpected token: " ++ quoted text
  | unexpectedTokenDetailed text detail =>
    "unexpected token (" ++ quoted detail ++ "): " ++ quoted text
  | invalidNumber text => "error parsing number: " ++ quoted text
  | unterminatedString => "unterminated string literal"
  | wrongType expected provided =>
    s!"Expected type {expected} does not equal provided type {provided}"
  | undefinedType name => s!"Undefined type {name}"
  | alreadyDefinedType name => s!"Already defined type {name}"
  | undefinedMember owner member => s!"Undefined member {member} in {owner}"
  | alreadyDefinedMember owner member => s!"Already defined member {member} in {owner}"
  | undefinedVariable name => s!"Undefined variable {name}"
  | alreadyDefinedVariable name => s!"Already defined variable {name}"
  | assignmentToConst name => s!"Constant variable {name} can not be mutated"
  | arity callee expected provided =>
    s!"The function {callee} requires {expected} arguments, but you provided {provided}"
  | invalidReturn => "You can only return from a function context"
  | typing fault => fault.message
  | nestingTooDeep limit => s!"Maximum nesting depth of {limit} exceeded"

/-- How to mend it, for the causes that have an obvious remedy. -/
def tip? : Cause → Option String
  | unexpectedToken text => some s!"Unexpected token: `{text}`, did you miss a semicolon?"
  | unexpectedTokenDetailed text detail => some s!"Unexpected token: `{text}`, {detail}"
  | invalidNumber text => some s!"Invalid number: `{text}`, is it above the integer limit?"
  | unterminatedString => some "Close the string literal with `\"`"
  | assignmentToConst name => some s!"Declare `{name}` with `var` to make it mutable"
  | nestingTooDeep _ => some "Split the expression or statement into smaller parts"
  | _ => none

end Cause

end Nominal
