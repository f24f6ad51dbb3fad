import Stencil.Number.Decimal
import Stencil.Syntax.ParseError

/-!
# Errors

The causes for which reading, rendering or loading a template fails. The wording of each cause is in its `message`.
An error on the way out of a template whose source is known is marked with the path of that source; `Error.cause` looks
through these marks.
-/

namespace Stencil

/-- Why a value cannot be used as a value of another type. -/
inductive ConversionFault where
  | noConversion (source target : String)
  | notBoolean (text : String)
  | notInteger (text : String) (fault : IntegerFault)
  | notNumber (text : String) (fault : FloatFault)
  | notDate (text : String)
  /-- A typed parameter of a function got a value of another type. -/
  | mismatch (expected got : String)
  /-- A parameter for one value got a list of strings. -/
  | notSingle
  deriving DecidableEq, Repr

def ConversionFault.message : ConversionFault → String
  | .noConversion source target => s!"cannot convert {source} to {target}"
  | .notBoolean text => s!"'{text}' is not a valid boolean"
  | .notInteger text fault => s!"'{text}' is not a valid integer: {fault.message}"
  | .notNumber text fault => s!"'{text}' is not a valid number: {fault.message}"
  | .notDate text => s!"'{text}' is not a valid date"
  | .mismatch expected got => s!"expected {expected}, got {got}"
  | .notSingle => "expected a single value"

/-- Why a number or a date cannot be written by a pattern. -/
inductive FormatFault where
  | datePattern
  | precision
  | precisionRange
  | integerRequired
  | unsupported
  deriving DecidableEq, Repr

def FormatFault.message : FormatFault → String
  | .datePattern => "invalid date pattern"
  | .precision => "invalid precision"
  | .precisionRange => "precision out of range"
  | .integerRequired => "'D' requires an integer"
  | .unsupported => "unsupported numeric format"

/-- Why a file cannot be found or read. -/
inductive FileFault where
  | notFound
  | notADirectory
  | isADirectory
  | tooManyLinks
  | nameTooLong
  /-- A path may hold any character but the one with code 0. -/
  | nulInPath
  | notText
  deriving DecidableEq, Repr

def FileFault.message : FileFault → String
  | .notFound => "No such file or directory (os error 2)"
  | .notADirectory => "Not a directory (os error 20)"
  | .isADirectory => "Is a directory (os error 21)"
  | .tooManyLinks => "Too many levels of symbolic links (os error 40)"
  | .nameTooLong => "File name too long (os error 36)"
  | .nulInPath => "file name contained an unexpected NUL byte"
  | .notText => "stream did not contain valid UTF-8"

/-- What is wrong with the name of a template that is to be loaded. -/
inductive NameFault where
  | traversal
  | empty
  | badSegment (segment : String)
  deriving DecidableEq, Repr

def NameFault.message : NameFault → String
  | .traversal => "path traversal"
  | .empty => "empty name"
  | .badSegment segment => s!"bad segment '{segment}'"

/-- Why a template cannot be loaded by name. -/
inductive LoadFault where
  | invalidRoot (fault : FileFault)
  | unresolved (fault : FileFault)
  | invalidName (name : String) (fault : NameFault)
  | outsideRoot (path : String)
  | noFile (name path : String)
  deriving DecidableEq, Repr

def LoadFault.message : LoadFault → String
  | .invalidRoot fault => s!"Invalid template root: {fault.message}"
  | .unresolved fault => s!"Failed to resolve template path: {fault.message}"
  | .invalidName name fault => s!"Invalid template name '{name}': {fault.message}"
  | .outsideRoot path => s!"Path traversal detected: {path}"
  | .noFile name path => s!"Template file not found: {name} ({path})"

inductive Error where
  | parse (error : ParseError)
  | unknownFunction (name : String)
  | argumentCount (name : String) (expected received : Nat)
  | parameterConversion (name : String) (index : Nat) (fault : ConversionFault)
  /-- The parameter at a position is of a kind that only the last one may have. -/
  | invalidSignature (name : String) (index : Nat)
  | function (name message : String)
  | notAList (name index : String)
  | notADictionary (name index : String)
  | invalidIndex (name index : String)
  /-- The value of the condition of a branch is no truth value. -/
  | conditionType (location : Location) (fault : ConversionFault)
  | baseTemplateNotFound (name : String)
  | circularReference (name : String)
  | format (fault : FormatFault) (pattern : String)
  | load (fault : LoadFault)
  | file (fault : FileFault)
  /-- Templates in values nest deeper than any render is followed. -/
  | nestingLimit
  /-- An error in the template whose source has a path. -/
  | within (path : String) (cause : Error)
  deriving DecidableEq, Repr

namespace Error

/-- The innermost error. -/
def cause : Error → Error
  | .within _ e => e.cause
  | e => e

/-- The paths of the sources around the innermost error, from the outside in. -/
def trail : Error → List String
  | .within path e => path :: e.trail
  | _ => []

def message : Error → String
  | .parse e => e.message
  | .unknownFunction name => s!"Invalid function: {name}"
  | .argumentCount name expected received =>
    s!"The function {name} is expecting {expected} parameters and receives {received}"
  | .parameterConversion name index fault =>
    s!"Error converting parameter {index} in {name}: {fault.message}"
  | .invalidSignature name index =>
    s!"The function {name} has an invalid signature: parameter {index} must be the last one"
  | .function name message => s!"Function {name} failed: {message}"
  | .notAList name index => s!"Can't access {name} by index {index} because it is not a list"
  | .notADictionary name index => s!"Can't access {name} by key {index} because it is not a dictionary"
  | .invalidIndex name index => s!"Invalid index '{index}' for {name}"
  | .conditionType location fault => s!"Type error: if condition at {location.text}: {fault.message}"
  | .baseTemplateNotFound name => s!"Base template not found: {name}"
  | .circularReference name => s!"Circular template reference detected: {name}"
  | .format fault pattern => s!"Format error: {fault.message}: '{pattern}'"
  | .load fault => s!"Include error: {fault.message}"
  | .file fault => s!"IO error: {fault.message}"
  | .nestingLimit => "Templates nested too deeply"
  | .within path e => s!"Error at {path}: {e.message}"

end Error

end Stencil
