import Stencil.Syntax.Location

/-!
# Faults of a template source

Each fault has the location where it is found, and one message.
-/

namespace Stencil

/-- The words that are directives, and no functions. -/
inductive Directive where
  | branch
  | alternative
  | close
  | loop
  | inclusion
  | block
  | base
  deriving DecidableEq, Repr

def Directive.keyword : Directive → String
  | .branch => "if"
  | .alternative => "else"
  | .close => "end"
  | .loop => "foreach"
  | .inclusion => "include"
  | .block => "block"
  | .base => "extends"

def Directive.all : List Directive := [.branch, .alternative, .close, .loop, .inclusion, .block, .base]

/-- The directive of a word. -/
def Directive.ofKeyword? (word : String) : Option Directive := all.find? fun d => d.keyword == word

/-- What is wrong with the parameters of a directive. -/
inductive HeaderFault where
  | nameMissing
  | itemMissing
  | inMissing
  | collectionMissing
  | conditionMissing
  | baseMissing
  deriving DecidableEq, Repr

def HeaderFault.message : HeaderFault → String
  | .nameMissing => "Name not specified"
  | .itemMissing => "Iterate name not found"
  | .inMissing => "'in' not found"
  | .collectionMissing => "Model not found"
  | .conditionMissing => "Condition not found"
  | .baseMissing => "Base template name not specified"

inductive ParseError where
  /-- The scanner stopped with a message. -/
  | lex (message : String) (location : Location)
  /-- An `end` or `else` that belongs to no open directive. -/
  | unboundEnd (directive : Directive) (location : Location)
  /-- A directive without its `end`. -/
  | unclosed (directive : Directive) (location : Location)
  | invalid (directive : Directive) (fault : HeaderFault) (location : Location)
  /-- A parameter that no directive takes and that is no model path. -/
  | unexpectedParameter (value : String) (location : Location)
  | extendsNotFirst (location : Location)
  | contentOutsideBlock (location : Location)
  deriving DecidableEq, Repr

namespace ParseError

def location : ParseError → Location
  | .lex _ l => l
  | .unboundEnd _ l => l
  | .unclosed _ l => l
  | .invalid _ _ l => l
  | .unexpectedParameter _ l => l
  | .extendsNotFirst l => l
  | .contentOutsideBlock l => l

def message : ParseError → String
  | .lex message l => s!"{message} ({l.text})"
  | .unboundEnd directive l => s!"unbound '{directive.keyword}' at {l.text}"
  | .unclosed directive l => s!"'{directive.keyword}' opened at {l.text} is never closed with 'end'"
  | .invalid directive fault l => s!"invalid {directive.keyword} at {l.text}: {fault.message}"
  | .unexpectedParameter value l => s!"unexpected parameter '{value}' at {l.text}"
  | .extendsNotFirst l => s!"extends must appear at the beginning of the template ({l.text})"
  | .contentOutsideBlock l => s!"a template that extends another can only contain blocks ({l.text})"

end ParseError

end Stencil
