import Stencil.Syntax.Location

/-!
# Tokens

A template source is cut into tokens. `{{` and `}}`, and the separators between arguments, belong to no token.
-/

namespace Stencil

inductive TokenKind where
  /-- Text outside directives. -/
  | text
  /-- Name of a directive or a function. -/
  | function
  /-- A model path or an argument, as written. -/
  | parameter
  /-- Where scanning stopped; the token's text is the message. -/
  | error
  deriving DecidableEq, Repr

def TokenKind.name : TokenKind → String
  | .text => "Text"
  | .function => "Function"
  | .parameter => "Parameter"
  | .error => "Error"

structure Token where
  kind : TokenKind
  text : String
  location : Location
  deriving DecidableEq, Repr

def Token.isParameter (t : Token) : Bool := t.kind == .parameter

end Stencil
