import AutoItServer.Text.Basic

/-!
Symbols: the named things of a document, with the bytes they stand on.
-/

namespace AutoItServer

/-- What a symbol names. -/
inductive SymbolKind where
  | function
  | variable
  | constant
  | enumeration
  | region
deriving Repr, DecidableEq

/-- A named thing of a document. A variable in a function has that function as its container;
`start` and `stop` are the byte offsets of its first character and of what follows its last one. -/
structure Symbol where
  name : Text
  kind : SymbolKind
  container : Option Text
  start : Nat
  stop : Nat
deriving Repr, DecidableEq

/-- Which symbols are wanted, and how many lines are looked at. -/
structure SymbolOptions where
  withVariables : Bool
  withRegions : Bool
  maxLines : Nat
deriving Repr, DecidableEq

end AutoItServer
