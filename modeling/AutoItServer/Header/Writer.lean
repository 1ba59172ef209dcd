import AutoItServer.Function.Parameter

/-!
Writing a fresh header for a function.

* `Header.syntaxFor`: the call as shown, with each parameter that has a default value in brackets
  that close together at the end.
* `Header.generate`: the lines of the header.
-/

namespace AutoItServer

namespace Header

/-- `n` times the character `c`. -/
def run (n : Nat) (c : Char) : Text :=
  List.replicate n c

/-- A labelled line. Dots fill up to a common width, and there is at least one. -/
def labelLine (label text : Text) : Text :=
  let dots := run (max (14 - label.length) 1) '.'
  "; ".toList ++ label ++ ' ' :: dots ++ ':' :: (if text.isEmpty then [] else ' ' :: text)

/-- The parameters of a syntax line. `first` is false after the first one. -/
def syntaxParams (first : Bool) : List Parameter → Text
  | [] => []
  | p :: ps =>
    (if p.default.isSome then ['['] else []) ++ (if first then [] else ", ".toList) ++
      { p with isConst := false }.render ++ syntaxParams false ps

/-- The syntax line of a function. -/
def syntaxFor (name : Text) (params : List Parameter) : Text :=
  name ++ '(' :: syntaxParams true params ++
    run (params.filter fun p => p.default.isSome).length ']' ++ [')']

/-- What a fresh header says about a parameter. -/
def paramText (p : Parameter) : Text :=
  (if p.byRef then "[in/out] ".toList else []) ++
    (if p.default.isSome then "[optional] ".toList else []) ++ "A value.".toList ++
    match p.default with
    | some value => " Default is ".toList ++ value ++ ['.']
    | none => []

/-- The name, filled up with spaces to twenty characters, and what is said about the parameter. -/
def paramLine (p : Parameter) : Text :=
  p.name ++ run (20 - p.name.length) ' ' ++ " - ".toList ++ paramText p

/-- The lines for the parameters. -/
def paramLines : List Parameter → List Text
  | [] => [labelLine "Parameters".toList "None".toList]
  | p :: ps =>
    labelLine "Parameters".toList (paramLine p) ::
      ps.map fun q => ';' :: run 18 ' ' ++ paramLine q

/-- The lines of a fresh header. -/
def generate (name : Text) (params : List Parameter) : List Text :=
  ["; #FUNCTION# ".toList ++ run 116 '=',
    labelLine "Name".toList name,
    labelLine "Description".toList [],
    labelLine "Syntax".toList (syntaxFor name params)] ++
  paramLines params ++
  ["Return values", "Author", "Modified", "Remarks", "Related", "Link"].map
    (fun label => labelLine label.toList []) ++
  [labelLine "Example".toList "No".toList, "; ".toList ++ run 127 '=']

end Header

end AutoItServer
