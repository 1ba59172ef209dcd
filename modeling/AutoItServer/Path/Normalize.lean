import AutoItServer.Path.Basic

/-!
Lexical normal forms of paths.

* `Path.normalize?`: the path without dots, each `..` taken together with the name before it. At the
  root, and at the start of a relative path, `..` has nothing to remove and is dropped.
* `Path.IsNormal`: no component is a dot or `..`.
-/

namespace AutoItServer

namespace Path

/-- Adds one component to components already free of dots, given from the last one on. -/
def push (stack : List Component) : Component → List Component
  | .parent => match stack with
    | .name _ :: rest => rest
    | stack => stack
  | .current => stack
  | c => c :: stack

/-- The components without dots. -/
def reduce (components : List Component) : List Component :=
  (components.foldl push []).reverse

/-- The normal form of a path; `none` if nothing is left of it. -/
def normalize? (p : Path) : Option Path :=
  match reduce p.components with
  | [] => none
  | parts => some (ofComponents parts)

/-- A path all of whose components are the root and names. -/
def IsNormal (p : Path) : Prop :=
  ∀ c ∈ p.components, c = .root ∨ c.isName

end Path

end AutoItServer
