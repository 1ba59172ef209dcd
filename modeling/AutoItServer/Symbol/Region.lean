import AutoItServer.Source.Comment

/-!
Regions: the lines between `#Region` and the `#EndRegion` that matches it.

* `Region.name`: the name that a `#Region` line gives.
* `Region.end?`: where the region ends whose first line the given lines follow.
-/

namespace AutoItServer

namespace Region

/-- The name on a `#Region` line: what follows the blanks and dashes after the word. -/
def name (line : Text) : Text :=
  match Text.afterFolded? "#region".toList (line.dropWhile isIndent) with
  | some rest =>
    if Text.endsWord rest then Text.trim (rest.dropWhile fun c => isBlank c || c == '-') else []
  | none => []

/-- The byte offset at which the `#EndRegion` line ends that closes the region, when `inner` inner
regions and `depth` block comments are open. -/
def endFrom? (inner depth : Nat) : List Line → Option Nat
  | [] => none
  | l :: ls =>
    let depth' := Source.depthAfter depth l.text
    if Source.hides depth l.text then endFrom? inner depth' ls
    else if Source.isRegionStart l.text then endFrom? (inner + 1) depth' ls
    else if Source.isRegionEnd l.text then
      if inner = 0 then some (l.offset + Text.byteLength l.text) else endFrom? (inner - 1) depth' ls
    else endFrom? inner depth' ls

/-- Where the region ends whose first line the given lines follow. -/
def end? (following : List Line) : Option Nat :=
  endFrom? 0 0 following

end Region

end AutoItServer
