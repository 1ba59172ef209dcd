import AutoItServer.Index.Basic

/-!
The workspace index: the symbols of source files, remembered between searches.

A build lists the source files, takes over the symbols it already has, and reads the other files.
After it the index is complete, until something is invalidated. Each invalidation starts a new
generation.

* `Index.build`: the symbols of the workspace, with the index and the file cache afterwards.
* `Index.snapshot`: what the index holds, sorted by path.
* `Index.matching`: the symbols whose names hold a query, in any case.
-/

namespace AutoItServer

/-- The symbols of one file. -/
abbrev IndexedFile := Path × List IndexedSymbol

/-- The remembered symbols by file. Generations are counted without limit; a counter of 64 bits
would meet an old one again after `2 ^ 64` invalidations. -/
structure Index where
  files : List IndexedFile
  complete : Bool
  generation : Nat
deriving Repr, DecidableEq

namespace Index

/-- Nothing is remembered. -/
def empty : Index :=
  ⟨[], false, 0⟩

/-- The symbols remembered for a file. -/
def find? (i : Index) (p : Path) : Option (List IndexedSymbol) :=
  (i.files.find? fun e => e.1.same p).map Prod.snd

/-- Forgets one file. -/
def invalidateFile (i : Index) (p : Path) : Index :=
  ⟨i.files.filter fun e => !e.1.same p, false, i.generation + 1⟩

/-- Forgets all files. -/
def invalidateAll (i : Index) : Index :=
  ⟨[], false, i.generation + 1⟩

/-- What is remembered, sorted by path. -/
def snapshot (i : Index) : List IndexedFile :=
  i.files.mergeSort fun a b => a.1.le b.1

/-- The symbols of a file: those remembered, or those of its text. A file that cannot be read has
none. -/
def entryOf (i : Index) (d : Disk) (settings : Settings) (cache : FileCache) (p : Path) :
    IndexedFile :=
  (p, (i.find? p).getD (((cache.peek? d p).map (symbolsOf settings.symbolOptions)).getD []))

/-- What a build finds. -/
structure Built where
  index : Index
  cache : FileCache
  results : List IndexedFile

/-- The symbols of the workspace. -/
def build (i : Index) (d : Disk) (roots : List Path) (settings : Settings) (cache : FileCache) :
    Built :=
  if i.complete then ⟨i, cache, i.snapshot⟩
  else
    let listed := discover d roots settings
    let results := listed.map (i.entryOf d settings cache)
    let missing := listed.filter fun p => (i.find? p).isNone
    ⟨{ i with files := results, complete := true }, cache.readAll d missing, results⟩

/-- The symbols whose lower-cased names hold a lower-cased query. -/
def matching (files : List IndexedFile) (query : Text) : List (Path × IndexedSymbol) :=
  let needle := Text.lower query
  (files.flatMap fun (p, symbols) => symbols.map fun s => (p, s)).filter fun e =>
    Text.occursIn needle (Text.lower e.2.name)

end Index

end AutoItServer
