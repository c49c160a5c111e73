import Phrasebook.FileText

/-! # File trees

A directory holds named entries, files and further directories. A path leads down from
a directory, component by component.
-/

namespace Phrasebook

inductive FileTree where
  | file (text : FileText)
  | directory (entries : List (String × FileTree))

namespace FileTree

/-- The components of a path; empty ones and single dots lead nowhere. -/
def components (path : String) : List String :=
  ((path.toList.splitOn '/').map String.ofList).filter fun c => c ≠ "" ∧ c ≠ "."

def insertInto (text : FileText) : (path : List String) → List (String × FileTree) →
    List (String × FileTree)
  | [], entries => entries
  | [name], entries => entries.filter (·.1 != name) ++ [(name, .file text)]
  | name :: path, entries =>
    let inner := match entries.find? (·.1 == name) with
      | some (_, .directory inner) => inner
      | _ => []
    entries.filter (·.1 != name) ++ [(name, .directory (insertInto text path inner))]

def ofFiles (files : List (String × FileText)) : FileTree :=
  .directory (files.foldl (fun entries file => insertInto file.2 (components file.1) entries) [])

/-- The entry that components lead to. Two dots lead to the directory above, which is the
first of `above`; nothing is known above the last of them. -/
def findFrom (above : List FileTree) : FileTree → List String → Option FileTree
  | tree, [] => some tree
  | .file _, _ :: _ => none
  | .directory entries, name :: path =>
    if name = ".." then
      match above with
      | [] => none
      | up :: above => findFrom above up path
    else
      match entries.find? (·.1 == name) with
      | some (_, entry) => findFrom (.directory entries :: above) entry path
      | none => none

/-- Whether only a directory can stand at a path, as its end shows. -/
def endsAsDirectory (path : String) : Bool :=
  let last := ((path.toList.splitOn '/').getLast?).getD []
  last == [] || last == ['.']

def at? (tree : FileTree) (path : String) : Option FileTree :=
  if path.isEmpty then none
  else
    match findFrom [] tree (components path) with
    | some (.file text) => if endsAsDirectory path then none else some (.file text)
    | found => found

end FileTree

end Phrasebook
