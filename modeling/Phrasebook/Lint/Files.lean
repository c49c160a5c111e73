import Phrasebook.FileTree
import Phrasebook.Lint.Report
import Phrasebook.Source.Reader

/-! # Checking files

A file is checked as one book, and a directory file by file: all the files in it, at any
depth, whose extension is `seed`, in ascending order of their paths. The status of a run
tells whether any file has an error.
-/

namespace Phrasebook.Lint

/-! ## One file -/

structure FileReport where
  errors : List String
  warnings : List String

def checkSource (source : String) (options : Options) : FileReport :=
  match Source.parse source with
  | .error error => ⟨[error.message], []⟩
  | .ok book =>
    let report := check book options
    ⟨report.errors.map Error.message, report.warnings.map Warning.message⟩

def checkFile (text : FileText) (options : Options) : FileReport :=
  match text with
  | .error fault => ⟨["cannot read file: " ++ fault.message], []⟩
  | .ok source => checkSource source options

def FileReport.lines (report : FileReport) : List String :=
  if report.errors.isEmpty && report.warnings.isEmpty then ["All checks passed!"]
  else report.warnings.map ("WARNING: " ++ ·) ++ report.errors.map ("ERROR: " ++ ·)

/-! ## Files of a directory -/

structure Located where
  path : List String
  text : FileText

/-- Whether a file name has the extension `seed`; a name that only begins with a dot has
none. -/
def isSketchName (name : String) : Bool :=
  let extension := (name.toList.reverse).takeWhile (· != '.')
  extension.reverse == "seed".toList && extension.length + 1 < name.length

mutual

/-- The sketches of a directory's entries; `above` leads to the directory, reversed. -/
def sketchesOf (above : List String) : List (String × FileTree) → List Located
  | [] => []
  | (name, entry) :: entries => sketchesAt above name entry ++ sketchesOf above entries

def sketchesAt (above : List String) (name : String) : FileTree → List Located
  | .file text => if isSketchName name then [⟨(name :: above).reverse, text⟩] else []
  | .directory entries => sketchesOf (name :: above) entries

end

/-- Files in ascending order of their paths, compared component by component. -/
def sorted (files : List Located) : List Located :=
  files.mergeSort fun a b => !(b.path < a.path : Bool)

def joined (directory : String) (path : List String) : String :=
  let separator := if directory.endsWith "/" then "" else "/"
  directory ++ separator ++ "/".intercalate path

def filesAt (path : String) : FileTree → List (String × FileText)
  | .file text => [(path, text)]
  | .directory entries =>
    (sorted (sketchesOf [] entries)).map fun file => (joined path file.path, file.text)

/-! ## A run -/

structure Run where
  out : String
  err : String
  status : Nat

def unlines (lines : List String) : String := String.join (lines.map (· ++ "\n"))

def run (path : String) (found : Option FileTree) (options : Options) : Run :=
  match found with
  | none => ⟨"", "ERROR: Path '" ++ path ++ "' does not exist\n", 1⟩
  | some tree =>
    let files := filesAt path tree
    let reports := files.map fun file => (file.1, checkFile file.2 options)
    let errors := (reports.flatMap fun report => report.2.errors).length
    let warnings := (reports.flatMap fun report => report.2.warnings).length
    let blocks := reports.map fun report =>
      "\n=== " ++ report.1 ++ " ===\n" ++ unlines report.2.lines
    let summary := "\nSummary: " ++ toString files.length ++ " files, " ++ toString errors ++
      " errors, " ++ toString warnings ++ " warnings\n"
    ⟨"Found " ++ toString files.length ++ " sketch files\n" ++ String.join blocks ++ summary, "",
      if errors = 0 then 0 else 1⟩

end Phrasebook.Lint
