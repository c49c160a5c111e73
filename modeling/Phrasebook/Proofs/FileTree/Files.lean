import Mathlib.Data.List.Nodup
import Mathlib.Data.List.Perm.Basic
import Phrasebook.FileTree

/-!
# Files of a tree

What a tree holds are files under paths, each path leading to one file at most. The order in which
the entries of its directories are listed makes no difference to that.
-/

namespace Phrasebook.FileTree

inductive Holds : FileTree → List String → FileText → Prop
  | file (text : FileText) : Holds (.file text) [] text
  | entry {entries : List (String × FileTree)} {name : String} {tree : FileTree}
      {path : List String} {text : FileText} :
      (name, tree) ∈ entries → Holds tree path text → Holds (.directory entries) (name :: path) text

/-- What a file system sees to: the entries of a directory have different names, and no name holds
the mark between the components of a path. -/
inductive IsProper : FileTree → Prop
  | file (text : FileText) : IsProper (.file text)
  | directory {entries : List (String × FileTree)} :
      (entries.map Prod.fst).Nodup → (∀ entry ∈ entries, '/' ∉ entry.1.toList) →
      (∀ entry ∈ entries, IsProper entry.2) → IsProper (.directory entries)

/-- The same tree, with the entries of its directories listed in another order. -/
inductive Relisted : FileTree → FileTree → Prop
  | refl (tree : FileTree) : Relisted tree tree
  | perm {entries others : List (String × FileTree)} :
      entries.Perm others → Relisted (.directory entries) (.directory others)
  | entry {before after : List (String × FileTree)} {name : String} {tree other : FileTree} :
      Relisted tree other →
      Relisted (.directory (before ++ (name, tree) :: after))
        (.directory (before ++ (name, other) :: after))
  | trans {first second third : FileTree} :
      Relisted first second → Relisted second third → Relisted first third

/-! ## Paths -/

theorem holds_file_iff {text other : FileText} {path : List String} :
    (FileTree.file text).Holds path other ↔ path = [] ∧ other = text := by
  constructor
  · rintro ⟨⟩
    exact ⟨rfl, rfl⟩
  · rintro ⟨rfl, rfl⟩
    exact .file _

theorem holds_directory_iff {entries : List (String × FileTree)} {path : List String}
    {text : FileText} :
    (FileTree.directory entries).Holds path text ↔
      ∃ entry ∈ entries, ∃ rest, path = entry.1 :: rest ∧ entry.2.Holds rest text := by
  constructor
  · rintro (_ | ⟨hentry, hrest⟩)
    exact ⟨_, hentry, _, rfl, hrest⟩
  · rintro ⟨⟨name, tree⟩, hentry, rest, rfl, hrest⟩
    exact .entry hentry hrest

theorem holds_cons_iff {name : String} {tree : FileTree} {entries : List (String × FileTree)}
    {path : List String} {text : FileText} :
    (FileTree.directory ((name, tree) :: entries)).Holds path text ↔
      (∃ rest, path = name :: rest ∧ tree.Holds rest text) ∨
        (FileTree.directory entries).Holds path text := by
  simp only [holds_directory_iff, List.mem_cons, or_and_right, exists_or, exists_eq_left]

theorem Holds.ne_nil {entries : List (String × FileTree)} {path : List String} {text : FileText}
    (hholds : (FileTree.directory entries).Holds path text) : path ≠ [] := by
  obtain ⟨entry, -, rest, rfl, -⟩ := holds_directory_iff.1 hholds
  exact List.cons_ne_nil _ _

theorem isProper_directory_iff {entries : List (String × FileTree)} :
    (FileTree.directory entries).IsProper ↔ (entries.map Prod.fst).Nodup ∧
      (∀ entry ∈ entries, '/' ∉ entry.1.toList) ∧ ∀ entry ∈ entries, entry.2.IsProper := by
  constructor
  · rintro ⟨⟩
    exact ⟨‹_›, ‹_›, ‹_›⟩
  · rintro ⟨hnames, hslash, hentries⟩
    exact .directory hnames hslash hentries

theorem isProper_cons_iff {name : String} {tree : FileTree} {entries : List (String × FileTree)} :
    (FileTree.directory ((name, tree) :: entries)).IsProper ↔
      (name ∉ entries.map Prod.fst ∧ '/' ∉ name.toList ∧ tree.IsProper) ∧
        (FileTree.directory entries).IsProper := by
  simp only [isProper_directory_iff, List.map_cons, List.nodup_cons, List.forall_mem_cons]
  tauto

namespace Relisted

variable {tree other : FileTree}

theorem isProper_iff (hrelisted : tree.Relisted other) : tree.IsProper ↔ other.IsProper := by
  induction hrelisted with
  | refl tree => rfl
  | perm hperm =>
      simp only [isProper_directory_iff, hperm.mem_iff, (hperm.map Prod.fst).nodup_iff]
  | entry _ ih =>
      simp only [isProper_directory_iff, List.map_append, List.map_cons, List.forall_mem_append,
        List.forall_mem_cons, ih]
  | trans _ _ ihfirst ihsecond => exact ihfirst.trans ihsecond

end Relisted

end Phrasebook.FileTree
