import Mathlib.Data.List.Lex
import Mathlib.Data.String.Basic
import Phrasebook.Lint.Files
import Phrasebook.Proofs.FileTree.Files
import Phrasebook.Proofs.Lint.Listing

/-!
# Sketches of a directory

The files to check in a directory are those, at any depth, whose names have the extension, in
ascending order of their paths, each once. They do not depend on the order in which directories
list their entries.
-/

namespace Phrasebook.Lint

/-! ## Extensions -/

def IsSketchPath (path : List String) : Prop :=
  ∃ name ∈ path.getLast?, isSketchName name = true

theorem isSketchPath_cons_iff {name : String} {path : List String} (hpath : path ≠ []) :
    IsSketchPath (name :: path) ↔ IsSketchPath path := by
  rw [IsSketchPath, IsSketchPath, List.getLast?_cons_of_ne_nil hpath]

/-! ## Walks -/

mutual

theorem mem_sketchesOf_iff : ∀ (above : List String) (entries : List (String × FileTree))
    (file : Located), file ∈ sketchesOf above entries ↔
      ∃ path, file.path = above.reverse ++ path ∧
        (FileTree.directory entries).Holds path file.text ∧ IsSketchPath path
  | above, [], file => by
      simp [sketchesOf, FileTree.holds_directory_iff]
  | above, (name, tree) :: entries, file => by
      rw [sketchesOf, List.mem_append, mem_sketchesAt_iff above name tree,
        mem_sketchesOf_iff above entries]
      simp only [FileTree.holds_cons_iff]
      constructor
      · rintro (⟨rest, hpath, hholds, hsketch⟩ | ⟨path, hpath, hholds, hsketch⟩)
        · exact ⟨_, hpath, .inl ⟨rest, rfl, hholds⟩, hsketch⟩
        · exact ⟨path, hpath, .inr hholds, hsketch⟩
      · rintro ⟨path, hpath, ⟨rest, rfl, hholds⟩ | hholds, hsketch⟩
        · exact .inl ⟨rest, hpath, hholds, hsketch⟩
        · exact .inr ⟨path, hpath, hholds, hsketch⟩

theorem mem_sketchesAt_iff : ∀ (above : List String) (name : String) (tree : FileTree)
    (file : Located), file ∈ sketchesAt above name tree ↔
      ∃ path, file.path = above.reverse ++ name :: path ∧ tree.Holds path file.text ∧
        IsSketchPath (name :: path)
  | above, name, .file text, file => by
      have hlast : IsSketchPath [name] ↔ isSketchName name = true := by simp [IsSketchPath]
      obtain ⟨path, other⟩ := file
      simp only [sketchesAt, FileTree.holds_file_iff, List.mem_ite_nil_right, List.mem_singleton,
        List.reverse_cons, Located.mk.injEq]
      constructor
      · rintro ⟨hname, rfl, rfl⟩
        exact ⟨[], rfl, ⟨rfl, rfl⟩, hlast.2 hname⟩
      · rintro ⟨_, rfl, ⟨rfl, rfl⟩, hsketch⟩
        exact ⟨hlast.1 hsketch, rfl, rfl⟩
  | above, name, .directory entries, file => by
      rw [sketchesAt, mem_sketchesOf_iff (name :: above) entries]
      refine exists_congr fun path => ?_
      rw [List.reverse_cons, List.append_assoc, List.singleton_append]
      refine and_congr_right fun _ => and_congr_right fun hholds => ?_
      exact (isSketchPath_cons_iff hholds.ne_nil).symm

end

mutual

theorem nodup_path_sketchesOf : ∀ (above : List String) (entries : List (String × FileTree)),
    (FileTree.directory entries).IsProper → ((sketchesOf above entries).map Located.path).Nodup
  | above, [], _ => by simp [sketchesOf]
  | above, (name, tree) :: entries, hproper => by
      obtain ⟨⟨hname, -, htree⟩, hentries⟩ := FileTree.isProper_cons_iff.1 hproper
      rw [sketchesOf, List.map_append, List.nodup_append]
      refine ⟨nodup_path_sketchesAt above name tree htree,
        nodup_path_sketchesOf above entries hentries, ?_⟩
      -- The first components below tell the files of this entry from those of the others.
      rintro path ha _ hb rfl
      obtain ⟨file, hfile, rfl⟩ := List.mem_map.1 ha
      obtain ⟨other, hother, hsame⟩ := List.mem_map.1 hb
      obtain ⟨rest, hpath, -⟩ := (mem_sketchesAt_iff above name tree file).1 hfile
      obtain ⟨below, hbelow, hholds, -⟩ := (mem_sketchesOf_iff above entries other).1 hother
      obtain ⟨entry, hentry, below, rfl, -⟩ := FileTree.holds_directory_iff.1 hholds
      rw [hbelow, hpath, List.append_cancel_left_eq] at hsame
      exact hname (List.mem_map.2 ⟨entry, hentry, (List.cons.inj hsame).1⟩)

theorem nodup_path_sketchesAt : ∀ (above : List String) (name : String) (tree : FileTree),
    tree.IsProper → ((sketchesAt above name tree).map Located.path).Nodup
  | above, name, .file text, _ => by
      rw [sketchesAt]
      split <;> simp
  | above, name, .directory entries, hproper => by
      rw [sketchesAt]
      exact nodup_path_sketchesOf (name :: above) entries hproper

end

/-! ## Order -/

/-- The sketches of a tree, each once, in ascending order of their paths: the files whose names
have the extension. -/
structure ListsSketches (tree : FileTree) (files : List Located) : Prop where
  mem_iff : ∀ file, file ∈ files ↔ tree.Holds file.path file.text ∧
    ∃ stem, stem ≠ "" ∧ file.path.getLast? = some (stem ++ ".seed")
  ascending : files.Pairwise fun a b => a.path < b.path

theorem ListsSketches.unique {tree : FileTree} {files others : List Located}
    (hfiles : ListsSketches tree files) (hothers : ListsSketches tree others) : files = others :=
  eq_of_pairwise_place hfiles.ascending hothers.ascending fun file =>
    (hfiles.mem_iff file).trans (hothers.mem_iff file).symm

end Phrasebook.Lint
