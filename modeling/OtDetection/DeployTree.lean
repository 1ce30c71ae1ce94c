import OtDetection.Steps
import OtDetection.KeyedMaps
import OtDetection.PyLines
import OtDetection.PyText
import Mathlib.Data.List.Lex

/-! The tree of the deployment bundle: writing it and checking what is there against it. A
directory is there where a file is below it. -/

namespace OtDetection.DeployTree
open PyText PyLines ExceptSteps

/-! ## Files -/

/-- A path below the output directory as `as_posix` has it. -/
def IsRelative (path : Text) : Prop :=
  ∀ part ∈ path.splitOn 0x2F, part ∉ ["", ".", ".."].map codes ∧ 0 ∉ part

abbrev RelativePath := { path : Text // IsRelative path }

abbrev Content := { text : List Char // '\r' ∉ text }

/-- The directory is above the file. -/
def isAbove (directory file : Text) : Bool := (directory ++ [0x2F]).isPrefixOf file

/-- Files of which none is a directory above another. -/
structure FileTree where
  files : AList fun _ : RelativePath => Content
  apart : ∀ path ∈ files, ∀ file ∈ files, isAbove path.1 file.1 = false

inductive FileError
  | isADirectory
  | fileExists
  | notADirectory
  deriving DecidableEq

namespace FileTree

def isDirectory (tree : FileTree) (path : Text) : Bool :=
  tree.files.keys.any fun file => isAbove path file.1

def isBlocked (tree : FileTree) (path : Text) : Bool :=
  tree.files.keys.any fun file => isAbove file.1 path

theorem isDirectory_eq_false_iff {tree : FileTree} {path : Text} :
    tree.isDirectory path = false ↔ ∀ file ∈ tree.files, isAbove path file.1 = false := by
  simp only [isDirectory, List.any_eq_false, Bool.not_eq_true, AList.mem_keys]

theorem isBlocked_eq_false_iff {tree : FileTree} {path : Text} :
    tree.isBlocked path = false ↔ ∀ file ∈ tree.files, isAbove file.1 path = false := by
  simp only [isBlocked, List.any_eq_false, Bool.not_eq_true, AList.mem_keys]

def blockedError (tree : FileTree) (path : Text) : FileError :=
  if tree.files.keys.any fun file => file.1 = [0x2F].intercalate (path.splitOn 0x2F).dropLast then
    .fileExists
  else .notADirectory

theorem isAbove_self (path : Text) : isAbove path path = false := by
  rw [isAbove, ← Bool.not_eq_true, List.isPrefixOf_iff_prefix]
  intro longer
  have := longer.length_le
  rw [List.length_append, List.length_singleton] at this
  omega

theorem apart_insert {tree : FileTree} {path : RelativePath} (content : Content)
    (unblocked : tree.isBlocked path.1 = false) (file : tree.isDirectory path.1 = false) :
    ∀ first ∈ tree.files.insert path content, ∀ second ∈ tree.files.insert path content,
      isAbove first.1 second.1 = false := by
  rw [isBlocked_eq_false_iff] at unblocked
  rw [isDirectory_eq_false_iff] at file
  simp only [AList.mem_insert]
  rintro first (rfl | here) second (rfl | there)
  · exact isAbove_self _
  · exact file second there
  · exact unblocked first here
  · exact tree.apart first here second there

/-- One turn of the loop of `write_bundle`: the parent directories, and the file. -/
def write (tree : FileTree) (path : RelativePath) (content : Content) : Except FileError FileTree :=
  if blocked : tree.isBlocked path.1 = true then .error (tree.blockedError path.1)
  else if directory : tree.isDirectory path.1 = true then .error .isADirectory
  else .ok ⟨tree.files.insert path content, apart_insert content
    (Bool.eq_false_of_not_eq_true blocked) (Bool.eq_false_of_not_eq_true directory)⟩

end FileTree

/-! ## Writing -/

def items (bundle : FileTree) : List (RelativePath × Content) :=
  (bundle.files.entries.map fun entry => (entry.1, entry.2)).mergeSort
    fun item other => item.1.1 ≤ other.1.1

def writeItems : List (RelativePath × Content) → FileTree → FileTree × Option FileError
  | [], tree => (tree, none)
  | item :: items, tree =>
    match tree.write item.1 item.2 with
    | .error error => (tree, some error)
    | .ok next => writeItems items next

def writeBundle (bundle outDir : FileTree) : FileTree × Option FileError :=
  writeItems (items bundle) outDir

/-! ## Checking -/

def nonGenerated : List Text := ["DEPLOY.md", "report.md"].map codes

def isNonGenerated (relative : Text) : Bool :=
  nonGenerated.contains relative || (codes "evidence/").isPrefixOf relative

def missing (relative : Text) : Text := codes "missing: " ++ relative

def drift (relative : Text) : Text := codes "drift: " ++ relative

def unexpected (relative : Text) : Text := codes "unexpected: " ++ relative

def checkItem (outDir : FileTree) (item : RelativePath × Content) : Except FileError (List Text) :=
  match outDir.files.lookup item.1 with
  | some content => .ok (if universalNewlines content.1 ≠ item.2.1 then [drift item.1.1] else [])
  | none =>
    if outDir.isDirectory item.1.1 then .error .isADirectory else .ok [missing item.1.1]

def extraFiles (bundle outDir : FileTree) : List RelativePath :=
  (outDir.files.keys.filter fun file => file ∉ bundle.files).mergeSort
    fun file other => file.1 ≤ other.1

def checkBundle (bundle outDir : FileTree) : Except FileError (List Text) := do
  let problems ← (items bundle).mapM (checkItem outDir)
  let extra := (extraFiles bundle outDir).filter fun file => !isNonGenerated file.1
  return problems.flatten ++ extra.map fun file => unexpected file.1

end OtDetection.DeployTree
