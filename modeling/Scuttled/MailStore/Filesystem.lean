import Scuttled.MailStore.Maildir

/-!
# The mail store on a file system

Reads of the mail store go to the file system directly: a path is joined to the
root of the store, and the file there is read.
-/

namespace Scuttled

open Rust

/-! ## File systems -/

abbrev Bytes := List UInt8

inductive Node where
  | file (content : Bytes)
  | directory
  deriving DecidableEq

/-- A file system at one moment.  There are no symbolic links. -/
abbrev FileTree := Location → Option Node

namespace FileTree

/-- `try_exists(path).await.unwrap_or(false)`. -/
def tryExists (tree : FileTree) (path : String) : Bool := (tree (resolve path)).isSome

/-- `Metadata::is_file`, or the error of `metadata`. -/
def isFile (tree : FileTree) (path : String) : Result Bool :=
  match tree (resolve path) with
  | some (.file _) => .ok true
  | some .directory => .ok false
  | none => .error (.io "No such file or directory (os error 2)")

/-- `fs::read`, or opening a file and `read_to_end`. -/
def read (tree : FileTree) (path : String) : Result Bytes :=
  match tree (resolve path) with
  | some (.file content) => .ok content
  | some .directory => .error (.io "Is a directory (os error 21)")
  | none => .error (.io "No such file or directory (os error 2)")

theorem read_eq_ok_iff {tree : FileTree} {path : String} {content : Bytes} :
    tree.read path = .ok content ↔ tree (resolve path) = some (.file content) := by
  unfold read
  split <;> simp_all

theorem tryExists_of_read {tree : FileTree} {path : String} {content : Bytes}
    (hread : tree.read path = .ok content) : tree.tryExists path = true := by
  rw [tryExists, read_eq_ok_iff.mp hread]
  rfl

theorem isFile_iff {tree : FileTree} {path : String} :
    tree.isFile path = .ok true ↔ ∃ content, tree.read path = .ok content := by
  unfold isFile read
  split <;> simp

end FileTree

/-! ## The store -/

def retrieve (tree : FileTree) (root path : String) : Result (Option Bytes) :=
  if !tree.tryExists (fullPath root path) then .ok none
  else (tree.read (fullPath root path)).map some

theorem retrieve_eq_some_iff {tree : FileTree} {root path : String} {content : Bytes} :
    retrieve tree root path = .ok (some content) ↔
      tree (resolve (fullPath root path)) = some (.file content) := by
  unfold retrieve FileTree.tryExists FileTree.read
  cases tree (resolve (fullPath root path)) with
  | none => simp
  | some node => cases node <;> simp [Except.map]

end Scuttled
