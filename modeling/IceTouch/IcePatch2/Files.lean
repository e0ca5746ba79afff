import Mathlib.Data.List.AList
import IceTouch.Strings.Escape
import IceTouch.Library.SortedSets

/-!
# Files and what IcePatch2 knows of them

Paths are relative to the data directory, which is `"."`, and simplified. A `FileInfo` describes
a directory or a file. SHA-1, bzip2 and the comparisons of `FileInfo` are parameters.
-/

namespace IceTouch.IcePatch2

open Bytes WireTypes Escape SortedSets

abbrev Path := Str

def root : Path := text "."

def slash : Byte := 47

def dot : Byte := 46

/-- `getDirname` -/
def parent (path : Path) : Path :=
  match path.reverse.dropWhile (· ≠ slash) with
  | [] => root
  | _ :: rest => rest.reverse

def getBasename (path : Path) : Str := (path.reverse.takeWhile (· ≠ slash)).reverse

def getSuffix (path : Path) : Str :=
  if dot ∈ getBasename path then (path.reverse.takeWhile (· ≠ dot)).reverse else []

def simplifyEnd (path : Path) : Path :=
  if path = [] then root else if path.getLast? = some slash then path.dropLast else path

def getWithoutSuffix (path : Path) : Path :=
  if dot ∈ getBasename path then
    simplifyEnd ((path.reverse.dropWhile (· ≠ dot)).drop 1).reverse
  else path

def ignoreSuffix (path : Path) : Bool :=
  getSuffix path = text "md5" || getSuffix path = text "tot" || getSuffix path = text "bz2" ||
    getSuffix path = text "bz2temp"

def checksumFile : Path := text "IcePatch2.sum"

def logFile : Path := text "IcePatch2.log"

/-- What `getFileInfoSeqInt` does not describe. -/
def ignored (path : Path) : Bool :=
  path = checksumFile || path = logFile || ignoreSuffix path

/-- The paths that are part of a tree: neither they nor a directory above them are ignored. -/
inductive Visible : Path → Prop
  | root : Visible root
  | inside {path : Path} (named : path ≠ IcePatch2.root) (kept : ignored path = false)
      (above : Visible (parent path)) : Visible path

inductive Entry where
  | directory
  | file (content : Str) (executable : Bool)
deriving DecidableEq

abbrev FileSystem := AList fun _ : Path => Entry

structure Tree (files : FileSystem) : Prop where
  rooted : files.lookup root = some .directory
  above : ∀ path entry, Visible path → files.lookup path = some entry →
    files.lookup (parent path) = some .directory

/-- The paths in a directory. -/
def readDirectory (files : FileSystem) (path : Path) : List Path :=
  files.keys.filter fun other => other ≠ root && parent other = path

/-- `remove`, of a file or of an empty directory. -/
def removeEntry (files : FileSystem) (path : Path) : Option FileSystem :=
  match files.lookup path with
  | none => none
  | some .directory => if readDirectory files path = [] then some (files.erase path) else none
  | some (.file _ _) => some (files.erase path)

structure FileInfo where
  path : Path
  checksum : Str
  size : Int
  executable : Bool
deriving DecidableEq

def FileInfo.isDirectory (info : FileInfo) : Bool := info.size < 0

/-- What `FileInfoWithoutFlagsLess` compares. -/
abbrev Identity := Path × Bool × Str

def FileInfo.identity (info : FileInfo) : Identity := (info.path, info.isDirectory, info.checksum)

/-- What `FileInfoLess` compares. -/
def FileInfo.key (info : FileInfo) : Identity × Bool := (info.identity, info.executable)

/-- `FileInfoLess`, `FileInfoWithoutFlagsLess` and `FileInfoEqual`: total orders on what they
compare, first by path, the second one without the flag. -/
structure FileOrder where
  less : FileInfo → FileInfo → Bool
  lessWithoutFlags : FileInfo → FileInfo → Bool
  equal : FileInfo → FileInfo → Bool
  ordered : OrderedBy less FileInfo.key
  orderedWithoutFlags : OrderedBy lessWithoutFlags FileInfo.identity
  equal_iff : ∀ first second, equal first second = true ↔ first.key = second.key
  restricts : ∀ {first second}, lessWithoutFlags first second = true → less first second = true
  byPath : ∀ {first second}, first.path < second.path → lessWithoutFlags first second = true

/-- SHA-1 and bzip2, and what `stat` says of the size of a directory. -/
structure Tools where
  sha1 : Str → Str
  compress : Str → Str
  decompress : Str → Option Str
  directorySize : Nat
  sha1_length : ∀ content, (sha1 content).length = 20
  decompress_compress : ∀ content, decompress (compress content) = some content
  compress_ne : ∀ content, content ≠ [] → compress content ≠ []

/-- A conversion to a 32-bit `Int`. -/
def toInt (value : Int) : Int := value.bmod (2 ^ 32)

def Tools.digest (tools : Tools) (hashed : Str) : Str :=
  if hashed = [] then List.replicate 20 0 else tools.sha1 hashed

def hashed (path : Path) : Entry → Str
  | .directory => path
  | .file content _ => path ++ content.take (content.length % 2 ^ 32)

/-- What `getFileInfoSeqInt` says of an entry. Only where files are compressed, their
compressed sizes are recorded. -/
def fileInfo (tools : Tools) (compress : Bool) (path : Path) (entry : Entry) : FileInfo where
  path := path
  checksum := tools.digest (hashed path entry)
  size :=
    match entry with
    | .directory => -1
    | .file content _ =>
        if content ≠ [] ∧ compress then toInt (tools.compress content).length else 0
  executable :=
    match entry with
    | .directory => false
    | .file _ executable => executable

theorem parent_root : parent root = root := by decide

theorem parent_length (path : Path) : parent path = root ∨ (parent path).length < path.length := by
  unfold parent
  split
  · exact .inl rfl
  · next last rest found =>
      right
      have suffix := List.dropWhile_suffix (fun char => decide (char ≠ slash)) (l := path.reverse)
      rw [found] at suffix
      have long := suffix.length_le
      simp only [List.length_cons, List.length_reverse] at long ⊢
      omega

theorem not_visible_of_ignored {path : Path} (ignores : ignored path = true) : ¬ Visible path := by
  intro visible
  cases visible with
  | root => exact absurd ignores (by decide)
  | inside named kept above =>
      rw [kept] at ignores
      cases ignores

theorem Visible.parent {path : Path} (visible : Visible path) : Visible (parent path) := by
  cases visible with
  | root => exact parent_root ▸ Visible.root
  | inside named kept above => exact above

end IceTouch.IcePatch2
