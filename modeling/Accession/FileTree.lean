import Accession.Text.Path
set_option autoImplicit false

/-!
# Folders and files

A tree of folders and files, the entries of a folder by their names. A path is walked part by part:
an empty part and a dot stay where they are, two dots go back, and the parts before the last have to
lead to folders. `createAll` creates a folder and those above it that are missing. It goes back
along the path as it is written, so a path that ends with a dot in a missing folder cannot be
created. A path of more than `maxPathLength` octets leads nowhere, whatever the tree is.
-/
namespace Accession

inductive FileTree where
  | file
  | folder (entries : List (String × FileTree))

namespace FileTree

inductive Trouble where
  | missing
  | present
  | notFolder
  | nameTooLong
  | zeroInName
deriving DecidableEq, Repr

def Trouble.message : Trouble → String
  | .missing => "No such file or directory (os error 2)"
  | .present => "File exists (os error 17)"
  | .notFolder => "Not a directory (os error 20)"
  | .nameTooLong => "File name too long (os error 36)"
  | .zeroInName => "file name contained an unexpected NUL byte"

def maxNameLength : Nat := 255

def maxPathLength : Nat := 4095

def put (name : String) (tree : FileTree) : List (String × FileTree) → List (String × FileTree)
  | [] => [(name, tree)]
  | e :: rest => if e.1 == name then (name, tree) :: rest else e :: put name tree rest

/-- A place in a tree: what is there, and the folders above it with the names that lead on from
them, the nearest first. -/
structure Place where
  here : FileTree
  above : List (String × List (String × FileTree)) := []

namespace Place

def back (place : Place) : Place :=
  match place.above with
  | [] => place
  | (_, entries) :: above => { here := .folder entries, above }

def whole (place : Place) : FileTree :=
  place.above.foldl (fun tree (name, entries) => .folder (put name tree entries)) place.here

end Place

def staysPut (name : String) : Bool :=
  name == "" || name == "."

def step (place : Place) (name : String) : Except Trouble Place :=
  match place.here with
  | .file => .error .notFolder
  | .folder entries =>
    if staysPut name then .ok place
    else if name == ".." then .ok place.back
    else if maxNameLength < name.utf8ByteSize then .error .nameTooLong
    else match entries.lookup name with
      | some tree => .ok { here := tree, above := (name, entries) :: place.above }
      | none => .error .missing

def walk (tree : FileTree) (path : List String) : Except Trouble Place :=
  path.foldlM step { here := tree }

def isFolder (tree : FileTree) (path : List String) : Bool :=
  match tree.walk path with
  | .ok { here := .folder _, .. } => true
  | _ => false

/-- The parts before the last one that is not empty, and that one. -/
def splitLast (path : List String) : Option (List String × String) :=
  match path.reverse.dropWhile (· == "") with
  | [] => none
  | name :: before => some (before.reverse, name)

def add (tree : FileTree) (path : List String) (new : FileTree) : Except Trouble FileTree :=
  match splitLast path with
  | none => .error .present
  | some (before, name) => do
    let place ← tree.walk before
    match place.here, step place name with
    | .folder entries, .error .missing =>
      .ok { place with here := .folder (put name new entries) }.whole
    | _, .ok _ => .error .present
    | _, .error e => .error e

def create (tree : FileTree) (path : List String) : Except Trouble FileTree :=
  tree.add path (.folder [])

/-- A path without its last part that leads somewhere, nor any after it that do not. -/
def parent? (path : List String) : Option (List String) :=
  match path.reverse.dropWhile staysPut with
  | [] => none
  | _ :: before => some (before.dropWhile staysPut).reverse

theorem length_dropWhile_le {α : Type} (p : α → Bool) (xs : List α) :
    (xs.dropWhile p).length ≤ xs.length :=
  (List.dropWhile_sublist p).length_le

theorem length_of_parent? {path above : List String} (h : parent? path = some above) :
    above.length < path.length := by
  unfold parent? at h
  split at h
  · simp at h
  · rename_i name before hs
    simp only [Option.some.injEq] at h
    have h1 := length_dropWhile_le staysPut path.reverse
    have h2 := length_dropWhile_le staysPut before
    rw [hs] at h1
    simp only [List.length_cons, List.length_reverse] at h1
    rw [← h, List.length_reverse]
    omega

def createOrKeep (tree : FileTree) (path : List String) : Except Trouble FileTree :=
  match tree.create path with
  | .ok tree => .ok tree
  | .error e => if tree.isFolder path then .ok tree else .error e

def createAll (tree : FileTree) (path : List String) : Except Trouble FileTree :=
  match tree.create path with
  | .error .missing =>
    match h : parent? path with
    | none => .error .missing
    | some above =>
      have := length_of_parent? h
      match createAll tree above with
      | .error e => .error e
      | .ok tree => tree.createOrKeep path
  | _ => tree.createOrKeep path
termination_by path.length

def parts (path : String) : List String :=
  (Text.Path.split path.toList).map String.ofList

def find? (tree : FileTree) (path : String) : Option FileTree :=
  if path.isEmpty || path.toList.contains '\x00' || maxPathLength < path.utf8ByteSize then none
  else (tree.walk (parts path)).toOption.map (·.here)

def createPath (tree : FileTree) (path : String) : Except Trouble FileTree :=
  if path.isEmpty then .ok tree
  else if path.toList.contains '\x00' then .error .zeroInName
  else if maxPathLength < path.utf8ByteSize then .error .nameTooLong
  else tree.createAll (parts path)

def addFile (tree : FileTree) (path : String) : Except Trouble FileTree :=
  tree.add (parts path) .file

end FileTree

end Accession
