set_option autoImplicit false

namespace Accession.Batch

structure Folder where
  files : List (Nat × List (List UInt8)) := []
deriving DecidableEq, Repr

inductive FileChange where
  | create (file : Nat)
  | append (file : Nat) (octets : List UInt8)
  | remove (file : Nat)
deriving DecidableEq, Repr

namespace Folder

def empty : Folder := {}

def apply (folder : Folder) : FileChange → Folder
  | .create file => ⟨(file, []) :: folder.files⟩
  | .append file octets =>
    ⟨folder.files.map (fun f => if f.1 == file then (f.1, octets :: f.2) else f)⟩
  | .remove file => ⟨folder.files.filter (fun f => f.1 != file)⟩

def contents? (folder : Folder) (file : Nat) : Option (List UInt8) :=
  (folder.files.find? (fun f => f.1 == file)).map (fun f => f.2.reverse.flatten)

def size (folder : Folder) : Nat :=
  folder.files.length

def unused (folder : Folder) : Nat :=
  folder.files.foldl (fun n f => max n (f.1 + 1)) 0

end Folder

end Accession.Batch
