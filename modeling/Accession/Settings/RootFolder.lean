import Accession.FileTree
import Accession.Settings.Location
set_option autoImplicit false

namespace Accession.Settings

def prepareRoot (tree : FileTree) (root : String) : Except Failure (FileTree × String) :=
  let database := Text.Path.append root databaseName
  match tree.find? root with
  | some (.folder _) => .ok (tree, database)
  | some .file => .error (.settings ("Root folder is not a directory: " ++ root))
  | none =>
    match tree.createPath root with
    | .ok tree => .ok (tree, database)
    | .error e => .error (.io e.message)

end Accession.Settings
