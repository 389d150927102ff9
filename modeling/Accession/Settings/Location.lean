import Accession.Settings.Basic
import Accession.Text.Blank
import Accession.Text.Path
set_option autoImplicit false

namespace Accession.Settings

structure Environment where
  rootFolder : Option String := none
  settingsFile : Option String := none
  home : Option String := none
  settingsHome : Option String := none
  dataHome : Option String := none
  /-- The home folder of the user's account, for when no variable names one. -/
  accountHome : Option String := none
deriving DecidableEq, Repr

namespace Environment

def homeFolder (env : Environment) : Option String :=
  (env.home.filter (fun path => !path.isEmpty)).or env.accountHome

def platformFolder (env : Environment) (moved : Option String) (inHome : String) : Option String :=
  (moved.filter Text.Path.isAbsolute).or
    (env.homeFolder.map (fun home => Text.Path.append home inHome))

def settingsFolder (env : Environment) : Option String :=
  env.platformFolder env.settingsHome ".config"

def dataFolder (env : Environment) : Option String :=
  env.platformFolder env.dataHome ".local/share"

end Environment

def folderName : String := "arcs"
def fileName : String := "config.toml"
def databaseName : String := "arcs.db"

def file (chosen : Option String) (env : Environment) : String :=
  match chosen.or env.settingsFile, env.settingsFolder with
  | some path, _ => path
  | none, some folder => Text.Path.append (Text.Path.append folder folderName) fileName
  | none, none => "/etc/arcs/config.toml"

def defaultRoot (env : Environment) : String :=
  match env.dataFolder with
  | some folder => Text.Path.append folder folderName
  | none => "/var/lib/arcs"

def root (chosen : Option String) (env : Environment) (settings : Settings) : String :=
  ((chosen.or (env.rootFolder.filter (fun path => !Text.blank path))).or
    settings.rootFolder).getD (defaultRoot env)

end Accession.Settings
