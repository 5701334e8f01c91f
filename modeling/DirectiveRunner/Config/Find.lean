import DirectiveRunner.Config.Config
import DirectiveRunner.Run.Host
/-!
# Finding configurations

The configuration of a run is the first file of a known name in the working directory or else in the
home directory. Without one, all options have their defaults.
-/

namespace DirectiveRunner.Config

/-- The names of configuration files, in the order in which they are looked for. -/
def fileNames : List String :=
  [".araraconfig.toml", "araraconfig.toml", ".arararc.toml", "arararc.toml"]

/-- Where the configuration file of a working directory may be. -/
def places (host : Host) (directory : Path) : List Path :=
  let directories := directory :: (host.valueOf? "HOME").toList.map Path.mk
  directories.flatMap fun d => fileNames.map d.join

/-- The configuration file of a working directory. -/
def find? (host : Host) (files : FileTree) (directory : Path) : Option Path :=
  (places host directory).find? files.isFile

def load (files : FileTree) (path : Path) : Except ConfigError Config :=
  match files.readText path with
  | .error _ => .error (.unreadable path)
  | .ok text =>
    match read? text with
    | some c => .ok c
    | none => .error (.malformed path)

/-- The options of a run in a directory. -/
def resolveOptions (host : Host) (files : FileTree) (directory : Path) (overrides : Overrides) :
    Except ConfigError Options := do
  match files.canonical directory with
  | .error _ => .error (.inaccessible directory)
  | .ok directory =>
    let c ←
      match find? host files directory with
      | some path => load files path
      | none => .ok {}
    return (← c.options host.valueOf? directory host.engine).override overrides

end DirectiveRunner.Config
