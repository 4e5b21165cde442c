import PatternEngine.Fault
import PatternEngine.FileSystem
/-!
# The home of an installation

The root of an installation holds the start-up script and the standard packages. It is a fixed
place, unless the environment names another.
-/
namespace PatternEngine

structure Settings where
  home : Option Bytes := none
  searchPath : Option Bytes := none

structure Home where
  root : Bytes
  bootScript : Bytes
  searchPath : Bytes
  deriving DecidableEq, Repr

namespace Home

/-- A path below a directory. -/
def below (directory name : Bytes) : Bytes :=
  if directory.getLast? == some FileSystem.separator then directory ++ name
  else directory ++ text "/" ++ name

/-- The setting of a variable; one that is empty is not set. -/
def setting (value : Option Bytes) (standard : Bytes) : Bytes :=
  match value with
  | some value => if value.isEmpty then standard else value
  | none => standard

/-- Finds the installation (`resolve`), which is at `standard` by default. -/
def resolve (files : FileSystem) (settings : Settings) (standard : Bytes) : Except Fault Home :=
  let candidate := setting settings.home standard
  match files.canonical candidate with
  | .error error => .error (.home (candidate ++ text ": " ++ error.message))
  | .ok root =>
    let bootScript := below root (text "lib/boot.lua")
    -- the script is only looked for here; it is read when the module starts
    if files.isFile bootScript then
      .ok ⟨root, bootScript, setting settings.searchPath (below root (text "rpl"))⟩
    else .error (.home (bootScript ++ text " is not a file"))

/-- The search path that the module starts with: the setting, even if it is empty. What the home
itself says (`setting`) takes an empty one for none. -/
def moduleSearchPath (home : Home) (settings : Settings) : Bytes :=
  settings.searchPath.getD (home.root ++ text "/rpl")

end Home

end PatternEngine
