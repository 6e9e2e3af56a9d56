import QualityGate.Shell.Utility
/-!
The files that every host has before anything is put on it: the directories of the system and its
programs, each of which stands in both of the usual places.
-/

namespace QualityGate.Host

/-- The location of an absolute path whose components are plain names. -/
def Location.ofPath (path : Bytes) : Location :=
  (Text.splitBytes Path.slash path).filter fun p => p ≠ [] ∧ p ≠ [Path.dot]

/-- The directories of a host. -/
def FileTree.systemDirectories : List String := ["/tmp", "/usr/bin", "/bin", "/dev", "/etc"]

/-- The directories in which programs stand. -/
def FileTree.programDirectories : List String := ["/usr/bin", "/bin"]

/-- **The files of a host with nothing on it.** -/
def FileTree.system : FileTree :=
  let bare := FileTree.systemDirectories.foldl
    (fun (t : FileTree) d => t.makeDirectories (Location.ofPath (Text.bytes d))) FileTree.empty
  let programs := FileTree.programDirectories.flatMap fun d =>
    Shell.Utility.names.map fun n =>
      (Location.ofPath (Text.bytes d) ++ [Text.bytes n], Entry.utility n)
  { bare with
    entries := bare.entries ++ programs ++ [(Location.ofPath (Text.bytes "/dev/null"), .device)] }

end QualityGate.Host
