import DocWeave.CommandLine

/-!
# The program

Reads the files below the working folder, runs the command line on them, and writes back what changed.
-/

namespace DocWeave

/-- The readable files of a folder and of the folders in it, by their paths; `front` leads to the
folder. -/
partial def readFolder (front : String) (entries : Array IO.FS.DirEntry) :
    IO (List (String × String)) := do
  let mut found := []
  for e in entries do
    let path := Path.join front e.fileName
    if ← e.path.isDir then
      found := found ++ (← readFolder path (← e.path.readDir))
    else
      match ← (IO.FS.readFile e.path).toBaseIO with
      | .ok text => found := found ++ [(path, text)]
      | .error _ => pure ()
  return found

/-- Writes the files that are not in `old` as they are in `new`. -/
def writeChanges (old new : FileTree) : IO Unit := do
  for (place, text) in new.files do
    if old.files.get? place != some text then
      let folder := Path.ofParts place.dropLast
      if !folder.isEmpty then IO.FS.createDirAll folder
      IO.FS.writeFile (Path.ofParts place) text

end DocWeave

open DocWeave in
/-- Runs the command line in the working folder. -/
def main (args : List String) : IO UInt32 := do
  let here ← IO.currentDir
  let files := FileTree.ofFiles (← readFolder "" (← here.readDir))
  let (outcome, after) := CommandLine.run args files
  writeChanges files after
  IO.print outcome.stdout
  IO.eprint outcome.stderr
  return outcome.code.toUInt32
