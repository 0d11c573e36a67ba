import GridBridge.CommandLine

/-!
# The command

Takes in the files that a run looks at and the environment, runs, and prints what it left.
-/

namespace GridBridge

open Files Config

/-- Takes in what stands at a path: a file with its content, or a directory with the names in it.
What cannot be read is left out. -/
def takeIn (files : FileSystem) (path : Path) : IO FileSystem := do
  let some text := path.toString? | return files
  let place := files.placeOf path
  try
    let found ← IO.FS.realPath text
    if ← found.isDir then
      let entries ← found.readDir
      return entries.foldl (fun fs entry => fs.addFile (place ++ [nameOfString entry.fileName]) [])
        (files.addDirectory place)
    return files.addFile place (← IO.FS.readBinFile text).toList
  catch _ => return files

/-- The value of a variable. -/
def environmentValue (name : String) : IO (Option (List UInt8)) := do
  return (← IO.getEnv name).map fun value => value.toUTF8.toList

/-- Runs the command on arguments. -/
def runCommand (arguments : List String) : IO CommandLine.Outcome := do
  let overrides : Overrides := {
    home := ← environmentValue Overrides.homeVariable
    instanceName := ← environmentValue Overrides.instanceVariable
    quiet := ← environmentValue Overrides.quietVariable }
  let workingDirectory := (Path.ofString (← IO.currentDir).toString).names.filter (! ·.isEmpty)
  let mut files := FileSystem.ofWorkingDirectory workingDirectory
  if let some path := arguments.head? then
    files ← takeIn files (.ofString path)
    if let .ok settings := CommandLine.configure { arguments, overrides, files } path then
      files ← (CommandLine.lookedAt settings).foldlM takeIn files
  return CommandLine.run .loopback { arguments, overrides, files }

end GridBridge

/-- The entry of the command. -/
def main (arguments : List String) : IO UInt32 := do
  let outcome ← GridBridge.runCommand arguments
  IO.print outcome.output
  IO.eprint outcome.errors
  return outcome.code.toUInt32
