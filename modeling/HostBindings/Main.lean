import HostBindings.Command.Run

/-!
The program: runs its command line on the files of the disk.
-/

namespace HostBindings

open HostBindings.Files

/-- The fault that a file operation of the disk met, by the number that the system gives it. -/
def Files.Fault.ofCode (code : UInt32) (details : String) : Fault :=
  match code.toNat with
  | 17 => .exists
  | 20 => .notDirectory
  | 21 => .isDirectory
  | 22 => .selfReference
  | 36 => .nameTooLong
  | 39 => .notEmpty
  | n => .other (details ++ " (os error " ++ toString n ++ ")")

def Files.Fault.ofIOError : IO.Error → Fault
  | .noFileOrDirectory .. => .notFound
  | .alreadyExists _ code details => ofCode code details
  | .inappropriateType _ code details => ofCode code details
  | .unsatisfiedConstraints code details => ofCode code details
  | .invalidArgument _ code details => ofCode code details
  | .permissionDenied _ code details => ofCode code details
  | .resourceExhausted _ code details => ofCode code details
  | .otherError code details => ofCode code details
  | e => .other (toString e)

def Files.onDisk {α : Type} (operation : IO α) : IO (Except Fault α) := do
  try return .ok (← operation)
  catch e => return .error (.ofIOError e)

instance : FileSystem IO where
  entries path := onDisk do
    let found ← (System.mkFilePath [path]).readDir
    found.toList.mapM fun e => do
      let data ← e.path.metadata
      return ⟨e.fileName, data.type == .file⟩
  read path := onDisk do
    return (← IO.FS.readBinFile path).data.toList
  isThere path := (System.mkFilePath [path]).pathExists
  write path octets := onDisk (IO.FS.writeBinFile path ⟨octets.toArray⟩)
  isDirectory path := (System.mkFilePath [path]).isDir
  makeDirectory path := onDisk (IO.FS.createDir path)
  removeDirectory path := do
    match ← onDisk (IO.FS.removeDirAll path) with
    | .error .notFound => return .ok ()
    | result => return result

end HostBindings

def main (args : List String) : IO UInt32 := do
  let outcome ← HostBindings.Command.run "the text is not well formed"
    "the text does not hold the settings asked for" args
  IO.print outcome.output
  IO.eprint outcome.errors
  return outcome.code
