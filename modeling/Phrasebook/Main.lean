import Phrasebook.Session

/-! The command line: the operations on files in the file system, and the loop that answers the lines
of the standard input. Only files whose paths are texts are reached. -/
namespace Phrasebook.Main

/-- The number of a fault of the system and its description. -/
def details : IO.Error → UInt32 × String
  | .alreadyExists _ n s | .otherError n s | .resourceBusy n s | .resourceVanished n s
  | .unsupportedOperation n s | .hardwareFault n s | .unsatisfiedConstraints n s
  | .illegalOperation n s | .protocolError n s | .timeExpired n s | .interrupted _ n s
  | .noFileOrDirectory _ n s | .invalidArgument _ n s | .permissionDenied _ n s
  | .resourceExhausted _ n s | .inappropriateType _ n s | .noSuchThing _ n s => (n, s)
  | .unexpectedEof => (0, "unexpected end of file")
  | .userError s => (0, s)

/-- The system may report a number with its sign changed. -/
def fault (e : IO.Error) : FileFault :=
  let (n, s) := details e
  let n := if n < 0x80000000 then n else -n
  if n = 2 then .notFound
  else if n = 20 then .notDirectory
  else if n = 21 then .isDirectory
  else if n = 36 then .nameTooLong
  else if n = 16 then .busy
  else if n = 17 then .alreadyThere
  else if n = 0 then .other s
  else .other (s ++ " (os error " ++ toString n.toNat ++ ")")

/-- The result of an operation at a path, or its fault. A path that holds a NUL names nothing. -/
def attempt {α : Type} (path : Path) (step : String → IO α) : IO (Except FileFault α) :=
  if path.bytes.contains 0 then return .error .nulInName
  else match path.text? with
    | none => return .error (.other "file name is not text")
    | some text => try return .ok (← step text) catch e => return .error (fault e)

/-- A file that may not be opened is present all the same. -/
def isPresent (path : Path) : IO (Except FileFault Bool) := do
  match ← attempt path (IO.FS.Handle.mk · .read) with
  | .error .notFound => return .ok false
  | .error .notDirectory => return .error .notDirectory
  | .error .nulInName => return .error .nulInName
  | .error .nameTooLong => return .error .nameTooLong
  | _ => return .ok true

def read (path : Path) : IO (Except FileFault String) := do
  match ← attempt path fun text => IO.FS.readBinFile text with
  | .error e => return .error e
  | .ok bytes => return match String.fromUTF8? bytes with
    | some text => .ok text
    | none => .error .notText

/-- Makes a file of a new name, which the clock gives. -/
def createTemporary (folder : Path) : IO (Except FileFault Path) := do
  let path := folder.join (.ofText (".tmp" ++ toString (← IO.monoNanosNow)))
  return (← attempt path (IO.FS.Handle.mk · .writeNew)).map fun _ => path

/-- The operations on files in the file system. What is written is closed, and so handed over, at
once. -/
def files : Files IO where
  isPresent := isPresent
  read := read
  createTemporary := createTemporary
  write path text := attempt path (IO.FS.writeFile · text)
  sync _ := return .ok ()
  rename source target :=
    if target.bytes.contains 0 then return .error .invalidArgument
    else do
      let moved ← attempt source fun source => attempt target (IO.FS.rename source ·)
      return moved.bind id
  remove path := do discard <| attempt path fun text => IO.FS.removeFile text
  createFolders path := attempt path fun text => IO.FS.createDirAll text

def environment : IO Locale.Environment := do
  let found ← Session.variableNames.filterMapM fun name => do
    return (← IO.getEnv name).map (name, ·)
  return .ofList found

/-- Answers lines until the input ends or a line quits. -/
partial def loop (input output : IO.FS.Stream) (c : Console) : IO Unit := do
  match Session.inputLines (← input.getLine) with
  | [] => return
  | line :: _ =>
    let (c, result) ← c.handle files line
    match Session.replyTo result with
    | .none => loop input output c
    | .line text =>
      output.putStrLn text
      output.flush
      loop input output c
    | .stop => return

end Phrasebook.Main

def main : IO UInt32 := do
  match ← Phrasebook.Session.start Phrasebook.Main.files (← Phrasebook.Main.environment) with
  | .error failure =>
    (← IO.getStderr).putStrLn failure.report
    return failure.code.toUInt32
  | .ok c =>
    Phrasebook.Main.loop (← IO.getStdin) (← IO.getStdout) c
    return 0
