import FilterQuery.Session

namespace FilterQuery.Main

def standardPath : String := "filter_compiler.json"

def source (path : String) : IO Settings.Source := do
  match ← (IO.FS.readBinFile path).toBaseIO with
  | .ok bytes => return .file bytes
  | .error (.noFileOrDirectory ..) => return .missing path
  | .error _ => return .unreadable

def present (blocks : List String) : IO Unit := do
  let stdout ← IO.getStdout
  for block in blocks do stdout.putStrLn block
  stdout.flush

-- One line at a time until the input ends or a line ends the session.
partial def converse (stdin : IO.FS.Stream) (session : Session) : IO Unit := do
  let line ← stdin.getLine
  if line.isEmpty then return
  let (shown,next) := session.step line
  Main.present shown
  match next with
  | some session => converse stdin session
  | none => return

end FilterQuery.Main

def main (args : List String) : IO UInt32 := do
  let source ← FilterQuery.Main.source (args.headD FilterQuery.Main.standardPath)
  let session := FilterQuery.Session.start (FilterQuery.Settings.standing source)
  FilterQuery.Main.present session.greeting
  FilterQuery.Main.converse (← IO.getStdin) session
  return 0
