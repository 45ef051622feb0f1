import FilterQuery.Settings

namespace FilterQuery

-- What a session takes a line for: a condition names its field, or is a value alone.
inductive Mode where
  | keyValue | valueOnly
  deriving DecidableEq,Repr

def Mode.name : Mode → String
  | .keyValue => "KeyValue"
  | .valueOnly => "ValueOnly"

def Mode.compile (mode : Mode) (settings : Settings) (line : String) : Except CompileError Query :=
  match mode with
  | .keyValue => settings.compile .keyValue line
  | .valueOnly => settings.compileDefault line

inductive Command where
  | quit
  | help
  | showSettings
  | mode (mode : Mode)
  | fields (names : List String)
  | delimiter (text : String)
  | flatten (on : Bool)
  deriving DecidableEq,Repr

inductive CommandError where
  | unknownMode (word : String)
  | unusable (fault : Settings.LoadError)
  | notOnOff (word : String)
  | unknownCommand (name : String)
  deriving DecidableEq,Repr

def CommandError.message : CommandError → String
  | .unknownMode word => s!"unknown mode '{word}', expected kv or value"
  | .unusable fault => fault.message
  | .notOnOff word => s!"expected on or off, got '{word}'"
  | .unknownCommand name => s!"unknown command '{name}', try :help"

namespace Command

-- The name ends at the first space; what follows that one space is the argument.
def nameAndArgument (line : String) : String × String :=
  let text := line.toList
  (.ofList (text.takeWhile (· ≠ ' ')),.ofList ((text.dropWhile (· ≠ ' ')).drop 1))

-- Names between commas, trimmed; those that are blank are left out.
def fieldNames (argument : String) : List String :=
  ((Text.split "," argument).map Text.trim).filter (!·.isEmpty)

def parseMode (argument : String) : Except CommandError Mode :=
  match Text.trim argument with
  | "kv" => .ok .keyValue
  | "value" => .ok .valueOnly
  | word => .error (.unknownMode word)

def parseFlag (argument : String) : Except CommandError Bool :=
  match Text.trim argument with
  | "on" => .ok true
  | "off" => .ok false
  | word => .error (.notOnOff word)

-- A delimiter is taken as it stands, so that it may be a blank.
def parse (line : String) : Except CommandError Command :=
  let (name,argument) := nameAndArgument line
  match name with
  | ":quit" | ":q" => .ok .quit
  | ":help" => .ok .help
  | ":config" => .ok .showSettings
  | ":mode" => do return .mode (← parseMode argument)
  | ":fields" => .ok (.fields (fieldNames argument))
  | ":delim" => .ok (.delimiter argument)
  | ":flatten" => do return .flatten (← parseFlag argument)
  | _ => .error (.unknownCommand name)

end Command

-- `settings` are those that commands change and that are shown. Lines are compiled
-- by `compiling`, which is taken over from them.
structure Session where
  mode : Mode
  settings : Settings
  compiling : Settings
  deriving DecidableEq,Repr

namespace Session

def start (settings : Settings) : Session := ⟨.keyValue,settings,settings⟩

def greeting (session : Session) : List String :=
  ["--- filter compiler ---",s!"delimiter: {Text.quoted session.settings.delimiter} (:help for commands)"]

def helpText : String :=
  "Enter a delimited filter expression to compile it. Commands:\n" ++
  "  :mode kv|value       key-value leaves (a>=1) or bare values broadcast across fields\n" ++
  "  :fields f1,f2,...    fields used in value mode\n" ++
  "  :delim <text>        token delimiter\n" ++
  "  :flatten on|off      merge nested and/or chains\n" ++
  "  :config              show current settings\n" ++
  "  :help                this text\n" ++
  "  :quit                exit"

def rebuilt (session : Session) : Session := { session with compiling := session.settings }

-- A delimiter is checked in a copy of the settings, so that those in use stay as
-- they are when it is refused.
def update (session : Session) : Command → Except CommandError Session
  | .mode mode => .ok { session with mode }
  | .fields names => .ok (rebuilt { session with settings := { session.settings with defaultFields := names } })
  | .delimiter text =>
    let candidate := { session.settings with delimiter := text }
    match candidate.check with
    | .ok () => .ok (rebuilt { session with settings := candidate })
    | .error fault => .error (.unusable fault)
  | .flatten on => .ok (rebuilt { session with settings := { session.settings with flattenNested := on } })
  | .quit | .help | .showSettings => .ok session

def report (session : Session) : Command → List String
  | .quit => []
  | .help => [helpText]
  | .showSettings => [s!"mode: {session.mode.name}",session.settings.toJson.pretty]
  | .mode mode => [s!"mode: {mode.name}"]
  | .fields names => [s!"fields: {Text.quotedList names}"]
  | .delimiter text => [s!"delimiter: {Text.quoted text}"]
  | .flatten on => [s!"flatten: {on}"]

def refusal (message : String) : List String := [s!"✗ {message}"]

-- What a command shows and the session after it, if it goes on.
def perform (session : Session) (line : String) : Except CommandError (List String × Option Session) := do
  match ← Command.parse line with
  | .quit => return ([],none)
  | command =>
    let next ← session.update command
    return (next.report command,some next)

def shown : Except CompileError Query → List String
  | .ok query => [query.toJson.pretty]
  | .error fault => refusal fault.message

def answer (session : Session) (line : String) : List String :=
  shown (session.mode.compile session.compiling line)

-- What a line shows and the session after it, if it goes on. Lines with nothing
-- but blanks are passed over; commands begin with a colon at once. A command that
-- is refused leaves the session as it was.
def step (session : Session) (line : String) : List String × Option Session :=
  let text := Text.withoutLineEnd line
  if (Text.trim text).isEmpty then ([],some session)
  else if text.toList.head? = some ':' then
    match session.perform text with
    | .ok outcome => outcome
    | .error fault => (refusal fault.message,some session)
  else (session.answer text,some session)

def run (session : Session) : List String → List String
  | [] => []
  | line :: rest =>
    match session.step line with
    | (shown,some next) => shown ++ run next rest
    | (shown,none) => shown

def transcript (source : Settings.Source) (lines : List String) : List String :=
  let session := start (Settings.standing source)
  session.greeting ++ session.run lines

end Session

end FilterQuery
