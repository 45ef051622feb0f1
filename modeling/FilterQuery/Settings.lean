import FilterQuery.Compile
import FilterQuery.Json.Reader

namespace FilterQuery

-- How filters in one text are compiled. Nothing here asks for a delimiter that
-- is not empty; see `Settings.check`.
structure Settings where
  delimiter : String := defaultDelimiter
  defaultFields : List String := []
  flattenNested : Bool := false
  deriving DecidableEq,Repr

namespace Settings

def usable (settings : Settings) : Bool := !settings.delimiter.isEmpty

def finish (settings : Settings) (query : Query) : Query :=
  if settings.flattenNested then query.flatten else query

def compile (settings : Settings) (reading : Reading) (input : String) : Except CompileError Query := do
  return settings.finish (← FilterQuery.compile reading (tokenize settings.delimiter input))

theorem finish_flag (settings : Settings) : settings.finish = if settings.flattenNested then Query.flatten else id := by
  funext query
  unfold finish
  split
  · rfl
  · rfl

theorem compile_words (settings : Settings) (reading : Reading) (input : String) :
    settings.compile reading input =
      (compileWords reading (Text.split settings.delimiter input)).map settings.finish := by
  rw [compile,compileWords,tokenize]
  cases FilterQuery.compile reading (Token.ofWords (Text.split settings.delimiter input)) with
  | error fault => rfl
  | ok query => rfl

def compileDefault (settings : Settings) (input : String) : Except CompileError Query :=
  settings.compile (.valueOnly settings.defaultFields) input

def toJson (settings : Settings) : Json :=
  .obj [("delimiter",.str settings.delimiter),
    ("default_fields",.arr (settings.defaultFields.map .str)),
    ("flatten_nested",.bool settings.flattenNested)]

open Json (Written WrittenChar)

-- Where settings are kept: nowhere, in something that has no text, or in a file.
inductive Source where
  | missing (path : String)
  | unreadable
  | file (bytes : ByteArray)

inductive LoadError where
  | missing (path : String)
  | unreadable
  | malformed
  | emptyDelimiter
  deriving DecidableEq,Repr

-- Reasons of the file system or about the place of a fault in a file are not told.
def LoadError.message : LoadError → String
  | .missing path => s!"config file does not exist: {path}"
  | .unreadable => "cannot read config file"
  | .malformed => "cannot parse config file"
  | .emptyDelimiter => "delimiter must not be empty"

def check (settings : Settings) : Except LoadError Unit :=
  if settings.usable then .ok () else .error .emptyDelimiter

def text? : Written → Option String
  | .str units => WrittenChar.decode? units
  | _ => none

def flag? : Written → Option Bool
  | .bool value => some value
  | _ => none

def textsFrom? : List Written → Option (List String)
  | [] => some []
  | first :: rest => do return (← text? first) :: (← textsFrom? rest)

def texts? : Written → Option (List String)
  | .arr items => textsFrom? items
  | _ => none

def given? (key : String) (otherwise : α) (read : Written → Option α) (members : List (String × Written)) : Option α :=
  match members.filter (·.1 == key) with
  | [] => some otherwise
  | [(_,value)] => read value
  | _ => none

-- Members under other keys are not looked into and may stand any number of times.
def overlay? (members : List (String × Written)) : Option Settings := do
  let standard : Settings := {}
  return ⟨← given? "delimiter" standard.delimiter text? members,
    ← given? "default_fields" standard.defaultFields texts? members,
    ← given? "flatten_nested" standard.flattenNested flag? members⟩

def decodeKeys? : List (List WrittenChar × Written) → Option (List (String × Written))
  | [] => some []
  | (key,value) :: rest => do return ((← WrittenChar.decode? key),value) :: (← decodeKeys? rest)

def keys : List String := ["delimiter","default_fields","flatten_nested"]

-- Settings are an object, or an array of the values of the first few keys.
def ofWritten? : Written → Option Settings
  | .obj members => do overlay? (← decodeKeys? members)
  | .arr values => if values.length ≤ keys.length then overlay? (keys.zip values) else none
  | _ => none

def parse (text : String) : Except LoadError Settings :=
  match (Written.ofText? text).bind ofWritten? with
  | none => .error .malformed
  | some settings => do
    settings.check
    return settings

def load : Source → Except LoadError Settings
  | .missing path => .error (.missing path)
  | .unreadable => .error .unreadable
  | .file bytes =>
    match String.fromUTF8? bytes with
    | none => .error .unreadable
    | some text => parse text

theorem load_text (text : String) : load (.file text.toUTF8) = parse text := by
  have decoded : String.fromUTF8? text.toUTF8 = some text := dif_pos text.isValidUTF8
  rw [load,decoded]

-- Settings that cannot be loaded leave those that hold without any.
def standing (source : Source) : Settings :=
  match load source with
  | .ok settings => settings
  | .error _ => {}

end Settings

end FilterQuery
