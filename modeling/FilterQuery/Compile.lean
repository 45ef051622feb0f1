import FilterQuery.Query

namespace FilterQuery

namespace Leaf

inductive Fault where
  | noOperator
  | severalOperators
  | unknownOperator (symbol : String)
  | unbracketedList
  deriving DecidableEq,Repr

def Fault.message : Fault → String
  | .noOperator => "no comparison operator found"
  | .severalOperators => "expected exactly one comparison operator"
  | .unknownOperator symbol => s!"'{symbol}' is not a valid operator"
  | .unbracketedList => "membership list must be enclosed in brackets"

-- The symbol a text begins with and what follows it. Of two symbols the longer
-- counts; a '!' is one only in front of '=' or '~'.
def symbolAt? : List Char → Option (List Char × List Char)
  | '!' :: '=' :: rest => some (['!','='],rest)
  | '!' :: '~' :: rest => some (['!','~'],rest)
  | '<' :: '=' :: rest => some (['<','='],rest)
  | '>' :: '=' :: rest => some (['>','='],rest)
  | '<' :: rest => some (['<'],rest)
  | '>' :: rest => some (['>'],rest)
  | '=' :: rest => some (['='],rest)
  | '~' :: rest => some (['~'],rest)
  | _ => none

def findSymbol? : List Char → Option (List Char × List Char × List Char)
  | [] => none
  | c :: rest =>
    match symbolAt? (c :: rest) with
    | some (symbol,after) => some ([],symbol,after)
    | none => (findSymbol? rest).map fun (before,symbol,after) => (c :: before,symbol,after)

structure Parts where
  field : String
  symbol : String
  value : String
  deriving DecidableEq,Repr

-- A leaf has exactly one symbol. Nothing is trimmed on either side of it.
def split (leaf : String) : Except Fault Parts :=
  match findSymbol? leaf.toList with
  | none => .error .noOperator
  | some (before,symbol,after) =>
    if (findSymbol? after).isSome then .error .severalOperators
    else .ok ⟨.ofList before,.ofList symbol,.ofList after⟩

theorem symbolAt_consumes (text symbol after : List Char) (found : symbolAt? text = some (symbol,after)) :
    text = symbol ++ after := by
  unfold symbolAt? at found
  split at found <;> cases found <;> rfl

end Leaf

inductive Comparison where
  | equal | notEqual | above | atLeast | below | atMost | among | notAmong
  deriving DecidableEq,Repr

namespace Comparison

def all : List Comparison := [.equal,.notEqual,.above,.atLeast,.below,.atMost,.among,.notAmong]

def symbol : Comparison → String
  | .equal => "="
  | .notEqual => "!="
  | .above => ">"
  | .atLeast => ">="
  | .below => "<"
  | .atMost => "<="
  | .among => "~"
  | .notAmong => "!~"

def ofSymbol? (text : String) : Option Comparison := all.find? (·.symbol == text)

theorem ofSymbol_exact (text : String) (comparison : Comparison) :
    ofSymbol? text = some comparison ↔ comparison.symbol = text := by
  constructor
  · intro found; simpa using List.find?_some found
  · rintro rfl; cases comparison <;> decide

end Comparison

namespace Leaf

-- A value with a quote in it is meant as it stands, all its quotes taken away;
-- any other is searched for as text.
def equal (field value : String) : Except Fault Query :=
  if '"' ∈ value.toList then .ok (.term field (.ofList (value.toList.filter (· ≠ '"'))))
  else .ok (.text field value)

-- Always about the value as it stands, quotes and all.
def notEqual (field value : String) : Except Fault Query := .ok (.negated (.term field value))

def opensList (c : Char) : Bool := c ∈ ['[','(','{']
def closesList (c : Char) : Bool := c ∈ [']',')','}']

-- One bracket at each end, of any two families, and single commas between the
-- values. Two characters have to stand for the brackets. A comma has no escape.
def listValues? (value : String) : Option (List String) :=
  match value.toList with
  | [] => none
  | first :: rest =>
    match rest.getLast? with
    | none => none
    | some last =>
      if opensList first && closesList last then some (Text.split "," (.ofList rest.dropLast)) else none

def among (field value : String) : Except Fault Query :=
  match listValues? value with
  | none => .error .unbracketedList
  | some values => .ok (.terms field values)

def notAmong (field value : String) : Except Fault Query := do return .negated (← among field value)

end Leaf

def Comparison.query : Comparison → (field value : String) → Except Leaf.Fault Query
  | .equal,field,value => Leaf.equal field value
  | .notEqual,field,value => Leaf.notEqual field value
  | .above,field,value => .ok (.range field .gt value)
  | .atLeast,field,value => .ok (.range field .gte value)
  | .below,field,value => .ok (.range field .lt value)
  | .atMost,field,value => .ok (.range field .lte value)
  | .among,field,value => Leaf.among field value
  | .notAmong,field,value => Leaf.notAmong field value

def Comparison.parse (symbol : String) : Except Leaf.Fault Comparison :=
  match ofSymbol? symbol with
  | some comparison => .ok comparison
  | none => .error (.unknownOperator symbol)

def Leaf.read (leaf : String) : Except Fault Query := do
  let parts ← split leaf
  let comparison ← Comparison.parse parts.symbol
  comparison.query parts.field parts.value

-- How the leaves of a filter are read: each names its field, or each is a bare
-- value that is looked for in all of the given fields.
inductive Reading where
  | keyValue
  | valueOnly (fields : List String)
  deriving DecidableEq,Repr

namespace Reading

def hasFields : Reading → Bool
  | .keyValue => true
  | .valueOnly fields => !fields.isEmpty

theorem hasFields_valueOnly (fields : List String) : (valueOnly fields).hasFields = true ↔ fields ≠ [] := by
  simp [hasFields]

-- Any one field may hold the value; the fields keep their order.
def broadcast (fields : List String) (value : String) : Except Leaf.Fault Query := do
  return .joined .or (← fields.mapM fun field => Leaf.equal field value)

def leaf : Reading → String → Except Leaf.Fault Query
  | .keyValue,text => Leaf.read text
  | .valueOnly fields,text => broadcast fields text

end Reading

-- Why a filter has no query. Positions are those of the tokens.
inductive CompileError where
  | grouping (misplaced : Grouping.Misplaced)
  | stray (position : Nat) (bracket : Char)
  | expression (position : Nat) (leaf : String) (fault : Leaf.Fault)
  | underflow (position : Nat) (op : Connective) (available : Nat)
  | incomplete (remaining : Nat)
  | noFields
  deriving DecidableEq,Repr

namespace CompileError

def message : CompileError → String
  | .grouping ⟨position,fault⟩ => s!"unbalanced grouping at token {position}: {fault.message}"
  | .stray position bracket =>
    s!"unbalanced grouping at token {position}: unexpected '{bracket}' in postfix sequence"
  | .expression position leaf fault => s!"invalid expression '{leaf}' at token {position}: {fault.message}"
  | .underflow position op available =>
    s!"operator '{op.word}' at token {position} needs two operands, found {available}"
  | .incomplete remaining =>
    s!"malformed expression: {remaining} nodes left after evaluation, expected 1"
  | .noFields => "value-only compilation requires at least one field"

def position? : CompileError → Option Nat
  | .grouping misplaced => some misplaced.position
  | .stray position _ | .expression position _ _ | .underflow position _ _ => some position
  | .incomplete _ | .noFields => none

end CompileError

namespace Evaluate

-- A token in postfix order acts on the queries made so far, the latest first. A
-- connective joins the latest two, the earlier of them on the left.
def step (reading : Reading) (made : List Query) (token : Token) : Except CompileError (List Query) :=
  match token.lexeme with
  | .leaf text =>
    match reading.leaf text with
    | .ok query => .ok (query :: made)
    | .error fault => .error (.expression token.position text fault)
  | .connective op =>
    match made with
    | right :: left :: below => .ok (.joined op [left,right] :: below)
    | _ => .error (.underflow token.position op made.length)
  | .opener family => .error (.stray token.position family.opener)
  | .closer family => .error (.stray token.position family.closer)

-- The first token that cannot act ends it; otherwise one query has to remain.
def runFrom (reading : Reading) : List Query → List Token → Except CompileError Query
  | [query],[] => .ok query
  | made,[] => .error (.incomplete made.length)
  | made,token :: rest => do runFrom reading (← step reading made token) rest

end Evaluate

def evaluate (reading : Reading) (tokens : List Token) : Except CompileError Query :=
  if reading.hasFields then Evaluate.runFrom reading [] tokens else .error .noFields

-- The query of a filter as it was written. Missing fields are reported before
-- brackets, and brackets before anything about leaves and connectives.
def compile (reading : Reading) (tokens : List Token) : Except CompileError Query :=
  if reading.hasFields then
    match Grouping.check tokens with
    | .error misplaced => .error (.grouping misplaced)
    | .ok () => evaluate reading (Postfix.order tokens)
  else .error .noFields

def compileWords (reading : Reading) (words : List String) : Except CompileError Query :=
  compile reading (Token.ofWords words)

end FilterQuery
