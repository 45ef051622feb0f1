import FilterQuery.Json
import FilterQuery.Token

namespace FilterQuery

-- Which side of a value is asked for, and whether the value itself belongs to it.
inductive Bound where
  | gt | gte | lt | lte
  deriving DecidableEq,Repr

namespace Bound

def all : List Bound := [.gt,.gte,.lt,.lte]

def keyword : Bound → String
  | .gt => "gt"
  | .gte => "gte"
  | .lt => "lt"
  | .lte => "lte"

def ofKeyword? (word : String) : Option Bound := all.find? (·.keyword == word)

theorem ofKeyword_exact (word : String) (bound : Bound) : ofKeyword? word = some bound ↔ bound.keyword = word := by
  constructor
  · intro found; simpa using List.find?_some found
  · rintro rfl; cases bound <;> decide

end Bound

-- What is asked of one field. Values are texts and are not interpreted.
inductive Condition where
  | text (field value : String)
  | term (field value : String)
  | range (field : String) (bound : Bound) (value : String)
  | terms (field : String) (values : List String)
  deriving DecidableEq,Repr

-- A query over the fields of a document. A connective may join any number of
-- parts, none and one included.
inductive Query where
  | condition (asked : Condition)
  | negated (inner : Query)
  | joined (op : Connective) (parts : List Query)
  deriving Repr

namespace Query

def text (field value : String) : Query := .condition (.text field value)
def term (field value : String) : Query := .condition (.term field value)
def range (field : String) (bound : Bound) (value : String) : Query := .condition (.range field bound value)
def terms (field : String) (values : List String) : Query := .condition (.terms field values)

mutual
def decideEq : (left right : Query) → Decidable (left = right)
  | .condition a,.condition b =>
    if same : a = b then isTrue (same ▸ rfl) else isFalse fun equal => same (condition.inj equal)
  | .negated a,.negated b =>
    match decideEq a b with
    | isTrue same => isTrue (same ▸ rfl)
    | isFalse differ => isFalse fun equal => differ (negated.inj equal)
  | .joined op a,.joined other b =>
    if same : op = other then
      match decideEqAll a b with
      | isTrue parts => isTrue (same ▸ parts ▸ rfl)
      | isFalse differ => isFalse fun equal => differ (joined.inj equal).2
    else isFalse fun equal => same (joined.inj equal).1
  | .condition _,.negated _ | .condition _,.joined .. | .negated _,.condition _
  | .negated _,.joined .. | .joined ..,.condition _ | .joined ..,.negated _ => isFalse nofun
def decideEqAll : (left right : List Query) → Decidable (left = right)
  | [],[] => isTrue rfl
  | a :: as,b :: bs =>
    match decideEq a b,decideEqAll as bs with
    | isTrue head,isTrue tail => isTrue (head ▸ tail ▸ rfl)
    | isFalse differ,_ => isFalse fun equal => differ (List.cons.inj equal).1
    | _,isFalse differ => isFalse fun equal => differ (List.cons.inj equal).2
  | [],_ :: _ | _ :: _,[] => isFalse nofun
end

instance : DecidableEq Query := decideEq

mutual
def size : Query → Nat
  | .condition _ => 1
  | .negated inner => 1 + inner.size
  | .joined _ parts => 1 + sizeAll parts
def sizeAll : List Query → Nat
  | [] => 0
  | first :: rest => first.size + sizeAll rest
end

-- What a part contributes to the parts of a group around it: its own parts when
-- it is joined by the connective of that group, else itself.
def spliced (op : Connective) : Query → List Query
  | .joined inner parts => if inner = op then parts else [.joined inner parts]
  | part => [part]

-- Groups that stand directly in a group of the same connective are merged into
-- it, from the inside out. Conditions and negations stay, and so does a group of
-- the other connective.
mutual
def flatten : Query → Query
  | .condition asked => .condition asked
  | .negated inner => .negated inner.flatten
  | .joined op parts => .joined op (flattenParts op parts)
def flattenParts (op : Connective) : List Query → List Query
  | [] => []
  | first :: rest => spliced op first.flatten ++ flattenParts op rest
end

def named (key : String) (body : Json) : Json := .obj [(key,body)]

def conditionJson : Condition → Json
  | .text field value => named "match" (named field (.str value))
  | .term field value => named "term" (named field (.str value))
  | .range field bound value => named "range" (named field (named bound.keyword (.str value)))
  | .terms field values => named "terms" (named field (.arr (values.map .str)))

def occurrence : Connective → String
  | .and => "must"
  | .or => "should"

mutual
def toJson : Query → Json
  | .condition asked => conditionJson asked
  | .negated inner => named "bool" (named "must_not" (.arr [inner.toJson]))
  | .joined op parts => named "bool" (named (occurrence op) (.arr (partsJson parts)))
def partsJson : List Query → List Json
  | [] => []
  | first :: rest => first.toJson :: partsJson rest
end

inductive ReadFault where
  | array (occur : String)
  | clauseCount
  | occurrence (occur : String)
  | bound (word : String)
  | list
  | string (got : Json)
  deriving Repr

def ReadFault.message : ReadFault → String
  | .array occur => s!"'{occur}' must be an array"
  | .clauseCount => "'must_not' must hold exactly one clause"
  | .occurrence occur => s!"unknown occurrence '{occur}'"
  | .bound word => s!"unknown bound '{word}'"
  | .list => "expected an array"
  | .string got => s!"expected a string, got {got.compact}"

inductive ReadError where
  | notSingleKey (got : Json)
  | unknownClause (clause : String)
  | malformed (clause : String) (fault : ReadFault)
  deriving Repr

def ReadError.message : ReadError → String
  | .notSingleKey got => s!"expected a JSON object with exactly one key, got: {got.compact}"
  | .unknownClause clause => s!"unknown clause '{clause}'"
  | .malformed clause fault => s!"malformed '{clause}' clause: {fault.message}"

def member : Json → Except ReadError (String × Json)
  | .obj [entry] => .ok entry
  | got => .error (.notSingleKey got)

def readString (clause : String) : Json → Except ReadError String
  | .str text => .ok text
  | got => .error (.malformed clause (.string got))

def readStrings (clause : String) : List Json → Except ReadError (List String)
  | [] => .ok []
  | first :: rest => do return (← readString clause first) :: (← readStrings clause rest)

-- The clauses about one field. A bound is looked at before its value is.
def readCondition (clause : String) (body : Json) : Except ReadError Condition :=
  match clause with
  | "match" => do
    let (field,value) ← member body
    return .text field (← readString clause value)
  | "term" => do
    let (field,value) ← member body
    return .term field (← readString clause value)
  | "range" => do
    let (field,limit) ← member body
    let (word,value) ← member limit
    match Bound.ofKeyword? word with
    | some bound => return .range field bound (← readString clause value)
    | none => .error (.malformed clause (.bound word))
  | "terms" => do
    let (field,list) ← member body
    match list with
    | .arr values => return .terms field (← readStrings clause values)
    | _ => .error (.malformed clause .list)
  | _ => .error (.unknownClause clause)

def occurring (occur : String) (parts : List Query) : Except ReadError Query :=
  match occur,parts with
  | "must",parts => .ok (.joined .and parts)
  | "should",parts => .ok (.joined .or parts)
  | "must_not",[inner] => .ok (.negated inner)
  | "must_not",_ => .error (.malformed "bool" .clauseCount)
  | occur,_ => .error (.malformed "bool" (.occurrence occur))

-- Only what `toJson` writes is read. The first clause that cannot be read is
-- reported, before anything about the clause around it.
mutual
def ofJson : Json → Except ReadError Query
  | .obj [("bool",.obj [(occur,.arr items)])] => do occurring occur (← ofItems items)
  | .obj [("bool",.obj [(occur,_)])] => .error (.malformed "bool" (.array occur))
  | .obj [("bool",body)] => .error (.notSingleKey body)
  | .obj [(clause,body)] => do return .condition (← readCondition clause body)
  | got => .error (.notSingleKey got)
def ofItems : List Json → Except ReadError (List Query)
  | [] => .ok []
  | first :: rest => do return (← ofJson first) :: (← ofItems rest)
end

end Query

end FilterQuery
