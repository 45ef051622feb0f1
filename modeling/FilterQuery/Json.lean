namespace FilterQuery

namespace Decimal

-- A positive number `mantissa` · 2^`exponent` among those that a binary format
-- has. The next one below is half as far away as the next one above if `narrow`.
structure Binary where
  mantissa : Nat
  exponent : Int
  narrow : Bool
  deriving DecidableEq,Repr

-- The number `digits` · 10^`exponent`.
structure Digits where
  digits : Nat
  exponent : Int
  deriving DecidableEq,Repr

-- A quarter of the step of `number` as a fraction of 10^`grid`.
def quarter (number : Binary) (grid : Int) : Nat × Nat :=
  (Nat.pow 2 (number.exponent - 2).toNat * Nat.pow 10 (-grid).toNat,
    Nat.pow 2 (2 - number.exponent).toNat * Nat.pow 10 grid.toNat)

-- Whether `count` · 10^`grid` rounds to `number`: it lies between the middles of
-- the gaps on both sides, which themselves round to an even mantissa.
def readsBack (number : Binary) (grid : Int) (count : Nat) : Bool :=
  let (up,down) := quarter number grid
  let low := (4 * number.mantissa - (if number.narrow then 1 else 2)) * up
  let high := (4 * number.mantissa + 2) * up
  if number.mantissa % 2 = 0 then low ≤ count * down && count * down ≤ high
  else low < count * down && count * down < high

-- Of the two points of the grid around `number` one that reads back, if any:
-- the nearer, and of two equally near the even one.
def onGrid? (number : Binary) (grid : Int) : Option Nat :=
  let (up,down) := quarter number grid
  let value := 4 * number.mantissa * up
  let below := value / down
  let above := below + 1
  match readsBack number grid below,readsBack number grid above with
  | true,false => some below
  | false,true => some above
  | false,false => none
  | true,true =>
    let toBelow := value - below * down
    let toAbove := above * down - value
    some (if toBelow < toAbove || (toBelow = toAbove && below % 2 = 0) then below else above)

def search (number : Binary) : Nat → Int → Digits
  | 0,grid => ⟨0,grid⟩
  | fuel+1,grid =>
    match onGrid? number grid with
    | some count => ⟨count,grid⟩
    | none => search number fuel (grid - 1)

-- The fewest digits that read back as `number`. The first grid is coarser than
-- the number; seventeen digits tell all numbers of 53 bits apart.
def shortest (number : Binary) : Digits :=
  search number 25 ((number.exponent + number.mantissa.log2 + 1) * 30103 / 100000 + 1)

end Decimal

namespace Json

-- A number is a whole number from -2^63 to 2^64-1, or a double by its 64 bits.
-- The double is finite; negative zero is only had as a double.
inductive Number where
  | integer (value : Int)
  | double (bits : UInt64)
  deriving DecidableEq,Repr

namespace Number

-- Exponents in which digits are written in their places; outside of them one
-- digit stands before the point and the exponent has a sign.
def positional (exponent : Int) : Bool := -5 ≤ exponent && exponent ≤ 15

def digitsText (digits : List Char) (exponent : Int) : List Char :=
  if positional exponent then
    if exponent < 0 then '0' :: '.' :: List.replicate (-exponent - 1).toNat '0' ++ digits
    else
      let whole := exponent.toNat + 1
      let fraction := digits.drop whole
      digits.take whole ++ List.replicate (whole - digits.length) '0' ++ '.' ::
        (if fraction.isEmpty then ['0'] else fraction)
  else
    let mark := 'e' :: (if exponent < 0 then '-' else '+') :: Nat.toDigits 10 exponent.natAbs
    match digits with
    | [] => mark
    | [only] => only :: mark
    | first :: rest => first :: '.' :: rest ++ mark

def doubleText (bits : UInt64) : List Char :=
  let sign := if bits.toNat / Nat.pow 2 63 = 1 then ['-'] else []
  let field : Nat := bits.toNat / Nat.pow 2 52 % Nat.pow 2 11
  let fraction : Nat := bits.toNat % Nat.pow 2 52
  if field = 0 ∧ fraction = 0 then sign ++ ['0','.','0']
  else
    let number : Decimal.Binary :=
      if field = 0 then ⟨fraction,-1074,false⟩
      else ⟨Nat.pow 2 52 + fraction,(field : Int) - 1075,fraction = 0 && field > 1⟩
    let found := Decimal.shortest number
    let digits := Nat.toDigits 10 found.digits
    sign ++ digitsText digits (found.exponent + digits.length - 1)

def text : Number → List Char
  | .integer (.ofNat n) => Nat.toDigits 10 n
  | .integer (.negSucc n) => '-' :: Nat.toDigits 10 (n+1)
  | .double bits => doubleText bits

end Number

-- A number as it is written, its digits by value. Without a fraction and without
-- an exponent it is a whole number.
structure Numeral where
  negative : Bool
  whole : List Nat
  fraction : List Nat
  exponent : Option (Bool × List Nat)
  deriving DecidableEq,Repr

namespace Numeral

-- Digits join the significand as long as it stays below 2^64; the first that
-- does not fit and all after it are left over.
def gather : Nat → List Nat → Nat × List Nat
  | significand,[] => (significand,[])
  | significand,digit :: rest =>
    if significand * 10 + digit < Nat.pow 2 64 then gather (significand * 10 + digit) rest
    else (significand,digit :: rest)

def power (exponent : Nat) : Float := .ofScientific 1 false exponent

-- `significand` · 10^`exponent` in steps of double arithmetic: one product, or
-- up to two quotients by powers of ten that a double has. Too large is nothing.
def scale? (significand : Nat) (exponent : Int) : Option Float :=
  let value := significand.toUInt64.toFloat
  match exponent with
  | .ofNat up =>
    if significand = 0 then some value
    else if up > 308 then none
    else if (value * power up).isInf then none
    else some (value * power up)
  | .negSucc less =>
    let down := less + 1
    some (value / power (min down 308) / power (min (down - 308) 308))

def wholeValue (digits : List Nat) : Nat := digits.foldl (fun n digit => n * 10 + digit) 0

def exponentValue : Option (Bool × List Nat) → Int
  | none => 0
  | some (true,digits) => -(wholeValue digits : Int)
  | some (false,digits) => wholeValue digits

-- Leftover digits before the point count as powers of ten; behind it they are
-- dropped.
def double? (numeral : Numeral) : Option Number :=
  let (significand,extra) := gather 0 numeral.whole
  let (significand,dropped) := gather significand numeral.fraction
  let taken := numeral.fraction.length - dropped.length
  let exponent := (extra.length : Int) - taken + exponentValue numeral.exponent
  (scale? significand exponent).map fun value => .double (if numeral.negative then -value else value).toBits

def value? (numeral : Numeral) : Option Number :=
  let size := wholeValue numeral.whole
  let plain := numeral.fraction.isEmpty && numeral.exponent.isNone
  if plain && !numeral.negative && size < Nat.pow 2 64 then some (.integer size)
  else if plain && numeral.negative && 0 < size && size ≤ Nat.pow 2 63 then some (.integer (-size))
  else numeral.double?

end Numeral
end Json

-- A JSON value. An object keeps its members in the order in which they are
-- listed; nothing here asks for distinct keys.
inductive Json where
  | null
  | bool (value : Bool)
  | num (value : Json.Number)
  | str (text : String)
  | arr (items : List Json)
  | obj (members : List (String × Json))
  deriving Repr

namespace Json

-- A member takes its place by its key, and takes the place of a member that has
-- the same key. Keys are ordered by code point.
def insertMember (key : String) (value : Json) : List (String × Json) → List (String × Json)
  | [] => [(key,value)]
  | (other,old) :: rest =>
    if key = other then (key,value) :: rest
    else if key < other then (key,value) :: (other,old) :: rest
    else (other,old) :: insertMember key value rest

-- An object in which each key stands once, with the value that came last.
def sorted (members : List (String × Json)) : Json :=
  .obj (members.foldl (fun found (key,value) => insertMember key value found) [])

def hexDigit (n : Nat) : Char := (Nat.toDigits 16 n).headD '0'

-- Quotes, backslashes and the characters below the space have an escape, five of
-- those by name and the others by number; all else stands as it is.
def escaped (c : Char) : List Char :=
  match c with
  | '"' => ['\\','"']
  | '\\' => ['\\','\\']
  | '\x08' => ['\\','b']
  | '\x09' => ['\\','t']
  | '\x0A' => ['\\','n']
  | '\x0C' => ['\\','f']
  | '\x0D' => ['\\','r']
  | c =>
    if c.toNat < 0x20 then ['\\','u','0','0',hexDigit (c.toNat / 16),hexDigit (c.toNat % 16)] else [c]

-- All writers below put a value in front of the text that comes after it.
def stringOnto (text : String) (after : List Char) : List Char :=
  '"' :: text.toList.flatMap escaped ++ '"' :: after

def boolText : Bool → List Char
  | true => ['t','r','u','e']
  | false => ['f','a','l','s','e']

mutual
def compactOnto : Json → List Char → List Char
  | .null,after => 'n' :: 'u' :: 'l' :: 'l' :: after
  | .bool value,after => boolText value ++ after
  | .num value,after => value.text ++ after
  | .str text,after => stringOnto text after
  | .arr items,after => '[' :: compactItemsOnto items (']' :: after)
  | .obj members,after => '{' :: compactMembersOnto members ('}' :: after)
def compactItemsOnto : List Json → List Char → List Char
  | [],after => after
  | [last],after => compactOnto last after
  | first :: rest,after => compactOnto first (',' :: compactItemsOnto rest after)
def compactMembersOnto : List (String × Json) → List Char → List Char
  | [],after => after
  | [(key,last)],after => stringOnto key (':' :: compactOnto last after)
  | (key,first) :: rest,after =>
    stringOnto key (':' :: compactOnto first (',' :: compactMembersOnto rest after))
end

def newline (depth : Nat) : List Char := '\n' :: List.replicate (2 * depth) ' '

-- One item or member a line, two spaces deeper than what holds it. Nothing
-- stands between the brackets of what is empty.
mutual
def prettyOnto (depth : Nat) : Json → List Char → List Char
  | .null,after => 'n' :: 'u' :: 'l' :: 'l' :: after
  | .bool value,after => boolText value ++ after
  | .num value,after => value.text ++ after
  | .str text,after => stringOnto text after
  | .arr [],after => '[' :: ']' :: after
  | .arr items,after => '[' :: prettyItemsOnto (depth+1) items (newline depth ++ ']' :: after)
  | .obj [],after => '{' :: '}' :: after
  | .obj members,after => '{' :: prettyMembersOnto (depth+1) members (newline depth ++ '}' :: after)
def prettyItemsOnto (depth : Nat) : List Json → List Char → List Char
  | [],after => after
  | [last],after => newline depth ++ prettyOnto depth last after
  | first :: rest,after => newline depth ++ prettyOnto depth first (',' :: prettyItemsOnto depth rest after)
def prettyMembersOnto (depth : Nat) : List (String × Json) → List Char → List Char
  | [],after => after
  | [(key,last)],after => newline depth ++ stringOnto key (':' :: ' ' :: prettyOnto depth last after)
  | (key,first) :: rest,after =>
    newline depth ++
      stringOnto key (':' :: ' ' :: prettyOnto depth first (',' :: prettyMembersOnto depth rest after))
end

def compact (json : Json) : String := .ofList (compactOnto json [])
def pretty (json : Json) : String := .ofList (prettyOnto 0 json [])

end Json

end FilterQuery
