import FilterQuery.Json

namespace FilterQuery

namespace Json

-- One character of a string as it is written: itself, also by a named escape, or
-- a 16-bit unit by its number, which may be half of a character.
inductive WrittenChar where
  | plain (c : Char)
  | unit (code : Nat)
  deriving DecidableEq,Repr

-- JSON as it is written. Escapes are not paired up, numbers not valued and
-- members neither sorted nor merged, so that a part nobody asks for need not
-- mean anything.
inductive Written where
  | null
  | bool (value : Bool)
  | num (numeral : Numeral)
  | str (units : List WrittenChar)
  | arr (items : List Written)
  | obj (members : List (List WrittenChar × Written))
  deriving Repr

namespace WrittenChar

-- Two halves in the right order make one character; a half alone makes none.
def decodeText? : List WrittenChar → Option (List Char)
  | [] => some []
  | .plain c :: rest => (decodeText? rest).map (c :: ·)
  | .unit high :: .unit low :: rest =>
    if 0xD800 ≤ high ∧ high < 0xDC00 then
      if 0xDC00 ≤ low ∧ low < 0xE000 then
        (decodeText? rest).map (Char.ofNat (0x10000 + (high - 0xD800) * 0x400 + (low - 0xDC00)) :: ·)
      else none
    else if 0xDC00 ≤ high ∧ high < 0xE000 then none
    else (decodeText? (.unit low :: rest)).map (Char.ofNat high :: ·)
  | .unit code :: rest =>
    if 0xD800 ≤ code ∧ code < 0xE000 then none else (decodeText? rest).map (Char.ofNat code :: ·)

def decode? (units : List WrittenChar) : Option String := (decodeText? units).map String.ofList

end WrittenChar

namespace Written

def isSpace (c : Char) : Bool := c == ' ' || c == '\n' || c == '\r' || c == '\t'
def skipSpace (text : List Char) : List Char := text.dropWhile isSpace

def digitValue (c : Char) : Nat := c.toNat - '0'.toNat

def hexValue? (c : Char) : Option Nat :=
  if c.isDigit then some (digitValue c)
  else if 'a' ≤ c ∧ c ≤ 'f' then some (c.toNat - 'a'.toNat + 10)
  else if 'A' ≤ c ∧ c ≤ 'F' then some (c.toNat - 'A'.toNat + 10)
  else none

def readDigits (text : List Char) : Option (List Nat × List Char) :=
  match text.takeWhile Char.isDigit with
  | [] => none
  | digits => some (digits.map digitValue,text.dropWhile Char.isDigit)

def readSign (mark : Char) : List Char → Bool × List Char
  | [] => (false,[])
  | c :: rest => if c = mark then (true,rest) else (false,c :: rest)

def readFraction : List Char → Option (List Nat × List Char)
  | '.' :: rest => readDigits rest
  | text => some ([],text)

def readExponent : List Char → Option (Option (Bool × List Nat) × List Char)
  | [] => some (none,[])
  | c :: rest =>
    if c = 'e' ∨ c = 'E' then do
      let (negative,unsigned) := readSign '-' rest
      let (_,unsigned) := if negative then (false,unsigned) else readSign '+' unsigned
      let (digits,rest) ← readDigits unsigned
      return (some (negative,digits),rest)
    else some (none,c :: rest)

-- A whole part does not begin with a needless zero.
def readNumeral (text : List Char) : Option (Numeral × List Char) := do
  let (negative,unsigned) := readSign '-' text
  let (whole,rest) ← readDigits unsigned
  if whole.head? = some 0 ∧ whole.length ≠ 1 then none
  let (fraction,rest) ← readFraction rest
  let (exponent,rest) ← readExponent rest
  return (⟨negative,whole,fraction,exponent⟩,rest)

def namedEscape? (c : Char) : Option Char :=
  match c with
  | '"' => some '"'
  | '\\' => some '\\'
  | '/' => some '/'
  | 'b' => some '\x08'
  | 'f' => some '\x0C'
  | 'n' => some '\x0A'
  | 'r' => some '\x0D'
  | 't' => some '\x09'
  | _ => none

-- The rest of a string whose opening quote is read. No character below the space
-- may stand in it.
def readUnits : List Char → Option (List WrittenChar × List Char)
  | [] => none
  | '"' :: rest => some ([],rest)
  | '\\' :: 'u' :: a :: b :: c :: d :: rest => do
    let code := (← hexValue? a) * 0x1000 + (← hexValue? b) * 0x100 + (← hexValue? c) * 0x10 + (← hexValue? d)
    let (units,rest) ← readUnits rest
    return (.unit code :: units,rest)
  | '\\' :: c :: rest => do
    let escape ← namedEscape? c
    let (units,rest) ← readUnits rest
    return (.plain escape :: units,rest)
  | c :: rest =>
    if c.toNat < 0x20 ∨ c = '\\' then none
    else do
      let (units,rest) ← readUnits rest
      return (.plain c :: units,rest)

def readWord (word : List Char) (value : Written) (text : List Char) : Option (Written × List Char) :=
  if word.isPrefixOf text then some (value,text.drop word.length) else none

-- One value and the text behind it. Each step down either moves to a shorter
-- text or goes from items to their first value, so twice the length is enough.
mutual
def readValue : Nat → List Char → Option (Written × List Char)
  | 0,_ => none
  | fuel+1,text =>
    match skipSpace text with
    | '"' :: rest => do
      let (units,rest) ← readUnits rest
      return (.str units,rest)
    | '[' :: rest =>
      match skipSpace rest with
      | ']' :: rest => some (.arr [],rest)
      | rest => do
        let (items,rest) ← readItems fuel rest
        return (.arr items,rest)
    | '{' :: rest =>
      match skipSpace rest with
      | '}' :: rest => some (.obj [],rest)
      | rest => do
        let (members,rest) ← readMembers fuel rest
        return (.obj members,rest)
    | 'n' :: rest => readWord "ull".toList .null rest
    | 't' :: rest => readWord "rue".toList (.bool true) rest
    | 'f' :: rest => readWord "alse".toList (.bool false) rest
    | text => do
      let (numeral,rest) ← readNumeral text
      return (.num numeral,rest)
def readItems : Nat → List Char → Option (List Written × List Char)
  | 0,_ => none
  | fuel+1,text => do
    let (first,rest) ← readValue fuel text
    match skipSpace rest with
    | ']' :: rest => some ([first],rest)
    | ',' :: rest => do
      let (others,rest) ← readItems fuel rest
      return (first :: others,rest)
    | _ => none
def readMembers : Nat → List Char → Option (List (List WrittenChar × Written) × List Char)
  | 0,_ => none
  | fuel+1,text =>
    match skipSpace text with
    | '"' :: rest => do
      let (key,rest) ← readUnits rest
      match skipSpace rest with
      | ':' :: rest => do
        let (first,rest) ← readValue fuel rest
        match skipSpace rest with
        | '}' :: rest => some ([(key,first)],rest)
        | ',' :: rest => do
          let (others,rest) ← readMembers fuel rest
          return ((key,first) :: others,rest)
        | _ => none
      | _ => none
    | _ => none
end

def ofText? (text : String) : Option Written :=
  match readValue (2 * text.toList.length + 1) text.toList with
  | some (value,rest) => if (skipSpace rest).isEmpty then some value else none
  | none => none

end Written

-- The value that written JSON stands for. A string has no half characters, a
-- number is in range, and of members with one key the last counts.
mutual
def Written.value? : Written → Option Json
  | .null => some .null
  | .bool value => some (.bool value)
  | .num numeral => numeral.value?.map .num
  | .str units => (WrittenChar.decode? units).map .str
  | .arr items => (Written.values? items).map .arr
  | .obj members => (Written.members? members).map sorted
def Written.values? : List Written → Option (List Json)
  | [] => some []
  | first :: rest => do return (← first.value?) :: (← Written.values? rest)
def Written.members? : List (List WrittenChar × Written) → Option (List (String × Json))
  | [] => some []
  | (key,first) :: rest => do return ((← WrittenChar.decode? key),(← first.value?)) :: (← Written.members? rest)
end

def parse? (text : String) : Option Json := (Written.ofText? text).bind Written.value?

end Json

end FilterQuery
