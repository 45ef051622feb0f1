import FilterQuery.Text

namespace FilterQuery

-- Three families of brackets; any may stand inside any other, and they mean the same.
inductive Family where
  | curly | round | square
  deriving DecidableEq,Repr

namespace Family

def all : List Family := [.curly,.round,.square]

def opener : Family → Char
  | .curly => '{'
  | .round => '('
  | .square => '['

def closer : Family → Char
  | .curly => '}'
  | .round => ')'
  | .square => ']'

def ofOpener? (c : Char) : Option Family := all.find? (·.opener == c)
def ofCloser? (c : Char) : Option Family := all.find? (·.closer == c)

theorem ofOpener_exact (c : Char) (family : Family) : ofOpener? c = some family ↔ family.opener = c := by
  constructor
  · intro found; simpa using List.find?_some found
  · rintro rfl; cases family <;> rfl

theorem ofCloser_exact (c : Char) (family : Family) : ofCloser? c = some family ↔ family.closer = c := by
  constructor
  · intro found; simpa using List.find?_some found
  · rintro rfl; cases family <;> rfl

end Family

-- Two connectives of one rank: only brackets decide what belongs together.
inductive Connective where
  | and | or
  deriving DecidableEq,Repr

def Connective.word : Connective → String
  | .and => "and"
  | .or => "or"

-- What one word of a filter is. A leaf keeps its text, which is not looked into.
inductive Lexeme where
  | opener (family : Family)
  | closer (family : Family)
  | connective (op : Connective)
  | leaf (text : String)
  deriving DecidableEq,Repr

namespace Lexeme

def text : Lexeme → String
  | .opener family => String.singleton family.opener
  | .closer family => String.singleton family.closer
  | .connective op => op.word
  | .leaf text => text

def structural : List Lexeme :=
  [.connective .and,.connective .or] ++ Family.all.map .opener ++ Family.all.map .closer

-- A word is structural only if it is exactly one of those, in lower case and
-- with nothing around it; every other word, the empty one included, is a leaf.
def ofText (word : String) : Lexeme := (structural.find? (·.text == word)).getD (.leaf word)

def isOpener : Lexeme → Bool
  | .opener _ => true
  | _ => false

theorem text_roundtrip (word : String) : (ofText word).text = word := by
  unfold ofText
  cases found : structural.find? (·.text == word) with
  | none => rfl
  | some lexeme => simpa using List.find?_some found

end Lexeme

-- A lexeme at its place in the filter as it was written, counted from zero.
structure Token where
  position : Nat
  lexeme : Lexeme
  deriving DecidableEq,Repr

namespace Token

def text (token : Token) : String := token.lexeme.text

def ofLexemes (lexemes : List Lexeme) : List Token :=
  lexemes.zipIdx.map fun (lexeme,position) => ⟨position,lexeme⟩

def ofWords (words : List String) : List Token := ofLexemes (words.map Lexeme.ofText)

theorem words_roundtrip (words : List String) : (ofWords words).map text = words := by
  have readings : (ofLexemes (words.map Lexeme.ofText)).map Token.lexeme = words.map Lexeme.ofText := by
    simp [ofLexemes,List.map_map,Function.comp_def,List.zipIdx_map_fst]
  calc (ofWords words).map text = ((ofWords words).map Token.lexeme).map Lexeme.text := by
        simp [List.map_map,Function.comp_def,text]
    _ = words := by
        rw [ofWords,readings]
        simp [List.map_map,Function.comp_def,Lexeme.text_roundtrip]

theorem positions_exact (words : List String) :
    (ofWords words).map Token.position = List.range words.length := by
  simp [ofWords,ofLexemes,List.map_map,Function.comp_def,List.zipIdx_map_snd,List.range_eq_range']

end Token

-- A filter that is read word by word: the words still to come and the place of
-- the first of them.
structure Lexer where
  remaining : List String
  position : Nat
  deriving DecidableEq,Repr

namespace Lexer

def start (delimiter input : String) : Lexer := ⟨Text.split delimiter input,0⟩

def next (lexer : Lexer) : Option Token × Lexer :=
  match lexer.remaining with
  | [] => (none,lexer)
  | word :: rest => (some ⟨lexer.position,.ofText word⟩,⟨rest,lexer.position+1⟩)

def take (lexer : Lexer) : Nat → List (Option Token)
  | 0 => []
  | count+1 => lexer.next.1 :: take lexer.next.2 count

end Lexer

def tokenize (delimiter input : String) : List Token := Token.ofWords (Text.split delimiter input)

def defaultDelimiter : String := "||__||"

namespace Grouping

-- Why brackets do not pair up. `openedAt` is the place of the opener that the
-- closer meets.
inductive Fault where
  | unopened (closer : Family)
  | mismatched (opener : Family) (openedAt : Nat) (closer : Family)
  | unclosed (opener : Family)
  deriving DecidableEq,Repr

def Fault.message : Fault → String
  | .unopened closer => s!"'{closer.closer}' has no matching opener"
  | .mismatched opener openedAt closer =>
    s!"'{opener.opener}' at token {openedAt} is closed by '{closer.closer}'"
  | .unclosed opener => s!"'{opener.opener}' is never closed"

structure Misplaced where
  position : Nat
  fault : Fault
  deriving DecidableEq,Repr

-- `held` are the openers not yet closed, the innermost first. A closer must be
-- of the family of the innermost; at the end the innermost left over is blamed.
def checkFrom : List (Nat × Family) → List Token → Except Misplaced Unit
  | [],[] => .ok ()
  | (position,opener) :: _,[] => .error ⟨position,.unclosed opener⟩
  | held,⟨position,lexeme⟩ :: rest =>
    match lexeme,held with
    | .opener family,held => checkFrom ((position,family) :: held) rest
    | .closer closer,[] => .error ⟨position,.unopened closer⟩
    | .closer closer,(openedAt,opener) :: held =>
      if opener = closer then checkFrom held rest
      else .error ⟨position,.mismatched opener openedAt closer⟩
    | .connective _,held | .leaf _,held => checkFrom held rest

def check (tokens : List Token) : Except Misplaced Unit := checkFrom [] tokens

def balanced (tokens : List Token) : Bool := (check tokens).isOk

end Grouping

namespace Postfix

-- Leaves go straight through. Connectives wait in `held`, the latest first,
-- until their group is closed or the filter ends. A closer without an opener
-- lets all of them go; an opener without a closer is dropped at the end.
def orderFrom : List Token → List Token → List Token
  | held,[] => held.filter (!·.lexeme.isOpener)
  | held,token :: rest =>
    match token.lexeme with
    | .leaf _ => token :: orderFrom held rest
    | .opener _ | .connective _ => orderFrom (token :: held) rest
    | .closer _ =>
      held.takeWhile (!·.lexeme.isOpener) ++
        orderFrom ((held.dropWhile (!·.lexeme.isOpener)).drop 1) rest

def order (tokens : List Token) : List Token := orderFrom [] tokens

end Postfix

end FilterQuery
