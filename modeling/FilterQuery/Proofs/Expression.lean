import Mathlib.Control.Monad.Basic
import FilterQuery.Proofs.Forest
import FilterQuery.Proofs.LeafParts
import FilterQuery.Proofs.PostOrder

namespace FilterQuery
open Outcome

abbrev LeafWord := {word : String // Lexeme.Plain word}

-- The filters that are written as meant: operands with one connective between
-- any two of them, an operand being a leaf or an expression in brackets.
mutual
inductive Operand where
  | leaf (word : LeafWord)
  | group (family : Family) (inner : Expression)
inductive Expression where
  | single (operand : Operand)
  | chain (first : Operand) (op : Connective) (rest : Expression)
end

mutual
def Operand.lexemes : Operand → List Lexeme
  | .leaf word => [.leaf word.val]
  | .group family inner => .opener family :: (inner.lexemes ++ [.closer family])
def Expression.lexemes : Expression → List Lexeme
  | .single operand => operand.lexemes
  | .chain first op rest => first.lexemes ++ .connective op :: rest.lexemes
end

def Expression.words (expression : Expression) : List String := expression.lexemes.map Lexeme.text

-- A chain leans to the right, whatever its connectives are.
mutual
def Operand.meant (meaning : String → Query) : Operand → Query
  | .leaf word => meaning word.val
  | .group _ inner => inner.meant meaning
def Expression.meant (meaning : String → Query) : Expression → Query
  | .single operand => operand.meant meaning
  | .chain first op rest => .joined op [first.meant meaning,rest.meant meaning]
end

mutual
def Operand.forest (start : Nat) (rest : Forest) : Operand → Forest
  | .leaf word => .leaf start word.val rest
  | .group family inner =>
    .group family start (start + 1 + inner.lexemes.length) (inner.forest (start + 1)) rest
def Expression.forest (start : Nat) : Expression → Forest
  | .single operand => operand.forest start .empty
  | .chain first op rest =>
    first.forest start (.connective (start + first.lexemes.length) op
      (rest.forest (start + first.lexemes.length + 1)))
end

mutual
def Operand.combination (start : Nat) : Operand → Combination
  | .leaf word => .leaf start word.val
  | .group _ inner => inner.combination (start + 1)
def Expression.combination (start : Nat) : Expression → Combination
  | .single operand => operand.combination start
  | .chain first op rest => .joined (start + first.lexemes.length) op (first.combination start)
      (rest.combination (start + first.lexemes.length + 1))
end

mutual
theorem Operand.forest_tokens : (operand : Operand) → (start : Nat) → (rest : Forest) →
    (operand.forest start rest).tokens = Token.numbered start operand.lexemes ++ rest.tokens
  | .leaf word,start,rest => rfl
  | .group family inner,start,rest => by
    simp [Operand.forest,Operand.lexemes,Forest.tokens,Token.numbered,Token.numbered_append,
      inner.forest_tokens (start + 1)]
theorem Expression.forest_tokens : (expression : Expression) → (start : Nat) →
    (expression.forest start).tokens = Token.numbered start expression.lexemes
  | .single operand,start => by
    simp [Expression.forest,Expression.lexemes,operand.forest_tokens,Forest.tokens]
  | .chain first op rest,start => by
    simp [Expression.forest,Expression.lexemes,Forest.tokens,Token.numbered,Token.numbered_append,
      first.forest_tokens,rest.forest_tokens]
end

mutual
theorem Operand.forest_settled : (operand : Operand) → (start : Nat) → (rest : Forest) →
    (operand.forest start rest).settled = (operand.combination start).listing ++ rest.settled ∧
      (operand.forest start rest).direct = rest.direct
  | .leaf word,start,rest => ⟨rfl,rfl⟩
  | .group family inner,start,rest =>
    ⟨by simp only [Operand.forest,Operand.combination,Forest.settled,inner.forest_listing],rfl⟩
theorem Expression.forest_listing : (expression : Expression) → (start : Nat) →
    (expression.forest start).settled ++ (expression.forest start).direct = (expression.combination start).listing
  | .single operand,start => by
    obtain ⟨settled,direct⟩ := operand.forest_settled start .empty
    simp [Expression.forest,Expression.combination,settled,direct,Forest.settled,Forest.direct]
  | .chain first op rest,start => by
    obtain ⟨settled,direct⟩ := first.forest_settled start
      (.connective (start + first.lexemes.length) op (rest.forest (start + first.lexemes.length + 1)))
    have later := rest.forest_listing (start + first.lexemes.length + 1)
    simp only [Expression.forest,Expression.combination,Combination.listing,settled,direct,
      Forest.settled,Forest.direct,← later,List.append_assoc]
end

mutual
theorem Operand.combination_meant (meaning : String → Query) : (operand : Operand) → (start : Nat) →
    (operand.combination start).meant meaning = operand.meant meaning
  | .leaf _,_ => rfl
  | .group _ inner,start => inner.combination_meant meaning (start + 1)
theorem Expression.combination_meant (meaning : String → Query) : (expression : Expression) → (start : Nat) →
    (expression.combination start).meant meaning = expression.meant meaning
  | .single operand,start => operand.combination_meant meaning start
  | .chain first op rest,start => by
    simp [Expression.combination,Expression.meant,Combination.meant,first.combination_meant meaning,
      rest.combination_meant meaning]
end

mutual
theorem Operand.words_lexemes : (operand : Operand) →
    (operand.lexemes.map Lexeme.text).map Lexeme.ofText = operand.lexemes
  | .leaf word => by simp [Operand.lexemes,Lexeme.text,(Lexeme.ofText_leaf word.val).mpr word.property]
  | .group family inner => by
    simpa [Operand.lexemes,Lexeme.ofText_opener,Lexeme.ofText_closer] using inner.words_lexemes
theorem Expression.words_lexemes : (expression : Expression) →
    (expression.lexemes.map Lexeme.text).map Lexeme.ofText = expression.lexemes
  | .single operand => operand.words_lexemes
  | .chain first op rest => by
    have head := first.words_lexemes
    have tail := rest.words_lexemes
    rw [List.map_map] at head tail
    simp [Expression.lexemes,Lexeme.ofText_connective,head,tail]
end

theorem Expression.words_exact (expression : Expression) (words : List String) :
    expression.words = words ↔ expression.lexemes = words.map Lexeme.ofText := by
  constructor
  · rintro rfl
    exact expression.words_lexemes.symm
  · intro written
    simp [Expression.words,written,Function.comp_def,Lexeme.text_roundtrip]

theorem Expression.tokens_numbered (expression : Expression) :
    Token.ofWords expression.words = Token.numbered 0 expression.lexemes := by
  rw [Token.ofWords,Expression.words,expression.words_lexemes,Token.ofLexemes_numbered]

theorem Expression.compile_combination (expression : Expression) (reading : Reading)
    (fields : reading.hasFields = true) :
    compileWords reading expression.words = (expression.combination 0).query reading := by
  rw [compileWords,expression.tokens_numbered,← expression.forest_tokens,Forest.compile_tokens _ _ fields,
    expression.forest_listing,Combination.evaluate_listing _ _ fields]

theorem Expression.leaves_listing (expression : Expression) :
    Token.leaves (expression.combination 0).listing = Token.leaves (Token.ofWords expression.words) := by
  rw [← expression.forest_listing,← Forest.order_tokens,Postfix.order_leaves,expression.forest_tokens,
    expression.tokens_numbered]

theorem Expression.connectives_listing (expression : Expression) :
    (Token.connectives (expression.combination 0).listing).Perm
      (Token.connectives (Token.ofWords expression.words)) := by
  rw [← expression.forest_listing,expression.tokens_numbered,← expression.forest_tokens]
  exact (expression.forest 0).settled_connectives

theorem compile_expression (expression : Expression) :
    (∀ meaning : String → Query,
      (∀ word ∈ expression.words, Lexeme.Plain word → Leaf.read word = .ok (meaning word)) →
        compileWords .keyValue expression.words = .ok (expression.meant meaning)) ∧
    (∀ before word after fault, expression.words = before ++ word :: after → Lexeme.Plain word →
      Leaf.read word = .error fault →
      (∀ earlier ∈ before, Lexeme.Plain earlier → ∃ query, Leaf.read earlier = .ok query) →
        compileWords .keyValue expression.words = .error (.expression before.length word fault)) ∧
    (∀ fields, fields ≠ [] →
      compileWords (.valueOnly fields) expression.words = .ok (expression.meant (Reading.anywhere fields))) := by
  refine ⟨?_,?_,?_⟩
  · intro meaning readable
    rw [expression.compile_combination .keyValue rfl,← expression.combination_meant meaning 0]
    apply Combination.query_meant
    intro leaf member
    rw [expression.leaves_listing,Token.ofWords_numbered] at member
    obtain ⟨listed,plain⟩ := Token.leaves_plain 0 expression.words leaf member
    exact readable leaf.2 listed plain
  · intro before word after fault words plain unread readable
    have quiet : (Token.leaves (Token.numbered 0 (before.map Lexeme.ofText))).findSome?
        (Reading.fault? .keyValue) = none := by
      apply List.findSome?_eq_none_iff.mpr
      intro leaf member
      obtain ⟨listed,plain⟩ := Token.leaves_plain 0 before leaf member
      obtain ⟨query,read⟩ := readable leaf.2 listed plain
      simp [Reading.fault?,Reading.leaf,read]
    have blamed := (expression.combination 0).query_fault .keyValue
    rw [expression.leaves_listing,Token.ofWords_numbered,words,List.map_append,List.map_cons,
      (Lexeme.ofText_leaf word).mpr plain,Token.numbered_append,Token.leaves_append,List.findSome?_append,quiet]
      at blamed
    simp only [Token.numbered,Token.leaves_cons,Token.leaf?,Option.toList_some,List.singleton_append,
      List.findSome?_cons,Reading.fault?,Reading.leaf,unread,Option.none_or,List.length_map,Nat.zero_add] at blamed
    rw [expression.compile_combination .keyValue rfl,blamed]
  · intro fields present
    have asked := (Reading.hasFields_valueOnly fields).mpr present
    rw [expression.compile_combination _ asked,← expression.combination_meant (Reading.anywhere fields) 0]
    exact Combination.query_meant _ _ _ fun leaf _ => Reading.leaf_valueOnly fields _

def nestedGroups : Expression :=
  .single (.group .curly (.chain (.leaf ⟨"a=1",by decide⟩) .and
    (.chain (.group .round (.chain (.leaf ⟨"b>2",by decide⟩) .or (.single (.leaf ⟨"c!=x",by decide⟩)))) .or
      (.single (.group .square (.single (.leaf ⟨"d~(p,q)",by decide⟩)))))))

def faultyLeaves : Expression :=
  .chain (.group .round (.chain (.leaf ⟨"a=\"1\"",by decide⟩) .or (.single (.leaf ⟨"b==2",by decide⟩)))) .and
    (.single (.leaf ⟨"c",by decide⟩))

def readOr (other : Query) (word : String) : Query := (Leaf.read word).toOption.getD other

theorem compile_nested_faulty :
    compileWords .keyValue ["\x7b","a=1","and","(","b>2","or","c!=x",")","or","[","d~(p,q)","]","\x7d"] =
      .ok (.joined .and [.text "a" "1",.joined .or [.joined .or [.range "b" .gt "2",.negated (.term "c" "x")],
        .terms "d" ["p","q"]]]) ∧
    compileWords .keyValue ["(","a=\"1\"","or","b==2",")","and","c"] = .error (.expression 3 "b==2" .severalOperators) ∧
    compileWords (.valueOnly ["f","g"]) ["(","a=\"1\"","or","b==2",")","and","c"] =
      .ok (.joined .and [.joined .or [.joined .or [.term "f" "a=1",.term "g" "a=1"],
        .joined .or [.text "f" "b==2",.text "g" "b==2"]],.joined .or [.text "f" "c",.text "g" "c"]]) := by
  refine ⟨?_,?_,?_⟩
  · exact (compile_expression nestedGroups).1 (readOr (.text "" "")) (by decide)
  · exact (compile_expression faultyLeaves).2.1 ["(","a=\"1\"","or"] "b==2" [")","and","c"] .severalOperators
      rfl (by decide) rfl (by decide)
  · exact (compile_expression faultyLeaves).2.2 ["f","g"] (by decide)

end FilterQuery
