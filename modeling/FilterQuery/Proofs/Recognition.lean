import Mathlib.Data.List.Chain
import FilterQuery.Proofs.Acceptance
import FilterQuery.Proofs.Expression

namespace FilterQuery
open Outcome Grouping

namespace Lexeme

def startsOperand : Lexeme → Bool
  | .leaf _ | .opener _ => true
  | .closer _ | .connective _ => false

def endsOperand : Lexeme → Bool
  | .leaf _ | .closer _ => true
  | .opener _ | .connective _ => false

end Lexeme

-- No operand is followed directly by another.
def Separated (lexemes : List Lexeme) : Prop :=
  lexemes.IsChain fun first second => first.endsOperand = true → second.startsOperand = false

instance (lexemes : List Lexeme) : Decidable (Separated lexemes) :=
  inferInstanceAs (Decidable (lexemes.IsChain _))

mutual
theorem Operand.separated : (operand : Operand) → Separated operand.lexemes
  | .leaf word => .singleton _
  | .group family inner => by
    have within := inner.separated
    refine List.isChain_cons.mpr ⟨?_,List.isChain_append.mpr ⟨within,.singleton _,?_⟩⟩
    · intro second next opens; cases opens
    · intro last ended second next closes
      cases next; rfl
theorem Expression.separated : (expression : Expression) → Separated expression.lexemes
  | .single operand => operand.separated
  | .chain first op rest => by
    have head := first.separated
    have tail := rest.separated
    refine List.isChain_append.mpr ⟨head,List.isChain_cons.mpr ⟨?_,tail⟩,?_⟩
    · intro second next joins; cases joins
    · intro last ended second next operand
      cases next; rfl
end

namespace Forest

-- A row by itself has at most one leaf more than connectives, and is an
-- expression if it has one more.
def StandsAlone (forest : Forest) : Prop :=
  (Token.leaves forest.tokens).length ≤ (Token.connectives forest.tokens).length + 1 ∧
  ((Token.leaves forest.tokens).length = (Token.connectives forest.tokens).length + 1 →
    ∃ expression : Expression, expression.lexemes = forest.tokens.map Token.lexeme)

-- A row behind an operand has at most as many leaves as connectives, and makes
-- an expression of the operand if it has as many.
def GoesOn (forest : Forest) : Prop :=
  (Token.leaves forest.tokens).length ≤ (Token.connectives forest.tokens).length ∧
  ((Token.leaves forest.tokens).length = (Token.connectives forest.tokens).length →
    ∀ operand : Operand, ∃ expression : Expression,
      expression.lexemes = operand.lexemes ++ forest.tokens.map Token.lexeme)

theorem empty_alone : StandsAlone empty := ⟨Nat.zero_le _,fun count => by cases count⟩

theorem empty_on : GoesOn empty :=
  ⟨Nat.le_refl _,fun _ operand => ⟨.single operand,by simp [Expression.lexemes,tokens]⟩⟩

theorem leaf_alone {position : Nat} {text : String} {rest : Forest} (plain : Lexeme.Plain text)
    (after : GoesOn rest) : StandsAlone (leaf position text rest) := by
  obtain ⟨most,written⟩ := after
  simp only [StandsAlone,tokens,Token.leaves_cons,Token.connectives_cons,Token.leaf?,Token.connective?,
    Option.toList_some,Option.toList_none,List.singleton_append,List.nil_append,List.length_cons,List.map_cons]
  refine ⟨by omega,?_⟩
  intro count
  exact written (by omega) (.leaf ⟨text,plain⟩)

theorem connective_alone {position : Nat} {op : Connective} {rest : Forest} (after : StandsAlone rest) :
    StandsAlone (connective position op rest) := by
  obtain ⟨most,_⟩ := after
  simp only [StandsAlone,tokens,Token.leaves_cons,Token.connectives_cons,Token.leaf?,Token.connective?,
    Option.toList_some,Option.toList_none,List.singleton_append,List.nil_append,List.length_cons]
  refine ⟨by omega,?_⟩
  intro count
  omega

theorem connective_on {position : Nat} {op : Connective} {rest : Forest} (after : StandsAlone rest) :
    GoesOn (connective position op rest) := by
  obtain ⟨most,written⟩ := after
  simp only [GoesOn,tokens,Token.leaves_cons,Token.connectives_cons,Token.leaf?,Token.connective?,
    Option.toList_some,Option.toList_none,List.singleton_append,List.nil_append,List.length_cons,List.map_cons]
  refine ⟨most,?_⟩
  intro count operand
  obtain ⟨expression,lexemes⟩ := written count
  exact ⟨.chain operand op expression,by rw [Expression.lexemes,lexemes]⟩

theorem group_alone {family : Family} {openedAt closedAt : Nat} {inside rest : Forest}
    (within : StandsAlone inside) (after : GoesOn rest) :
    StandsAlone (group family openedAt closedAt inside rest) := by
  obtain ⟨mostInside,writtenInside⟩ := within
  obtain ⟨mostAfter,writtenAfter⟩ := after
  simp only [StandsAlone,tokens,Token.leaves_cons,Token.connectives_cons,Token.leaves_append,
    Token.connectives_append,Token.leaf?,Token.connective?,Option.toList_none,List.nil_append,List.length_append]
  refine ⟨by omega,?_⟩
  intro count
  obtain ⟨inner,innerLexemes⟩ := writtenInside (by omega)
  obtain ⟨expression,lexemes⟩ := writtenAfter (by omega) (.group family inner)
  exact ⟨expression,by simp [lexemes,Operand.lexemes,innerLexemes]⟩

theorem separated_counts (forest : Forest) (plain : ∀ leaf ∈ Token.leaves forest.tokens, Lexeme.Plain leaf.2)
    (separated : Separated (forest.tokens.map Token.lexeme)) :
    StandsAlone forest ∧
    ((∀ lexeme ∈ (forest.tokens.map Token.lexeme).head?, lexeme.startsOperand = false) → GoesOn forest) := by
  -- A row behind an operand goes on from it, so both are needed of the rest at once.
  induction forest with
  | empty => exact ⟨empty_alone,fun _ => empty_on⟩
  | leaf position text rest ih =>
    obtain ⟨behind,restSeparated⟩ := List.isChain_cons.mp separated
    simp only [tokens,Token.leaves_cons,Token.leaf?,Option.toList_some,List.singleton_append,
      List.forall_mem_cons] at plain
    obtain ⟨_,goesOn⟩ := ih plain.2 restSeparated
    refine ⟨leaf_alone plain.1 (goesOn fun lexeme next => behind lexeme next rfl),?_⟩
    intro closed
    cases closed _ rfl
  | connective position op rest ih =>
    obtain ⟨_,restSeparated⟩ := List.isChain_cons.mp separated
    obtain ⟨alone,_⟩ := ih plain restSeparated
    exact ⟨connective_alone alone,fun _ => connective_on alone⟩
  | group family openedAt closedAt inside rest insideIh restIh =>
    simp only [tokens,List.map_cons,List.map_append] at separated
    obtain ⟨insideSeparated,closed,_⟩ := List.isChain_append.mp (List.isChain_cons.mp separated).2
    obtain ⟨behind,restSeparated⟩ := List.isChain_cons.mp closed
    simp only [tokens,Token.leaves_cons,Token.leaves_append,Token.leaf?,Option.toList_none,List.nil_append,
      List.mem_append] at plain
    obtain ⟨within,_⟩ := insideIh (fun leaf member => plain leaf (.inl member)) insideSeparated
    obtain ⟨_,goesOn⟩ := restIh (fun leaf member => plain leaf (.inr member)) restSeparated
    refine ⟨group_alone within (goesOn fun lexeme next => behind lexeme next rfl),?_⟩
    intro opened
    cases opened _ rfl

theorem separated_expression (forest : Forest) (plain : ∀ leaf ∈ Token.leaves forest.tokens, Lexeme.Plain leaf.2)
    (count : (Token.leaves forest.tokens).length = (Token.connectives forest.tokens).length + 1) :
    (∃ expression : Expression, expression.lexemes = forest.tokens.map Token.lexeme) ↔
      Separated (forest.tokens.map Token.lexeme) := by
  constructor
  · rintro ⟨expression,written⟩
    exact written ▸ expression.separated
  · intro separated
    obtain ⟨⟨_,written⟩,_⟩ := forest.separated_counts plain separated
    exact written count

end Forest

theorem leaves_lexemes {first second : List Token} (same : first.map Token.lexeme = second.map Token.lexeme) :
    (Token.leaves first).map Prod.snd = (Token.leaves second).map Prod.snd ∧
    (Token.connectives first).map Prod.snd = (Token.connectives second).map Prod.snd := by
  induction first generalizing second with
  | nil => cases List.map_eq_nil_iff.mp same.symm; exact ⟨rfl,rfl⟩
  | cons token rest ih =>
    cases second with
    | nil => cases same
    | cons other others =>
      obtain ⟨position,lexeme⟩ := token
      obtain ⟨place,_⟩ := other
      obtain ⟨rfl,later⟩ := List.cons.inj same
      obtain ⟨leaves,connectives⟩ := ih later
      simp only [Token.leaves_cons,Token.connectives_cons,List.map_append,leaves,connectives]
      cases lexeme with
      | opener | closer | connective | leaf => exact ⟨rfl,rfl⟩

theorem Combination.bracketed (combination : Combination)
    (plain : ∀ leaf ∈ Token.leaves combination.listing, Lexeme.Plain leaf.2) :
    ∃ operand : Operand, ∀ start,
      (operand.combination start).listing.map Token.lexeme = combination.listing.map Token.lexeme ∧
      ∀ reading query, combination.query reading = .ok query →
        (operand.combination start).query reading = .ok query := by
  induction combination with
  | leaf position text =>
    refine ⟨.leaf ⟨text,plain (position,text) List.mem_cons_self⟩,?_⟩
    intro start
    refine ⟨rfl,?_⟩
    intro reading query found
    simp [Operand.combination,Combination.query,query_leaf found]
  | joined position op left right leftIh rightIh =>
    simp only [leaves_joined,List.mem_append] at plain
    obtain ⟨first,firstWritten⟩ := leftIh fun leaf member => plain leaf (.inl member)
    obtain ⟨second,secondWritten⟩ := rightIh fun leaf member => plain leaf (.inr member)
    refine ⟨.group .round (.chain first op (.single second)),?_⟩
    intro start
    obtain ⟨firstListing,firstQuery⟩ := firstWritten (start + 1)
    obtain ⟨secondListing,secondQuery⟩ := secondWritten (start + 1 + first.lexemes.length + 1)
    constructor
    · simp [Operand.combination,Expression.combination,listing,firstListing,secondListing]
    · intro reading query found
      obtain ⟨one,other,leftFound,rightFound,rfl⟩ := query_joined found
      simp [Operand.combination,Expression.combination,Combination.query,firstQuery reading one leftFound,
        secondQuery reading other rightFound]

theorem Forest.bracketed_expression (reading : Reading) (forest : Forest) (query : Query)
    (plain : ∀ leaf ∈ Token.leaves forest.tokens, Lexeme.Plain leaf.2)
    (fields : reading.hasFields = true) (evaluated : evaluate reading (forest.settled ++ forest.direct) = .ok query) :
    ∃ expression : Expression, compileWords reading expression.words = .ok query ∧
      (Token.leaves (Token.ofWords expression.words)).map Prod.snd = (Token.leaves forest.tokens).map Prod.snd ∧
      ((Token.connectives (Token.ofWords expression.words)).map Prod.snd).Perm
        ((Token.connectives forest.tokens).map Prod.snd) := by
  obtain ⟨combination,listing,found⟩ := Combination.evaluate_parts reading _ _ evaluated
  have leaves : Token.leaves combination.listing = Token.leaves forest.tokens := by
    rw [listing,← order_tokens,Postfix.order_leaves]
  have connectives : (Token.connectives combination.listing).Perm (Token.connectives forest.tokens) := by
    rw [listing]
    exact forest.settled_connectives
  obtain ⟨operand,written⟩ := combination.bracketed (leaves ▸ plain)
  obtain ⟨sameListing,sameQuery⟩ := written 0
  obtain ⟨sameLeaves,sameConnectives⟩ := leaves_lexemes sameListing
  have gathered : Token.leaves (operand.combination 0).listing =
      Token.leaves (Token.ofWords (Expression.single operand).words) := (Expression.single operand).leaves_listing
  have moved : (Token.connectives (operand.combination 0).listing).Perm
      (Token.connectives (Token.ofWords (Expression.single operand).words)) :=
    (Expression.single operand).connectives_listing
  refine ⟨.single operand,?_,?_,?_⟩
  · rw [Expression.compile_combination _ _ fields]
    exact sameQuery reading query found
  · rw [← gathered,← leaves]
    exact sameLeaves
  · have back := moved.symm.map Prod.snd
    rw [sameConnectives] at back
    exact back.trans (connectives.map Prod.snd)

theorem compiled_recognised (words : List String) (query : Query)
    (compiled : compileWords .keyValue words = .ok query) :
    check (Token.ofWords words) = .ok () ∧
    (Token.leaves (Token.ofWords words)).length = (Token.connectives (Token.ofWords words)).length + 1 ∧
    ((∃ expression : Expression, expression.words = words) ↔ Separated (words.map Lexeme.ofText)) ∧
    ∃ expression : Expression, compileWords .keyValue expression.words = .ok query ∧
      (Token.leaves (Token.ofWords expression.words)).map Prod.snd =
        (Token.leaves (Token.ofWords words)).map Prod.snd ∧
      ((Token.connectives (Token.ofWords expression.words)).map Prod.snd).Perm
        ((Token.connectives (Token.ofWords words)).map Prod.snd) := by
  have plain : ∀ leaf ∈ Token.leaves (Token.ofWords words), Lexeme.Plain leaf.2 := by
    intro leaf member
    rw [Token.ofWords_numbered] at member
    exact (Token.leaves_plain 0 words leaf member).2
  have lexemes : (Token.ofWords words).map Token.lexeme = words.map Lexeme.ofText := by
    rw [Token.ofWords_numbered,Token.numbered_lexemes]
  obtain ⟨forest,tokens,evaluated⟩ := Forest.compile_parts compiled
  rw [compileWords,← tokens] at compiled
  rw [← tokens] at plain lexemes ⊢
  have count := Forest.compiled_count .keyValue forest rfl compiled
  refine ⟨(Forest.check_forest _).mpr ⟨forest,rfl⟩,count,?_,?_⟩
  · have recognised := forest.separated_expression plain count
    rw [lexemes] at recognised
    simpa only [Expression.words_exact] using recognised
  · exact forest.bracketed_expression .keyValue query plain rfl evaluated

theorem recognised_empty_group :
    compileWords .keyValue ["(","a=1","b=2","and",")","or","(",")","c=3"] =
      .ok (.joined .or [.joined .and [.text "a" "1",.text "b" "2"],.text "c" "3"]) ∧
    (¬ ∃ expression : Expression, expression.words = ["(","a=1","b=2","and",")","or","(",")","c=3"]) ∧
    ∃ expression : Expression, compileWords .keyValue expression.words =
      .ok (.joined .or [.joined .and [.text "a" "1",.text "b" "2"],.text "c" "3"]) := by
  obtain ⟨_,_,recognised,expression,same,_⟩ :=
    compiled_recognised ["(","a=1","b=2","and",")","or","(",")","c=3"]
      (.joined .or [.joined .and [.text "a" "1",.text "b" "2"],.text "c" "3"]) rfl
  refine ⟨rfl,?_,expression,same⟩
  intro written
  exact absurd (recognised.mp written) (by decide)

-- A connective behind both of its leaves is taken as if it stood between them.
theorem compiled_unwritten :
    compileWords .keyValue ["a=1","b=2","and"] = .ok (.joined .and [.text "a" "1",.text "b" "2"]) ∧
    ∀ expression : Expression, expression.words ≠ ["a=1","b=2","and"] := by
  refine ⟨rfl,?_⟩
  intro expression written
  have separated := expression.separated
  rw [(expression.words_exact _).mp written] at separated
  exact absurd separated (by decide)

end FilterQuery
