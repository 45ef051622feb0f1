import Mathlib.Data.List.Induction
import FilterQuery.Proofs.Enclosure

namespace FilterQuery
open Outcome

-- Brackets alone: nothing, or a group and what follows it.
inductive Lexeme.Nested : List Lexeme → Prop where
  | empty : Nested []
  | group (family : Family) (within : Nested inside) (behind : Nested rest) :
      Nested (.opener family :: (inside ++ .closer family :: rest))

namespace Grouping

-- The brackets of a sequence nest; what else stands in it does not matter.
def Nested (tokens : List Token) : Prop := Lexeme.Nested ((tokens.map Token.lexeme).filter Lexeme.isBracket)

def Extendable (tokens : List Token) : Prop := ∃ more, Nested (tokens ++ more)

-- A closer ends the shortest beginning that nothing completes.
def StuckAt (tokens : List Token) (place : Nat) : Prop :=
  (∃ family, tokens[place]? = some ⟨place,.closer family⟩) ∧
  ¬ Extendable (tokens.take (place + 1)) ∧ ∀ count ≤ place, Extendable (tokens.take count)

-- No closer pairs with the opener here, but with each opener behind it one does.
def OpenAt (tokens : List Token) (place : Nat) : Prop :=
  (∃ family, tokens[place]? = some ⟨place,.opener family⟩) ∧
  (∀ closedAt, pairs tokens place closedAt = false) ∧
  ∀ later openedAt family, place < later → tokens[later]? = some ⟨openedAt,.opener family⟩ →
    ∃ closedAt, pairs tokens later closedAt = true

theorem checkFrom_brackets (held : List (Nat × Family)) (tokens : List Token) :
    checkFrom held (tokens.filter (·.lexeme.isBracket)) = checkFrom held tokens := by
  induction tokens generalizing held with
  | nil => rfl
  | cons token rest ih =>
    obtain ⟨position,lexeme⟩ := token
    cases lexeme with
    | connective | leaf => simpa [Lexeme.isBracket,checkFrom] using ih held
    | opener | closer =>
      rw [List.filter_cons_of_pos rfl,checkFrom_cons,checkFrom_cons]
      congr 1
      funext after
      exact ih after

theorem row_nested (forest : Forest) : Nested forest.tokens := by
  unfold Nested
  induction forest with
  | empty => exact .empty
  | leaf position text rest ih => simpa [Forest.tokens,Lexeme.isBracket] using ih
  | connective position op rest ih => simpa [Forest.tokens,Lexeme.isBracket] using ih
  | group family openedAt closedAt inside rest insideIh restIh =>
    rw [Forest.tokens,List.map_cons,List.map_append,List.map_cons,List.filter_cons_of_pos rfl,List.filter_append,
      List.filter_cons_of_pos rfl]
    exact .group family insideIh restIh

theorem nested_row {lexemes : List Lexeme} (nested : Lexeme.Nested lexemes) {tokens : List Token}
    (same : tokens.map Token.lexeme = lexemes) : ∃ forest : Forest, forest.tokens = tokens := by
  induction nested generalizing tokens with
  | empty => exact ⟨.empty,(List.map_eq_nil_iff.mp same).symm⟩
  | group family within behind withinIh behindIh =>
    obtain ⟨opener,tail,rfl,opens,split⟩ := List.map_eq_cons_iff.mp same
    obtain ⟨before,after,rfl,first,last⟩ := List.map_eq_append_iff.mp split
    obtain ⟨closer,later,rfl,closes,final⟩ := List.map_eq_cons_iff.mp last
    obtain ⟨inside,rfl⟩ := withinIh first
    obtain ⟨rest,rfl⟩ := behindIh final
    refine ⟨.group family opener.position closer.position inside rest,?_⟩
    rw [Forest.tokens,← opens,← closes]

theorem check_nested (tokens : List Token) : check tokens = .ok () ↔ Nested tokens := by
  constructor
  · intro checked
    obtain ⟨forest,rfl⟩ := (Forest.check_forest tokens).mp checked
    exact row_nested forest
  · intro nested
    have brackets : (tokens.filter (·.lexeme.isBracket)).map Token.lexeme =
        (tokens.map Token.lexeme).filter Lexeme.isBracket := by rw [List.filter_map]; rfl
    have checked := (Forest.check_forest _).mpr (nested_row nested brackets)
    unfold check at checked ⊢
    rwa [checkFrom_brackets] at checked

theorem opened_stops {held : List (Nat × Family)} {tokens : List Token} {misplaced : Misplaced}
    (stopped : opened held tokens = .error misplaced) :
    ∃ before token after between, tokens = before ++ token :: after ∧ opened held before = .ok between ∧
      meet between token = .error misplaced := foldlM_fault stopped

theorem checkFrom_closers (held : List (Nat × Family)) :
    checkFrom held (held.map fun opener => ⟨0,.closer opener.2⟩) = .ok () := by
  induction held with
  | nil => rfl
  | cons opener held ih => simpa [checkFrom] using ih

-- A beginning can be completed as long as no closer in it is out of place: the
-- openers left are then closed one by one.
theorem extendable_exact (tokens : List Token) : Extendable tokens ↔ ∃ held, opened [] tokens = .ok held := by
  constructor
  · intro extendable
    obtain ⟨more,nested⟩ := extendable
    have checked := (check_nested _).mpr nested
    rw [check,checkFrom_opened] at checked
    obtain ⟨held,reached,_⟩ := (bind_ok ()).mp checked
    exact ⟨held,reached⟩
  · intro reaches
    obtain ⟨held,reached⟩ := reaches
    refine ⟨held.map fun opener => ⟨0,.closer opener.2⟩,?_⟩
    rw [← check_nested,check,checkFrom_opened,reached]
    exact checkFrom_closers held

theorem extendable_take {tokens : List Token} (extendable : Extendable tokens) (count : Nat) :
    Extendable (tokens.take count) := by
  obtain ⟨more,nested⟩ := extendable
  refine ⟨tokens.drop count ++ more,?_⟩
  rwa [← List.append_assoc,List.take_append_drop]

-- Where the openers still held stand: each with a row behind it, up to the next.
inductive Holds : List (Nat × Family) → List Token → Prop where
  | row (forest : Forest) : Holds [] forest.tokens
  | opener (around : Holds held tokens) (openedAt : Nat) (family : Family) (forest : Forest) :
      Holds ((openedAt,family) :: held) (tokens ++ ⟨openedAt,.opener family⟩ :: forest.tokens)

theorem row_append (first second : Forest) : ∃ whole : Forest, whole.tokens = first.tokens ++ second.tokens := by
  rw [← Forest.check_forest,check,first.checkFrom_tokens]
  exact (Forest.check_forest second.tokens).mpr ⟨second,rfl⟩

theorem Holds.append_row {held : List (Nat × Family)} {tokens : List Token} (holds : Holds held tokens)
    (row : Forest) : Holds held (tokens ++ row.tokens) := by
  cases holds with
  | row forest =>
    obtain ⟨whole,same⟩ := row_append forest row
    rw [← same]
    exact .row whole
  | opener around openedAt family forest =>
    obtain ⟨whole,same⟩ := row_append forest row
    rw [List.append_assoc,List.cons_append,← same]
    exact .opener around openedAt family whole

theorem meet_holds {held after : List (Nat × Family)} {tokens : List Token} {token : Token}
    (holds : Holds held tokens) (met : meet held token = .ok after) : Holds after (tokens ++ [token]) := by
  rcases meet_cases met with ⟨bare,rfl⟩ | ⟨position,family,rfl,rfl⟩ | ⟨position,openedAt,family,rfl,rfl⟩
  · obtain ⟨position,lexeme⟩ := token
    cases lexeme with
    | leaf text => exact holds.append_row (.leaf position text .empty)
    | connective op => exact holds.append_row (.connective position op .empty)
    | opener | closer => cases bare
  · exact .opener holds position family .empty
  · cases holds with
    | opener around _ _ inside =>
      rw [List.append_assoc]
      exact around.append_row (.group family openedAt position inside .empty)

theorem opened_holds {held : List (Nat × Family)} {tokens : List Token} (reached : opened [] tokens = .ok held) :
    Holds held tokens := by
  induction tokens using List.reverseRecOn generalizing held with
  | nil =>
    cases reached
    exact .row .empty
  | append_singleton before token ih =>
    rw [opened_append] at reached
    obtain ⟨between,first,last⟩ := (bind_ok held).mp reached
    rw [opened,List.foldlM_cons] at last
    obtain ⟨after,met,same⟩ := (bind_ok held).mp last
    cases same
    exact meet_holds (ih first) met

theorem opener_paired {tokens : List Token} {place openedAt : Nat} {family : Family} (checked : check tokens = .ok ())
    (found : tokens[place]? = some ⟨openedAt,.opener family⟩) : ∃ closedAt, pairs tokens place closedAt = true := by
  have split := split_at found
  have bound : (tokens.take place).length = place :=
    List.length_take_of_le (Nat.le_of_lt (List.getElem?_eq_some_iff.mp found).1)
  generalize tokens.take place = before at split bound
  generalize tokens.drop (place + 1) = after at split
  subst split bound
  rw [check,checkFrom_opened] at checked
  obtain ⟨held,_,rest⟩ := (bind_ok ()).mp checked
  rw [checkFrom_cons] at rest
  cases Forest.checkFrom_completes ((openedAt,family) :: held) after rest with
  | close _ inside closed later => exact ⟨_,pairs_group before openedAt family inside closed _⟩

theorem opener_unpaired (before : List Token) (openedAt : Nat) (family : Family) (row : Forest) (closedAt : Nat) :
    pairs (before ++ ⟨openedAt,.opener family⟩ :: row.tokens) before.length closedAt = false := by
  apply Bool.eq_false_iff.mpr
  intro paired
  obtain ⟨order,_⟩ := pairs_bounded paired
  obtain ⟨place,rfl⟩ := Nat.exists_eq_add_of_lt order
  have behind := pairs_right before (⟨openedAt,.opener family⟩ :: row.tokens) 0 (place + 1)
  rw [Nat.add_zero,← Nat.add_assoc,paired] at behind
  obtain ⟨_,_,closed,other,_,closerAt,inside,insideEq⟩ := pairs_parts behind.symm
  have within : row.tokens[place]? = some ⟨closed,.closer other⟩ := closerAt
  have split := split_at within
  have checked := (Forest.check_forest row.tokens).mpr ⟨row,rfl⟩
  rw [List.take_succ_cons,Nat.zero_add,List.drop_one,List.tail_cons] at insideEq
  rw [split,← insideEq,check,inside.checkFrom_tokens] at checked
  cases checked

theorem placed_before {tokens before after : List Token} {token : Token}
    (placed : tokens.map Token.position = List.range tokens.length) (split : tokens = before ++ token :: after) :
    token.position = before.length :=
  Token.placed_at placed (by simp [split])

theorem stopped_closer {tokens : List Token} {misplaced : Misplaced}
    (placed : tokens.map Token.position = List.range tokens.length) (stopped : opened [] tokens = .error misplaced) :
    StuckAt tokens misplaced.position := by
  obtain ⟨before,token,after,held,split,reached,met⟩ := opened_stops stopped
  obtain ⟨family,closes⟩ := meet_fault met
  have place : misplaced.position = before.length := by
    rw [← placed_before placed split,closes]
  refine ⟨⟨family,?_⟩,?_,?_⟩
  · rw [← closes,place,split,List.getElem?_append_right (Nat.le_refl _),Nat.sub_self]
    rfl
  · have through : tokens.take (before.length + 1) = before ++ [token] := by
      rw [split,List.take_length_add_append]
      rfl
    rw [place,through,extendable_exact,opened_append,reached]
    intro reaches
    obtain ⟨next,follows⟩ := reaches
    simp only [ok_bind,opened,List.foldlM_cons,met,error_bind] at follows
    cases follows
  · intro count within
    rw [split,List.take_append_of_le_length (place ▸ within)]
    exact extendable_take ((extendable_exact before).mpr ⟨held,reached⟩) count

theorem left_opener {tokens : List Token} {openedAt : Nat} {family : Family} {held : List (Nat × Family)}
    (placed : tokens.map Token.position = List.range tokens.length)
    (reached : opened [] tokens = .ok ((openedAt,family) :: held)) : OpenAt tokens openedAt := by
  cases opened_holds reached with
  | @opener _ before around _ _ row =>
    obtain rfl : openedAt = before.length := placed_before placed rfl
    refine ⟨⟨family,by simp⟩,opener_unpaired before _ family row,?_⟩
    intro later laterAt other behind found
    obtain ⟨place,rfl⟩ := Nat.exists_eq_add_of_lt behind
    rw [Nat.add_assoc,List.getElem?_append_right (Nat.le_add_right _ _),Nat.add_sub_cancel_left,
      List.getElem?_cons_succ] at found
    -- Behind the opener stands a row only, in which every opener has its closer.
    obtain ⟨closedAt,paired⟩ := opener_paired ((Forest.check_forest row.tokens).mpr ⟨row,rfl⟩) found
    have shifted := pairs_right (before ++ [⟨before.length,.opener family⟩]) row.tokens place closedAt
    rw [paired,List.append_assoc,List.length_append,List.length_singleton,Nat.add_right_comm] at shifted
    exact ⟨_,shifted⟩

theorem check_nesting (tokens : List Token) (placed : tokens.map Token.position = List.range tokens.length) :
    (check tokens = .ok () ↔ Nested tokens) ∧
    ∀ misplaced, check tokens = .error misplaced →
      ((∃ count, ¬ Extendable (tokens.take count)) → StuckAt tokens misplaced.position) ∧
      ((∀ count, Extendable (tokens.take count)) → OpenAt tokens misplaced.position) := by
  refine ⟨check_nested tokens,?_⟩
  intro misplaced failed
  have whole := checkFrom_opened [] tokens []
  rw [List.append_nil] at whole
  rw [check,whole] at failed
  cases reached : opened [] tokens with
  | error found =>
    rw [reached] at failed
    cases failed
    have stuck := stopped_closer placed reached
    refine ⟨fun _ => stuck,?_⟩
    intro all
    exact absurd (all _) stuck.2.1
  | ok held =>
    rw [reached] at failed
    have completed := (extendable_exact tokens).mpr ⟨held,reached⟩
    cases held with
    | nil => cases failed
    | cons opener held =>
      cases failed
      refine ⟨?_,fun _ => left_opener placed reached⟩
      intro stops
      obtain ⟨count,stuck⟩ := stops
      exact absurd (extendable_take completed count) stuck

theorem nesting_crossed_unclosed :
    check (Token.ofWords ["(","a","[",")","]"]) = .error ⟨3,.mismatched .square 2 .round⟩ ∧
    ¬ Extendable ((Token.ofWords ["(","a","[",")","]"]).take 4) ∧ StuckAt (Token.ofWords ["(","a","[",")","]"]) 3 ∧
    check (Token.ofWords ["[","(","a",")","(","and","[","]"]) = .error ⟨4,.unclosed .round⟩ ∧
    (∀ count, Extendable ((Token.ofWords ["[","(","a",")","(","and","[","]"]).take count)) ∧
    OpenAt (Token.ofWords ["[","(","a",")","(","and","[","]"]) 4 := by
  have crossed : check (Token.ofWords ["(","a","[",")","]"]) = .error ⟨3,.mismatched .square 2 .round⟩ := by decide
  have unclosed : check (Token.ofWords ["[","(","a",")","(","and","[","]"]) = .error ⟨4,.unclosed .round⟩ := by decide
  have stuck : ¬ Extendable ((Token.ofWords ["(","a","[",")","]"]).take 4) := by
    rw [extendable_exact]
    decide
  have completed : Extendable (Token.ofWords ["[","(","a",")","(","and","[","]"]) := by
    rw [extendable_exact]
    decide
  refine ⟨crossed,stuck,?_,unclosed,extendable_take completed,?_⟩
  · exact ((check_nesting _ (by decide)).2 _ crossed).1 ⟨4,stuck⟩
  · exact ((check_nesting _ (by decide)).2 _ unclosed).2 (extendable_take completed)

end Grouping
end FilterQuery
