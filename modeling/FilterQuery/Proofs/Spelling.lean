import FilterQuery.Proofs.Flattening
import FilterQuery.Proofs.Image
import FilterQuery.Proofs.Placement

namespace FilterQuery
open Outcome

section
variable (spelling : String → Operand)

namespace Token

-- A leaf written as an operand of its own, and every other token as it stands.
def spelled (token : Token) : List Token :=
  match token.lexeme with
  | .leaf text => ((spelling text).forest token.position .empty).tokens
  | _ => [token]

-- What a token so written comes to in the order of evaluation.
def listed (token : Token) : List Token :=
  match token.lexeme with
  | .leaf text => ((spelling text).combination token.position).listing
  | _ => [token]

theorem bare_kept {token : Token} (bare : leaf? token = none) :
    token.spelled spelling = [token] ∧ token.listed spelling = [token] := by
  obtain ⟨position,lexeme⟩ := token
  cases lexeme with
  | leaf text => cases bare
  | opener | closer | connective => exact ⟨rfl,rfl⟩

theorem listed_bare {tokens : List Token} (bare : ∀ token ∈ tokens, leaf? token = none) :
    tokens.flatMap (listed spelling) = tokens := by
  induction tokens with
  | nil => rfl
  | cons token rest ih =>
    obtain ⟨here,later⟩ := List.forall_mem_cons.mp bare
    rw [List.flatMap_cons,(bare_kept spelling here).2,ih later,List.singleton_append]

end Token

theorem Grouping.checkFrom_spelled (held : List (Nat × Family)) (tokens : List Token) :
    checkFrom held (tokens.flatMap (Token.spelled spelling)) = checkFrom held tokens := by
  induction tokens generalizing held with
  | nil => rfl
  | cons token rest ih =>
    rw [List.flatMap_cons,checkFrom_cons]
    rcases Token.leaf_cases token with ⟨position,text,rfl⟩ | bare
    · exact (Forest.checkFrom_tokens _ held _).trans (ih held)
    · rw [(Token.bare_kept spelling bare).1,List.singleton_append,checkFrom_cons]
      cases meet held token with
      | ok next => exact ih next
      | error misplaced => rfl

-- Nothing that waits is a leaf, so writing leaves out touches only what comes
-- straight through.
theorem Postfix.orderFrom_spelled {held : List Token} (tokens : List Token)
    (leafless : ∀ token ∈ held, Token.leaf? token = none) :
    orderFrom held (tokens.flatMap (Token.spelled spelling)) =
      (orderFrom held tokens).flatMap (Token.listed spelling) := by
  induction tokens generalizing held with
  | nil =>
    have kept : ∀ token ∈ held.filter (!·.lexeme.isOpener), Token.leaf? token = none :=
      fun token member => leafless token (List.mem_filter.mp member).1
    exact (Token.listed_bare spelling kept).symm
  | cons token rest ih =>
    rw [List.flatMap_cons]
    rcases Token.leaf_cases token with ⟨position,text,rfl⟩ | bare
    · obtain ⟨settled,direct⟩ := (spelling text).forest_settled position .empty
      simp only [Token.spelled,Forest.orderFrom_tokens,settled,direct,Forest.settled,Forest.direct,List.nil_append,
        List.append_nil,orderFrom,List.flatMap_cons,Token.listed,ih leafless]
    · have later := ih (keep_leafless token leafless)
      have gone : ∀ found ∈ release held token, Token.leaf? found = none := by
        intro found member
        rcases release_mem member with ⟨rfl,_⟩ | ⟨before,_⟩
        · exact bare
        · exact leafless found before
      rw [(Token.bare_kept spelling bare).1,List.singleton_append,orderFrom_cons,orderFrom_cons,later,
        List.flatMap_append,Token.listed_bare spelling gone]

-- The operand has a query wherever it stands, and merged it is the one that the
-- other reading gives the text.
def Operand.SpellsOut (reading other : Reading) (operand : Operand) (text : String) : Prop :=
  ∃ query image, reading.leaf text = .ok query ∧
    (∀ start, (operand.combination start).query other = .ok image) ∧ query.flatten = image.flatten

namespace Evaluate

variable {reading other : Reading}

abbrev SameMerged : List Query → List Query → Prop :=
  List.Forall₂ fun query image => query.flatten = image.flatten

theorem steps_spelled {made others : List Query} (tokens : List Token) (same : SameMerged made others)
    (spells : ∀ leaf ∈ Token.leaves tokens, (spelling leaf.2).SpellsOut reading other leaf.2) :
    Alike Eq SameMerged (steps reading made tokens)
      (steps other others (tokens.flatMap (Token.listed spelling))) := by
  induction tokens generalizing made others with
  | nil => exact .value same
  | cons token rest ih =>
    rw [List.flatMap_cons,steps_append,steps_cons]
    rw [Token.leaves_cons,List.forall_mem_append] at spells
    obtain ⟨here,later⟩ := spells
    obtain ⟨position,lexeme⟩ := token
    cases lexeme with
    | leaf text =>
      obtain ⟨query,image,read,makes,merged⟩ := here (position,text) (by simp [Token.leaf?])
      simp only [Token.listed,step,read,Combination.steps_listing,makes,ok_bind]
      exact ih (.cons merged same) later
    | connective op =>
      cases same with
      | nil => exact .fault rfl
      | cons right below =>
        cases below with
        | nil => exact .fault rfl
        | cons left below =>
          refine ih (.cons ?_ below) later
          simp only [Query.flatten,Query.flattenParts,right,left]
    | opener family => exact .fault rfl
    | closer family => exact .fault rfl

end Evaluate

theorem compile_spelled_out {reading other : Reading} (tokens : List Token) (fields : reading.hasFields = true)
    (others : other.hasFields = true)
    (spells : ∀ leaf ∈ Token.leaves tokens, (spelling leaf.2).SpellsOut reading other leaf.2) :
    Alike Eq (fun query image => query.flatten = image.flatten) (compile reading tokens)
      (compile other (tokens.flatMap (Token.spelled spelling))) := by
  have balance : Grouping.check (tokens.flatMap (Token.spelled spelling)) = Grouping.check tokens :=
    Grouping.checkFrom_spelled spelling [] tokens
  have ordered : Postfix.order (tokens.flatMap (Token.spelled spelling)) =
      (Postfix.order tokens).flatMap (Token.listed spelling) :=
    Postfix.orderFrom_spelled spelling tokens (List.forall_mem_nil _)
  cases checked : Grouping.check tokens with
  | error misplaced =>
    rw [compile_unbalanced _ _ fields checked,compile_unbalanced _ _ others (balance.trans checked)]
    exact .fault rfl
  | ok _ =>
    rw [compile_runs _ _ fields checked,compile_runs _ _ others (balance.trans checked),ordered]
    rw [← Postfix.order_leaves] at spells
    apply (Evaluate.steps_spelled spelling (Postfix.order tokens) .nil spells).bind
    intro made images same
    exact Evaluate.finish_alike same

end

namespace Leaf

theorem sought_flatten (op : Connective) (field value : String) :
    Query.spliced op (sought field value).flatten = [sought field value] := by
  obtain ⟨asked,single⟩ := sought_single field value
  rw [single]
  rfl

-- A field and its value with the symbol for equality in between.
def assigned (value field : String) : String := field ++ ("=" ++ value)

theorem assigned_plain (value field : String) : Lexeme.Plain (assigned value field) := by
  have unsigned : ∀ text ∈ Lexeme.structural.map Lexeme.text, '=' ∉ text.toList := by decide
  intro listed
  exact unsigned _ listed (by simp [assigned])

theorem read_assigned {value field : String} (named : Closed field) (plain : Unmarked value.toList) :
    read (assigned value field) = .ok (sought field value) :=
  (read_exact _ _).mpr ⟨field,value,.equal,rfl,named.1,plain,fun _ => named.2,equal_total field value⟩

end Leaf

theorem Reading.anywhere_flatten (fields : List String) (value : String) :
    (anywhere fields value).flatten = anywhere fields value := by
  have parts : Query.flattenParts .or (fields.map fun field => Leaf.sought field value) =
      fields.map fun field => Leaf.sought field value := by
    induction fields with
    | nil => rfl
    | cons field rest ih =>
      rw [List.map_cons,Query.flattenParts,Leaf.sought_flatten,ih,List.singleton_append]
  rw [anywhere,Query.flatten,parts]

-- What a bare value is short for: any of the fields may hold it.
def Reading.written (fields : List String) (word : String) : List String :=
  if Lexeme.Plain word then "(" :: ((fields.map (Leaf.assigned word)).intersperse "or" ++ [")"]) else [word]

namespace Expression

-- The value looked for in each of the fields, one after the other.
def anyOf (value : String) : String → List String → Expression
  | field,[] => .single (.leaf ⟨Leaf.assigned value field,Leaf.assigned_plain value field⟩)
  | field,next :: rest =>
    .chain (.leaf ⟨Leaf.assigned value field,Leaf.assigned_plain value field⟩) .or (anyOf value next rest)

theorem anyOf_words (value field : String) (rest : List String) :
    (anyOf value field rest).words = ((field :: rest).map (Leaf.assigned value)).intersperse "or" := by
  induction rest generalizing field with
  | nil => rfl
  | cons next rest ih =>
    have later := ih next
    rw [List.map_cons] at later
    rw [List.map_cons,List.map_cons,List.intersperse_cons_cons,← later]
    rfl

theorem anyOf_query {value field : String} {rest : List String} (plain : Leaf.Unmarked value.toList)
    (named : ∀ name ∈ field :: rest, Leaf.Closed name) :
    ∃ image, (∀ start, ((anyOf value field rest).combination start).query .keyValue = .ok image) ∧
      Query.spliced .or image.flatten = (field :: rest).map fun field => Leaf.sought field value := by
  induction rest generalizing field with
  | nil =>
    have read := Leaf.read_assigned (named field List.mem_cons_self) plain
    refine ⟨Leaf.sought field value,?_,Leaf.sought_flatten .or field value⟩
    intro start
    simp [anyOf,combination,Operand.combination,Combination.query,Reading.leaf,read]
  | cons next rest ih =>
    obtain ⟨here,later⟩ := List.forall_mem_cons.mp named
    obtain ⟨image,made,parts⟩ := ih later
    have read := Leaf.read_assigned here plain
    refine ⟨.joined .or [Leaf.sought field value,image],?_,?_⟩
    · intro start
      simp [anyOf,combination,Operand.combination,Combination.query,Reading.leaf,read,made]
    · rw [Query.flatten,Query.flattenParts,Query.flattenParts,Query.flattenParts,Leaf.sought_flatten,parts,
        List.append_nil,Query.spliced,if_pos rfl]
      rfl

end Expression

def Operand.anyOf (first : String) (rest : List String) (value : String) : Operand :=
  .group .round (.anyOf value first rest)

theorem Operand.anyOf_spells {first second value : String} {rest : List String} (plain : Leaf.Unmarked value.toList)
    (named : ∀ name ∈ first :: second :: rest, Leaf.Closed name) :
    (anyOf first (second :: rest) value).SpellsOut (.valueOnly (first :: second :: rest)) .keyValue value := by
  obtain ⟨image,made,parts⟩ := Expression.anyOf_query plain named
  refine ⟨_,image,Reading.leaf_valueOnly _ value,fun start => made (start + 1),?_⟩
  rw [Reading.anywhere_flatten]
  rcases Query.spliced_cases .or image.flatten with ⟨inner,group,spliced⟩ | ⟨_,single⟩
  · rw [group,Reading.anywhere,← parts,spliced]
  · have lengths := congrArg List.length parts
    rw [single] at lengths
    cases lengths

theorem Operand.anyOf_written (first : String) (rest : List String) {word : String} (plain : Lexeme.Plain word) :
    (Reading.written (first :: rest) word).map Lexeme.ofText = (anyOf first rest word).lexemes := by
  have words : Reading.written (first :: rest) word = (anyOf first rest word).lexemes.map Lexeme.text := by
    rw [Reading.written,if_pos plain,← Expression.anyOf_words,anyOf,lexemes,List.map_cons,List.map_append]
    rfl
  rw [words,words_lexemes]

theorem Token.spelled_written (first : String) (rest : List String) (start : Nat) (words : List String) :
    ((numbered start (words.map Lexeme.ofText)).flatMap (spelled (Operand.anyOf first rest))).map lexeme =
      (words.flatMap (Reading.written (first :: rest))).map Lexeme.ofText := by
  induction words generalizing start with
  | nil => rfl
  | cons word words ih =>
    rw [List.map_cons,numbered,List.flatMap_cons,List.flatMap_cons,List.map_append,List.map_append,ih]
    congr 1
    by_cases plain : Lexeme.Plain word
    · rw [(Lexeme.ofText_leaf word).mpr plain,Operand.anyOf_written first rest plain]
      simp only [spelled,Operand.forest_tokens,Forest.tokens,List.append_nil,numbered_lexemes]
    · rw [(bare_kept _ (leaf_structural start plain)).1,Reading.written,if_neg plain]
      rfl

theorem compile_written (fields words : List String) (several : 2 ≤ fields.length)
    (named : ∀ field ∈ fields, Leaf.Closed field)
    (plain : ∀ word ∈ Token.leafWords words, Leaf.Unmarked word.toList) :
    ((∃ query, compileWords (.valueOnly fields) words = .ok query) ↔
      ∃ image, compileWords .keyValue (words.flatMap (Reading.written fields)) = .ok image) ∧
    ∀ query image, compileWords (.valueOnly fields) words = .ok query →
      compileWords .keyValue (words.flatMap (Reading.written fields)) = .ok image →
      query.flatten = image.flatten := by
  obtain ⟨first,second,rest,rfl⟩ : ∃ first second rest, fields = first :: second :: rest := by
    rcases fields with _ | ⟨first,_ | ⟨second,rest⟩⟩
    · simp at several
    · simp at several
    · exact ⟨first,second,rest,rfl⟩
  have spells : ∀ leaf ∈ Token.leaves (Token.ofWords words),
      (Operand.anyOf first (second :: rest) leaf.2).SpellsOut (.valueOnly (first :: second :: rest)) .keyValue
        leaf.2 := by
    intro leaf member
    have listed : leaf.2 ∈ (Token.leaves (Token.ofWords words)).map Prod.snd := List.mem_map_of_mem member
    rw [Token.ofWords_numbered,Token.leaves_words] at listed
    exact Operand.anyOf_spells (plain leaf.2 listed) named
  have alike := compile_spelled_out _ (Token.ofWords words) rfl rfl spells
  have same : ∀ image, compile .keyValue ((Token.ofWords words).flatMap
      (Token.spelled (Operand.anyOf first (second :: rest)))) = .ok image ↔
      compileWords .keyValue (words.flatMap (Reading.written (first :: second :: rest))) = .ok image := by
    intro image
    refine compile_lexemes .keyValue image ?_
    rw [Token.ofWords_numbered,Token.ofWords_numbered,Token.spelled_written,Token.numbered_lexemes]
  constructor
  · rw [compileWords,alike.succeeds]
    simp only [same]
  · intro query image compiled found
    exact alike.related compiled ((same image).mpr found)

theorem written_merged :
    ["\"y\"","or","x"].flatMap (Reading.written ["f","g","h"]) =
      ["(","f=\"y\"","or","g=\"y\"","or","h=\"y\"",")","or","(","f=x","or","g=x","or","h=x",")"] ∧
    (Query.joined .or [.joined .or [.term "f" "y",.term "g" "y",.term "h" "y"],
        .joined .or [.text "f" "x",.text "g" "x",.text "h" "x"]]).flatten =
      .joined .or [.term "f" "y",.term "g" "y",.term "h" "y",.text "f" "x",.text "g" "x",.text "h" "x"] ∧
    (Query.joined .or [.joined .or [.term "f" "y",.joined .or [.term "g" "y",.term "h" "y"]],
        .joined .or [.text "f" "x",.joined .or [.text "g" "x",.text "h" "x"]]]).flatten =
      .joined .or [.term "f" "y",.term "g" "y",.term "h" "y",.text "f" "x",.text "g" "x",.text "h" "x"] := by
  have named : ∀ field ∈ ["f","g","h"], Leaf.Closed field := by simp [Leaf.Closed,Leaf.Unmarked,Leaf.marks]
  have leaves : Token.leafWords ["\"y\"","or","x"] = ["\"y\"","x"] := by decide
  have plain : ∀ word ∈ Token.leafWords ["\"y\"","or","x"], Leaf.Unmarked word.toList := by
    simp [leaves,Leaf.Unmarked,Leaf.marks]
  have words : ["\"y\"","or","x"].flatMap (Reading.written ["f","g","h"]) =
      ["(","f=\"y\"","or","g=\"y\"","or","h=\"y\"",")","or","(","f=x","or","g=x","or","h=x",")"] := by decide
  have merged : (Query.joined .or [.joined .or [.term "f" "y",.term "g" "y",.term "h" "y"],
        .joined .or [.text "f" "x",.text "g" "x",.text "h" "x"]]).flatten =
      .joined .or [.term "f" "y",.term "g" "y",.term "h" "y",.text "f" "x",.text "g" "x",.text "h" "x"] := rfl
  have same := (compile_written ["f","g","h"] ["\"y\"","or","x"] (by decide) named plain).2 _ _ rfl (by rw [words]; rfl)
  exact ⟨words,merged,same.symm.trans merged⟩

end FilterQuery
