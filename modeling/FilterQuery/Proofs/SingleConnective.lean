import FilterQuery.Proofs.Spelling
import FilterQuery.Settings

namespace FilterQuery
open Outcome

namespace Combination

-- A part joined by the connective of the group around it gives that group its own
-- parts. So where there is no other connective, the nesting leaves no trace.
theorem query_spliced {combination : Combination} {reading : Reading} {op : Connective} {query : Query}
    {gives : String → List Query}
    (given : ∀ text piece, reading.leaf text = .ok piece → Query.spliced op piece.flatten = gives text)
    (alone : ∀ found ∈ Token.connectives combination.listing, found.2 = op)
    (found : combination.query reading = .ok query) :
    Query.spliced op query.flatten = ((Token.leaves combination.listing).map Prod.snd).flatMap gives := by
  induction combination generalizing query with
  | leaf position text =>
    rw [given text query (query_leaf found),leaves_leaf,List.map_singleton,List.flatMap_singleton]
  | joined position other left right leftIh rightIh =>
    obtain ⟨first,second,one,two,rfl⟩ := query_joined found
    rw [connectives_joined] at alone
    obtain ⟨inside,here⟩ := List.forall_mem_append.mp alone
    obtain ⟨onLeft,onRight⟩ := List.forall_mem_append.mp inside
    obtain rfl : other = op := here _ List.mem_cons_self
    rw [Query.flatten,Query.flattenParts,Query.flattenParts,Query.flattenParts,leftIh onLeft one,rightIh onRight two,
      Query.spliced,if_pos rfl,List.append_nil,leaves_joined,List.map_append,List.flatMap_append]

theorem query_merged {combination : Combination} {reading : Reading} {op : Connective} {query : Query}
    {gives : String → List Query}
    (given : ∀ text piece, reading.leaf text = .ok piece → Query.spliced op piece.flatten = gives text)
    (alone : ∀ found ∈ Token.connectives combination.listing, found.2 = op)
    (several : 2 ≤ (Token.leaves combination.listing).length) (found : combination.query reading = .ok query) :
    query.flatten = .joined op (((Token.leaves combination.listing).map Prod.snd).flatMap gives) := by
  have spliced := query_spliced given alone found
  cases combination with
  | leaf position text => simp at several
  | joined position other left right =>
    obtain ⟨first,second,_,_,rfl⟩ := query_joined found
    obtain rfl : other = op := alone (position,other) (by rw [connectives_joined]; simp)
    rw [← spliced,Query.flatten,Query.spliced,if_pos rfl]

end Combination

theorem compiled_merged {reading : Reading} {words : List String} {op : Connective} {query : Query}
    {gives : String → List Query}
    (given : ∀ text piece, reading.leaf text = .ok piece → Query.spliced op piece.flatten = gives text)
    (alone : ∀ other : Connective, other.word ∈ words → other = op) (several : 2 ≤ (Token.leafWords words).length)
    (compiled : compileWords reading words = .ok query) :
    query.flatten = .joined op ((Token.leafWords words).flatMap gives) := by
  obtain ⟨combination,found,leaves,connectives⟩ := compiled_combination compiled
  have only : ∀ found ∈ Token.connectives combination.listing, found.2 = op := by
    intro found member
    have counted := List.count_pos_iff.mpr (List.mem_map_of_mem (f := Prod.snd) member)
    rw [connectives] at counted
    exact alone found.2 (List.count_pos_iff.mp counted)
  rw [← leaves,List.length_map] at several
  rw [← leaves]
  exact combination.query_merged given only several found

theorem Leaf.read_spliced (op : Connective) {leaf : String} {query : Query} (found : read leaf = .ok query) :
    Query.spliced op query.flatten = [query] := by
  obtain ⟨asked,rfl⟩ := read_single found
  cases negates leaf with
  | true => rfl
  | false => rfl

-- What a bare value gives to a group that it stands in: to an `or` the conditions
-- on the fields one by one, to an `and` all of them as one part.
def Reading.gives (fields : List String) : Connective → String → List Query
  | .and,word => [anywhere fields word]
  | .or,word => fields.map fun field => Leaf.sought field word

theorem Reading.anywhere_spliced (fields : List String) (op : Connective) (word : String) :
    Query.spliced op (anywhere fields word).flatten = gives fields op word := by
  rw [anywhere_flatten]
  cases op with
  | and => rfl
  | or => rfl

theorem compile_single_connective (op : Connective) (words : List String)
    (several : 2 ≤ (Token.leafWords words).length) (alone : ∀ other : Connective, other.word ∈ words → other = op) :
    (∀ query, compileWords .keyValue words = .ok query →
      ∃ asked, (Token.leafWords words).map Leaf.read = asked.map .ok ∧ query.flatten = .joined op asked) ∧
    (∀ fields query, fields ≠ [] → compileWords (.valueOnly fields) words = .ok query →
      query.flatten = .joined op ((Token.leafWords words).flatMap (Reading.gives fields op))) ∧
    ∀ (settings : Settings) (reading : Reading) (input : String), settings.flattenNested = true →
      Text.split settings.delimiter input = words →
      settings.compile reading input = (compileWords reading words).map Query.flatten := by
  refine ⟨?_,?_,?_⟩
  · intro query compiled
    have given : ∀ text piece, Reading.keyValue.leaf text = .ok piece →
        Query.spliced op piece.flatten = (Leaf.read text).toOption.toList := by
      intro text piece read
      have single : Leaf.read text = .ok piece := read
      rw [Leaf.read_spliced op single,single]
      rfl
    obtain ⟨combination,found,leaves,_⟩ := compiled_combination compiled
    have asked : (Token.leafWords words).map Leaf.read = query.conditions.map .ok := by
      rw [← leaves,List.map_map]
      exact combination.query_conditions found
    refine ⟨query.conditions,asked,?_⟩
    rw [compiled_merged given alone several compiled]
    congr 1
    calc (Token.leafWords words).flatMap (fun word => (Leaf.read word).toOption.toList)
        = ((Token.leafWords words).map Leaf.read).flatMap fun outcome => outcome.toOption.toList := by
          rw [List.flatMap_map]
      _ = query.conditions := by
          rw [asked,List.flatMap_map]
          exact List.flatMap_singleton' _
  · intro fields query _ compiled
    refine compiled_merged ?_ alone several compiled
    intro text piece read
    cases (Reading.leaf_valueOnly fields text).symm.trans read
    exact Reading.anywhere_spliced fields op text
  · intro settings reading input merges split
    rw [settings.compile_words,split,settings.finish_flag,if_pos merges]

theorem single_connective_borrowed :
    (∃ asked, ["a=1","b!=2","c~[x]"].map Leaf.read = asked.map .ok ∧
      (Query.joined .and [.joined .and [.text "a" "1",.negated (.term "b" "2")],.terms "c" ["x"]]).flatten =
        .joined .and asked) ∧
    (Query.joined .or [.joined .or [.text "f" "x",.text "g" "x"],
        .joined .or [.joined .or [.term "f" "y",.term "g" "y"],.joined .or [.text "f" "z",.text "g" "z"]]]).flatten =
      .joined .or [.text "f" "x",.text "g" "x",.term "f" "y",.term "g" "y",.text "f" "z",.text "g" "z"] ∧
    ({ delimiter := " ", flattenNested := true } : Settings).compile (.valueOnly ["f","g"]) "x or ( \"y\" or z )" =
      (compileWords (.valueOnly ["f","g"]) ["x","or","(","\"y\"","or","z",")"]).map Query.flatten := by
  have ands : ∀ other : Connective, other.word ∈ ["a=1","(","b!=2","and",")","and","c~[x]"] → other = .and := by
    intro other member
    cases other with
    | and => rfl
    | or => exact absurd member (by decide)
  have ors : ∀ other : Connective, other.word ∈ ["x","or","(","\"y\"","or","z",")"] → other = .or := by
    intro other member
    cases other with
    | or => rfl
    | and => exact absurd member (by decide)
  refine ⟨?_,?_,?_⟩
  · exact (compile_single_connective .and ["a=1","(","b!=2","and",")","and","c~[x]"] (by decide) ands).1 _ rfl
  · exact (compile_single_connective .or ["x","or","(","\"y\"","or","z",")"] (by decide) ors).2.1 ["f","g"] _
      (by decide) rfl
  · exact (compile_single_connective .or ["x","or","(","\"y\"","or","z",")"] (by decide) ors).2.2
      { delimiter := " ", flattenNested := true } _ _ rfl rfl

end FilterQuery
