import FilterQuery.Proofs.Acceptance
import FilterQuery.Proofs.LeafParts
import FilterQuery.Proofs.PostOrder

namespace FilterQuery
open Outcome

namespace Query

-- What a query asks for, from left to right. A negated part is asked as a whole.
mutual
def conditions : Query → List Query
  | .condition asked => [.condition asked]
  | .negated inner => [.negated inner]
  | .joined _ parts => conditionsAll parts
def conditionsAll : List Query → List Query
  | [] => []
  | first :: rest => first.conditions ++ conditionsAll rest
end

-- How many nodes of a query are joined by the connective.
mutual
def joins (op : Connective) : Query → Nat
  | .condition _ => 0
  | .negated inner => inner.joins op
  | .joined other parts => [other].count op + joinsAll op parts
def joinsAll (op : Connective) : List Query → Nat
  | [] => 0
  | first :: rest => first.joins op + joinsAll op rest
end

-- A query that joins the given ones, in their order, two at a time.
inductive Joining : List Query → Query → Prop where
  | single (query : Query) : Joining [query] query
  | joined (op : Connective) (left : Joining before first) (right : Joining after second) :
      Joining (before ++ after) (.joined op [first,second])

theorem conditionsAll_append (first second : List Query) :
    conditionsAll (first ++ second) = conditionsAll first ++ conditionsAll second := by
  induction first with
  | nil => rfl
  | cons query rest ih => simp [conditionsAll,ih]

end Query

namespace Leaf

theorem read_conditions {leaf : String} {query : Query} (found : read leaf = .ok query) :
    query.conditions = [query] ∧ (∀ op, query.joins op = 0) ∧ query.size = 1 + (negates leaf).toNat := by
  obtain ⟨asked,rfl⟩ := read_single found
  cases negates leaf with
  | true => exact ⟨rfl,fun _ => rfl,rfl⟩
  | false => exact ⟨rfl,fun _ => rfl,rfl⟩

end Leaf

namespace Combination

theorem query_conditions {combination : Combination} {query : Query}
    (found : combination.query .keyValue = .ok query) :
    (Token.leaves combination.listing).map (fun leaf => Leaf.read leaf.2) = query.conditions.map .ok := by
  induction combination generalizing query with
  | leaf position text =>
    have read : Leaf.read text = .ok query := query_leaf found
    simp [read,(Leaf.read_conditions read).1]
  | joined position op left right leftIh rightIh =>
    obtain ⟨first,second,one,other,rfl⟩ := query_joined found
    simp [leftIh one,rightIh other,Query.conditions,Query.conditionsAll]

theorem query_joins {combination : Combination} {query : Query} (op : Connective)
    (found : combination.query .keyValue = .ok query) :
    query.joins op = ((Token.connectives combination.listing).map Prod.snd).count op := by
  induction combination generalizing query with
  | leaf position text =>
    have read : Leaf.read text = .ok query := query_leaf found
    rw [(Leaf.read_conditions read).2.1]
    rfl
  | joined position other left right leftIh rightIh =>
    obtain ⟨first,second,one,two,rfl⟩ := query_joined found
    simp only [Query.joins,Query.joinsAll,Nat.add_zero,leftIh one,rightIh two,connectives_joined,List.map_append,
      List.map_cons,List.map_nil,List.count_append]
    omega

theorem query_size {combination : Combination} {reading : Reading} {query : Query} (weight : Nat)
    (signed : String → Bool)
    (weighs : ∀ text piece, reading.leaf text = .ok piece → piece.size + 1 = weight + (signed text).toNat)
    (found : combination.query reading = .ok query) :
    query.size + 1 = weight * ((Token.leaves combination.listing).map Prod.snd).length +
      ((Token.leaves combination.listing).map Prod.snd).countP signed := by
  induction combination generalizing query with
  | leaf position text =>
    rw [weighs text query (query_leaf found),leaves_leaf,List.map_singleton,List.length_singleton,Nat.mul_one,
      List.countP_singleton]
    cases signed text with
    | true => rfl
    | false => rfl
  | joined position op left right leftIh rightIh =>
    obtain ⟨first,second,one,other,rfl⟩ := query_joined found
    rw [leaves_joined,List.map_append,List.length_append,List.countP_append,Nat.mul_add]
    have before := leftIh one
    have after := rightIh other
    simp only [Query.size,Query.sizeAll]
    omega

theorem query_joining {combination : Combination} {reading : Reading} {query : Query} {piece : String → Query}
    (read : ∀ text, reading.leaf text = .ok (piece text)) (found : combination.query reading = .ok query) :
    Query.Joining ((Token.leaves combination.listing).map fun leaf => piece leaf.2) query := by
  induction combination generalizing query with
  | leaf position text =>
    have same := query_leaf found
    rw [read text] at same
    cases same
    exact .single _
  | joined position op left right leftIh rightIh =>
    obtain ⟨first,second,one,other,rfl⟩ := query_joined found
    simpa using Query.Joining.joined op (leftIh one) (rightIh other)

end Combination

theorem compiled_listing {reading : Reading} {words : List String} {query : Query}
    (compiled : compileWords reading words = .ok query) :
    ∃ combination : Combination, combination.query reading = .ok query ∧
      (Token.leaves combination.listing).map Prod.snd = Token.leafWords words ∧
      (∀ op, ((Token.connectives combination.listing).map Prod.snd).count op = words.count op.word) ∧
      ∀ other, other.hasFields = true → compileWords other words = combination.query other := by
  obtain ⟨forest,tokens,evaluated⟩ := Forest.compile_parts compiled
  obtain ⟨combination,listing,found⟩ := Combination.evaluate_parts reading _ _ evaluated
  refine ⟨combination,found,?_,?_,?_⟩
  · rw [listing,← Forest.order_tokens,Postfix.order_leaves,tokens,Token.ofWords_numbered,Token.leaves_words]
  · intro op
    rw [listing,(forest.settled_connectives.map Prod.snd).count_eq,tokens,Token.ofWords_numbered,
      Token.connectives_words]
  · intro other fields
    rw [compileWords,← tokens,Forest.compile_tokens _ _ fields,← listing,Combination.evaluate_listing _ _ fields]

theorem compiled_combination {reading : Reading} {words : List String} {query : Query}
    (compiled : compileWords reading words = .ok query) :
    ∃ combination : Combination, combination.query reading = .ok query ∧
      (Token.leaves combination.listing).map Prod.snd = Token.leafWords words ∧
      ∀ op, ((Token.connectives combination.listing).map Prod.snd).count op = words.count op.word := by
  obtain ⟨combination,found,leaves,connectives,_⟩ := compiled_listing compiled
  exact ⟨combination,found,leaves,connectives⟩

theorem sought_size (field value : String) : (Leaf.sought field value).size = 1 := by
  obtain ⟨asked,single⟩ := Leaf.sought_single field value
  rw [single]
  rfl

theorem anywhere_size (fields : List String) (value : String) :
    (Reading.anywhere fields value).size = fields.length + 1 := by
  have parts : Query.sizeAll (fields.map fun field => Leaf.sought field value) = fields.length := by
    induction fields with
    | nil => rfl
    | cons field rest ih => simp [Query.sizeAll,sought_size,ih,Nat.add_comm]
  rw [Reading.anywhere,Query.size,parts,Nat.add_comm]

theorem compiled_conserves (words : List String) (query : Query) :
    (compileWords .keyValue words = .ok query →
      (Token.leafWords words).map Leaf.read = query.conditions.map .ok ∧
      (∀ op, query.joins op = words.count op.word) ∧
      query.size + 1 = 2 * (Token.leafWords words).length + (Token.leafWords words).countP Leaf.negates) ∧
    (∀ fields, fields ≠ [] → compileWords (.valueOnly fields) words = .ok query →
      Query.Joining ((Token.leafWords words).map (Reading.anywhere fields)) query ∧
      query.size + 1 = (Token.leafWords words).length * (fields.length + 2)) := by
  constructor
  · intro compiled
    obtain ⟨combination,found,leaves,connectives⟩ := compiled_combination compiled
    have conditions := combination.query_conditions found
    have weighs : ∀ text piece, Reading.keyValue.leaf text = .ok piece →
        piece.size + 1 = 2 + (Leaf.negates text).toNat := by
      intro text piece read
      rw [(Leaf.read_conditions read).2.2]
      omega
    have size := combination.query_size 2 Leaf.negates weighs found
    refine ⟨?_,?_,?_⟩
    · rw [← leaves,List.map_map]
      exact conditions
    · intro op
      rw [combination.query_joins op found,connectives]
    · rw [size,leaves]
  · intro fields _ compiled
    obtain ⟨combination,found,leaves,_⟩ := compiled_combination compiled
    have joining := combination.query_joining (Reading.leaf_valueOnly fields) found
    have weighs : ∀ text piece, (Reading.valueOnly fields).leaf text = .ok piece →
        piece.size + 1 = fields.length + 2 + false.toNat := by
      intro text piece read
      cases (Reading.leaf_valueOnly fields text).symm.trans read
      rw [anywhere_size]
      rfl
    have size := combination.query_size (fields.length + 2) (fun _ => false) weighs found
    refine ⟨?_,?_⟩
    · rw [← leaves,List.map_map]
      exact joining
    · have unsigned : (Token.leafWords words).countP (fun _ => false) = 0 := by simp
      rw [size,leaves,unsigned,Nat.add_zero,Nat.mul_comm]

theorem conserved_borrowed :
    (["a=1","b!=2","c!~[x,y]"].map Leaf.read =
      [.ok (.text "a" "1"),.ok (.negated (.term "b" "2")),.ok (.negated (.terms "c" ["x","y"]))] ∧
      (Query.joined .or [.joined .and [.text "a" "1",.negated (.term "b" "2")],
        .negated (.terms "c" ["x","y"])]).size + 1 = 2 * 3 + 2) ∧
    Query.Joining [.joined .or [.text "f" "a=1",.text "g" "a=1"],.joined .or [.text "f" "b=2",.text "g" "b=2"]]
      (.joined .and [.joined .or [.text "f" "a=1",.text "g" "a=1"],.joined .or [.text "f" "b=2",.text "g" "b=2"]]) := by
  constructor
  · obtain ⟨conditions,_,size⟩ := (compiled_conserves ["a=1","(","b!=2","and",")","or","c!~[x,y]"]
      (.joined .or [.joined .and [.text "a" "1",.negated (.term "b" "2")],.negated (.terms "c" ["x","y"])])).1 rfl
    exact ⟨conditions,size⟩
  · obtain ⟨joining,_⟩ := (compiled_conserves ["a=1","(","b=2","and",")"]
      (.joined .and [.joined .or [.text "f" "a=1",.text "g" "a=1"],.joined .or [.text "f" "b=2",.text "g" "b=2"]])).2
      ["f","g"] (by decide) rfl
    exact joining

end FilterQuery
