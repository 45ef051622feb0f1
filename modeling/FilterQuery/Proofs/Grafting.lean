import FilterQuery.Proofs.Conditions
import FilterQuery.Proofs.Placement

namespace FilterQuery
open Outcome

namespace Query

-- Another query in place of the condition with that number, counted from the
-- left and from zero.
mutual
def graft (scion : Query) : Query → Nat → Query
  | .joined op parts,place => .joined op (graftAll scion parts place)
  | _,0 => scion
  | query,_+1 => query
def graftAll (scion : Query) : List Query → Nat → List Query
  | [],_ => []
  | first :: rest,place =>
    if place < first.conditions.length then graft scion first place :: rest
    else first :: graftAll scion rest (place - first.conditions.length)
end

theorem graftAll_left (scion : Query) {first : List Query} (second : List Query) {place : Nat}
    (within : place < (conditionsAll first).length) :
    graftAll scion (first ++ second) place = graftAll scion first place ++ second := by
  induction first generalizing place with
  | nil => cases within
  | cons query rest ih =>
    simp only [conditionsAll,List.length_append] at within
    simp only [List.cons_append,graftAll]
    split
    · rfl
    · rw [ih (by omega),List.cons_append]

theorem graftAll_right (scion : Query) (first second : List Query) (place : Nat) :
    graftAll scion (first ++ second) ((conditionsAll first).length + place) = first ++ graftAll scion second place := by
  induction first with
  | nil => simp [conditionsAll]
  | cons query rest ih =>
    simp only [List.cons_append,graftAll,conditionsAll,List.length_append]
    rw [if_neg (by omega),Nat.add_assoc,Nat.add_sub_cancel_left,ih]

theorem graftAll_length (scion : Query) (parts : List Query) (place : Nat) :
    (graftAll scion parts place).length = parts.length := by
  induction parts generalizing place with
  | nil => rfl
  | cons first rest ih =>
    rw [graftAll]
    split
    · rfl
    · rw [List.length_cons,ih,List.length_cons]

theorem graftAll_last (scion query : Query) (below : List Query) (single : query.conditions = [query])
    (leafy : graft scion query 0 = scion) :
    graftAll scion (below ++ [query]) (conditionsAll below).length = below ++ [scion] := by
  have here := graftAll_right scion below [query] 0
  rw [Nat.add_zero] at here
  rw [here,graftAll,single,List.length_singleton,if_pos Nat.one_pos,leafy]

end Query

namespace Evaluate
open Query

-- The queries made so far stand in reverse, the latest first.
def grafted (scion : Query) (made : List Query) (place : Nat) : List Query :=
  (graftAll scion made.reverse place).reverse

theorem step_grafted {reading : Reading} {made next : List Query} {token : Token} (scion : Query) {place : Nat}
    (within : place < (conditionsAll made.reverse).length) (ran : step reading made token = .ok next) :
    step reading (grafted scion made place) token = .ok (grafted scion next place) ∧
      place < (conditionsAll next.reverse).length := by
  rcases step_cases ran with ⟨position,text,query,rfl,read,rfl⟩ | ⟨position,op,right,left,below,rfl,rfl,rfl⟩
  · constructor
    · simp only [step,read,grafted,List.reverse_cons]
      rw [graftAll_left scion [query] within,List.reverse_append]
      rfl
    · rw [List.reverse_cons,conditionsAll_append,List.length_append]
      omega
  · have parts : conditionsAll (below.reverse ++ [.joined op [left,right]]) =
        conditionsAll (below.reverse ++ [left,right]) := by
      simp [conditionsAll_append,conditionsAll,conditions]
    simp only [List.reverse_cons,List.append_assoc,List.singleton_append] at within ⊢
    rw [parts]
    refine ⟨?_,within⟩
    -- The place lies in front of the two queries that are joined, or in one of them.
    by_cases early : place < (conditionsAll below.reverse).length
    · simp only [grafted,List.reverse_cons,List.append_assoc,List.singleton_append]
      rw [graftAll_left scion _ early,graftAll_left scion _ early,List.reverse_append,List.reverse_append]
      rfl
    · obtain ⟨later,rfl⟩ := Nat.exists_eq_add_of_le (Nat.le_of_not_lt early)
      obtain ⟨first,second,both⟩ := List.length_eq_two.mp (graftAll_length scion [left,right] later)
      have inside : later < (Query.joined op [left,right]).conditions.length := by
        rw [conditionsAll_append,List.length_append] at within
        exact Nat.lt_of_add_lt_add_left within
      have joined : graftAll scion [.joined op [left,right]] later = [.joined op [first,second]] := by
        rw [graftAll,if_pos inside,graft,both]
      simp only [grafted,List.reverse_cons,List.append_assoc,List.singleton_append]
      rw [graftAll_right,graftAll_right,both,joined]
      simp [step]

theorem steps_grafted {reading : Reading} {made next : List Query} {tokens : List Token} (scion : Query) {place : Nat}
    (within : place < (conditionsAll made.reverse).length) (ran : steps reading made tokens = .ok next) :
    steps reading (grafted scion made place) tokens = .ok (grafted scion next place) := by
  induction tokens generalizing made with
  | nil => cases ran; rfl
  | cons token rest ih =>
    obtain ⟨middle,first,later⟩ := (bind_ok _).mp ran
    obtain ⟨same,inside⟩ := step_grafted scion within first
    exact (bind_ok _).mpr ⟨_,same,ih inside later⟩

theorem step_asked {made next : List Query} {token : Token} (ran : step .keyValue made token = .ok next) :
    (conditionsAll next.reverse).length =
      (conditionsAll made.reverse).length + (Token.leaf? token).toList.length := by
  rcases step_cases ran with ⟨position,text,query,rfl,read,rfl⟩ | ⟨position,op,right,left,below,rfl,rfl,rfl⟩
  · have single := (Leaf.read_conditions read).1
    simp [conditionsAll_append,conditionsAll,single,Token.leaf?]
  · simp [conditionsAll_append,conditionsAll,conditions,Token.leaf?]

theorem steps_asked {made next : List Query} {tokens : List Token} (ran : steps .keyValue made tokens = .ok next) :
    (conditionsAll next.reverse).length = (conditionsAll made.reverse).length + (Token.leaves tokens).length := by
  induction tokens generalizing made with
  | nil => cases ran; rfl
  | cons token rest ih =>
    obtain ⟨middle,first,later⟩ := (bind_ok _).mp ran
    rw [ih later,step_asked first,Token.leaves_cons,List.length_append,Nat.add_assoc]

theorem read_grafted {leaf : String} {query : Query} (scion : Query) (read : Leaf.read leaf = .ok query) :
    query.conditions = [query] ∧ graft scion query 0 = scion := by
  obtain ⟨asked,rfl⟩ := Leaf.read_single read
  cases Leaf.negates leaf with
  | true => exact ⟨rfl,rfl⟩
  | false => exact ⟨rfl,rfl⟩

theorem steps_replaced {before after piece : List Token} {position : Nat} {text : String} {scion : Query}
    {made : List Query} (ran : steps .keyValue [] (before ++ ⟨position,.leaf text⟩ :: after) = .ok made)
    (makes : ∀ stack, steps .keyValue stack piece = .ok (scion :: stack)) :
    steps .keyValue [] (before ++ (piece ++ after)) = .ok (grafted scion made (Token.leaves before).length) := by
  rw [steps_append] at ran
  obtain ⟨middle,first,later⟩ := (bind_ok _).mp ran
  obtain ⟨next,here,later⟩ := (bind_ok _).mp later
  rcases step_cases here with ⟨_,_,query,same,read,rfl⟩ | ⟨_,_,_,_,_,same,_,_⟩
  · obtain ⟨single,leafy⟩ := read_grafted scion read
    -- All leaves in front have been asked for, so the leaf's condition is the last.
    have asked : (conditionsAll middle.reverse).length = (Token.leaves before).length := by
      simpa [conditionsAll] using steps_asked first
    have within : (Token.leaves before).length < (conditionsAll (query :: middle).reverse).length := by
      rw [List.reverse_cons,conditionsAll_append,List.length_append,asked,conditionsAll,single]
      simp
    have start : grafted scion (query :: middle) (Token.leaves before).length = scion :: middle := by
      rw [grafted,List.reverse_cons,← asked,graftAll_last scion query _ single leafy]
      simp
    have goesOn := steps_grafted scion within later
    rw [start] at goesOn
    rw [steps_append,first,ok_bind,steps_append,makes,ok_bind,goesOn]
  · cases same

end Evaluate

theorem compile_replaced {before after inside : List Token} {position : Nat} {text : String} {whole scion : Query}
    (family : Family) (openedAt closedAt : Nat)
    (outer : compile .keyValue (before ++ ⟨position,.leaf text⟩ :: after) = .ok whole)
    (inner : compile .keyValue inside = .ok scion) :
    compile .keyValue (before ++ ⟨openedAt,.opener family⟩ :: (inside ++ ⟨closedAt,.closer family⟩ :: after)) =
      .ok (Query.graft scion whole (Token.leaves before).length) := by
  obtain ⟨content,rfl,evaluated⟩ := Forest.compile_parts inner
  obtain ⟨combination,listing,makes⟩ := Combination.evaluate_parts _ _ _ evaluated
  have leaves := Postfix.leaves_passed before (List.forall_mem_nil _)
  have single : ⟨position,.leaf text⟩ :: after = (Forest.leaf position text .empty).tokens ++ after := rfl
  have pushes : ∀ stack, Evaluate.steps .keyValue stack combination.listing = .ok (scion :: stack) := by
    intro stack
    rw [Combination.steps_listing,makes,ok_bind]
  rw [compile_steps _ _ rfl,Postfix.order,Postfix.orderFrom_append] at outer
  rw [compile_steps _ _ rfl,Postfix.order_group,← listing]
  obtain ⟨checked,ran⟩ := outer
  have asked := Evaluate.steps_asked ran
  have replaced := Evaluate.steps_replaced ran pushes
  constructor
  · rw [single,Grouping.check,Grouping.checkFrom_row] at checked
    rw [Grouping.check,Grouping.checkFrom_group,checked]
  · have within : (Token.leaves before).length < whole.conditions.length := by
      simp only [List.reverse_singleton,List.reverse_nil,Query.conditionsAll,Postfix.orderFrom,Token.leaves_append,
        Token.leaves_cons,Token.leaf?,Option.toList_some,leaves,List.length_append,List.length_singleton,
        List.length_nil] at asked
      omega
    rw [replaced,leaves,Evaluate.grafted,List.reverse_singleton,Query.graftAll,if_pos within]
    rfl

theorem compile_graft (before words after : List String) (word : String) (family : Family) (whole scion : Query)
    (leaf : Lexeme.Plain word) (outer : compileWords .keyValue (before ++ word :: after) = .ok whole)
    (inner : compileWords .keyValue words = .ok scion) :
    compileWords .keyValue (before ++ (Lexeme.opener family).text :: (words ++ (Lexeme.closer family).text :: after)) =
      .ok (Query.graft scion whole (Token.leafWords before).length) := by
  rw [← compile_unplaced] at outer inner ⊢
  have written : Token.unplaced (before ++ word :: after) =
      Token.unplaced before ++ ⟨0,.leaf word⟩ :: Token.unplaced after := by
    rw [Token.unplaced_append,Token.unplaced,Token.unplaced,List.map_cons,(Lexeme.ofText_leaf word).mpr leaf]
    rfl
  have bracketed :
      Token.unplaced (before ++ (Lexeme.opener family).text :: (words ++ (Lexeme.closer family).text :: after)) =
        Token.unplaced before ++
          ⟨0,.opener family⟩ :: (Token.unplaced words ++ ⟨0,.closer family⟩ :: Token.unplaced after) := by
    simp [Token.unplaced,Lexeme.ofText_opener,Lexeme.ofText_closer]
  have counted : (Token.leaves (Token.unplaced before)).length = (Token.leafWords before).length := by
    rw [← Token.unplaced_leaves,List.length_map]
  rw [written] at outer
  rw [bracketed,← counted]
  exact compile_replaced family 0 0 outer inner

theorem graft_misplaced :
    compileWords .keyValue ["a=1","b!=2","and","c=3","or"] =
      .ok (.joined .and [.text "a" "1",.joined .or [.negated (.term "b" "2"),.text "c" "3"]]) ∧
    compileWords .keyValue ["x=1","y=2","or"] = .ok (.joined .or [.text "x" "1",.text "y" "2"]) ∧
    compileWords .keyValue ["a=1","[","x=1","y=2","or","]","and","c=3","or"] =
      .ok (.joined .and [.text "a" "1",.joined .or [.joined .or [.text "x" "1",.text "y" "2"],.text "c" "3"]]) := by
  refine ⟨rfl,rfl,?_⟩
  exact compile_graft ["a=1"] ["x=1","y=2","or"] ["and","c=3","or"] "b!=2" .square _ _ (by decide) rfl rfl

end FilterQuery
