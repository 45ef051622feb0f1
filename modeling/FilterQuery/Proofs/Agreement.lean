import FilterQuery.Proofs.Conditions

namespace FilterQuery
open Outcome

-- An error about how leaves, connectives and brackets stand, whatever the leaves
-- mean.
def CompileError.aboutShape : CompileError → Bool
  | .grouping _ | .stray .. | .underflow .. | .incomplete _ => true
  | .expression .. | .noFields => false

namespace Query

-- Other queries in place of all conditions, in their order. A condition that no
-- query is left for stays.
mutual
def refill : Query → List Query → Query
  | .joined op parts,scions => .joined op (refillAll parts scions)
  | query,scions => scions.headD query
def refillAll : List Query → List Query → List Query
  | [],_ => []
  | first :: rest,scions =>
    first.refill (scions.take first.conditions.length) :: refillAll rest (scions.drop first.conditions.length)
end

theorem refill_single {query : Query} (scion : Query) (single : query.conditions = [query])
    (apart : ∀ op, query.joins op = 0) : query.refill [scion] = scion := by
  cases query with
  | condition asked => rfl
  | negated inner => rfl
  | joined op parts =>
    have counted := apart op
    simp [joins] at counted

theorem refill_pair (op : Connective) {first second : Query} {before after : List Query}
    (left : before.length = first.conditions.length) (right : after.length = second.conditions.length) :
    (joined op [first,second]).refill (before ++ after) = .joined op [first.refill before,second.refill after] := by
  simp only [refill,refillAll,List.take_left' left,List.drop_left' left,← right,List.take_length]

end Query

namespace Evaluate

-- The error is about what a leaf means.
def Unread (outcome : Except CompileError α) : Prop :=
  ∃ position leaf fault, outcome = .error (.expression position leaf fault)

abbrev SameDepth : List Query → List Query → Prop := List.Forall₂ fun _ _ => True

variable (reading : Reading) {other : Reading} (total : ∀ text, ∃ query, other.leaf text = .ok query)
include total

-- What a token does to the number of queries does not depend on what leaves mean,
-- as long as they mean something.
theorem step_alike {made others : List Query} (token : Token) (same : SameDepth made others) :
    Unread (step reading made token) ∨ Alike Eq SameDepth (step reading made token) (step other others token) := by
  obtain ⟨position,lexeme⟩ := token
  cases lexeme with
  | leaf text =>
    obtain ⟨image,read⟩ := total text
    cases found : reading.leaf text with
    | error fault => exact .inl ⟨position,text,fault,by simp only [step,found]⟩
    | ok query =>
      simp only [step,found,read]
      exact .inr (.value (.cons trivial same))
  | connective op =>
    apply Or.inr
    cases same with
    | nil => exact .fault rfl
    | cons _ below =>
      cases below with
      | nil => exact .fault rfl
      | cons _ below => exact .value (.cons trivial below)
  | opener family => exact .inr (.fault rfl)
  | closer family => exact .inr (.fault rfl)

theorem steps_alike {made others : List Query} (tokens : List Token) (same : SameDepth made others) :
    Unread (steps reading made tokens) ∨
    Alike Eq SameDepth (steps reading made tokens) (steps other others tokens) := by
  induction tokens generalizing made others with
  | nil => exact .inr (.value same)
  | cons token rest ih =>
    simp only [steps_cons]
    rcases step_alike reading total token same with ⟨position,leaf,fault,unread⟩ | alike
    · exact .inl ⟨position,leaf,fault,by rw [unread,error_bind]⟩
    · generalize step reading made token = first,step other others token = second at alike ⊢
      cases alike with
      | value deeper => exact ih deeper
      | fault equal => exact .inr (.fault equal)

end Evaluate

theorem compile_alike (reading : Reading) {other : Reading} (tokens : List Token) (fields : reading.hasFields = true)
    (others : other.hasFields = true) (total : ∀ text, ∃ query, other.leaf text = .ok query) :
    Evaluate.Unread (compile reading tokens) ∨
    Alike Eq (fun _ _ => True) (compile reading tokens) (compile other tokens) := by
  cases checked : Grouping.check tokens with
  | error misplaced =>
    rw [compile_unbalanced _ _ fields checked,compile_unbalanced _ _ others checked]
    exact .inr (.fault rfl)
  | ok _ =>
    rw [compile_runs _ _ fields checked,compile_runs _ _ others checked]
    rcases Evaluate.steps_alike reading total (Postfix.order tokens) .nil with ⟨position,leaf,fault,unread⟩ | alike
    · exact .inl ⟨position,leaf,fault,by rw [unread,error_bind]⟩
    · exact .inr (alike.bind fun _ _ same => Evaluate.finish_alike same)

theorem Combination.meant_refill {combination : Combination} {query : Query} (meaning : String → Query)
    (found : combination.query .keyValue = .ok query) :
    combination.meant meaning =
      query.refill (((Token.leaves combination.listing).map Prod.snd).map meaning) := by
  induction combination generalizing query with
  | leaf position text =>
    obtain ⟨single,apart,_⟩ := Leaf.read_conditions (query_leaf found)
    exact (Query.refill_single (meaning text) single apart).symm
  | joined position op left right leftIh rightIh =>
    obtain ⟨first,second,one,two,rfl⟩ := query_joined found
    have before := congrArg List.length (query_conditions one)
    have after := congrArg List.length (query_conditions two)
    rw [List.length_map,List.length_map] at before after
    rw [meant,leftIh one,rightIh two,leaves_joined,List.map_append,List.map_append,Query.refill_pair]
    · simpa using before
    · simpa using after

theorem compile_total_shape {reading : Reading} {tokens : List Token} {fault : CompileError}
    (fields : reading.hasFields = true) (total : ∀ text, ∃ query, reading.leaf text = .ok query)
    (failed : compile reading tokens = .error fault) : fault.aboutShape = true := by
  rcases compile_fault reading tokens fields failed with
    ⟨_,_,rfl⟩ | ⟨_,token,_,_,_,_,_,stopped⟩ | ⟨_,_,_,_,rfl⟩
  · rfl
  · rcases Evaluate.step_fault stopped with ⟨_,text,_,_,unread,_⟩ | ⟨_,_,_,_,rfl⟩ | ⟨_,_,rfl⟩
    · obtain ⟨query,read⟩ := total text
      rw [read] at unread
      cases unread
    · rfl
    · rfl
  · rfl

theorem compile_refilled {fields words : List String} {query : Query}
    (present : (Reading.valueOnly fields).hasFields = true) (compiled : compileWords .keyValue words = .ok query) :
    (Token.leafWords words).map Leaf.read = query.conditions.map .ok ∧
    compileWords (.valueOnly fields) words =
      .ok (query.refill ((Token.leafWords words).map (Reading.anywhere fields))) := by
  obtain ⟨combination,found,leaves,_,anew⟩ := compiled_listing compiled
  have conditions := combination.query_conditions found
  have refilled := Combination.meant_refill (Reading.anywhere fields) found
  rw [← leaves,List.map_map,anew _ present,← refilled]
  exact ⟨conditions,combination.query_meant _ _ fun _ _ => Reading.leaf_valueOnly fields _⟩

theorem compile_agrees (fields words : List String) (present : fields ≠ []) :
    (∀ fault, compileWords (.valueOnly fields) words = .error fault → fault.aboutShape = true) ∧
    (∀ fault, compileWords .keyValue words = .error fault → fault.aboutShape = true →
      compileWords (.valueOnly fields) words = .error fault) ∧
    ∀ query, compileWords .keyValue words = .ok query →
      (Token.leafWords words).map Leaf.read = query.conditions.map .ok ∧
      compileWords (.valueOnly fields) words =
        .ok (query.refill ((Token.leafWords words).map (Reading.anywhere fields))) := by
  have asked := (Reading.hasFields_valueOnly fields).mpr present
  have total : ∀ text, ∃ query, (Reading.valueOnly fields).leaf text = .ok query :=
    fun text => ⟨_,Reading.leaf_valueOnly fields text⟩
  refine ⟨?_,?_,?_⟩
  · intro fault failed
    exact compile_total_shape asked total failed
  · intro fault failed shape
    rcases compile_alike .keyValue (Token.ofWords words) rfl asked total with
      ⟨position,leaf,cause,unread⟩ | alike
    · rw [← compileWords,failed] at unread
      cases unread
      cases shape
    · rw [← compileWords,← compileWords,failed] at alike
      generalize compileWords (.valueOnly fields) words = outcome at alike ⊢
      cases alike with
      | fault same => rw [same]
  · intro query compiled
    exact compile_refilled asked compiled

theorem agreed_borrowed_underflow :
    compileWords (.valueOnly ["f","g"]) ["a=\"1\"","(","b!=2","and",")"] =
      .ok (.joined .and [.joined .or [.term "f" "a=1",.term "g" "a=1"],
        .joined .or [.text "f" "b!=2",.text "g" "b!=2"]]) ∧
    compileWords (.valueOnly ["f"]) ["[","or","]","a==1"] = .error (.underflow 1 .or 0) := by
  constructor
  · exact ((compile_agrees ["f","g"] ["a=\"1\"","(","b!=2","and",")"] (by decide)).2.2
      (.joined .and [.term "a" "1",.negated (.term "b" "2")]) rfl).2
  · exact (compile_agrees ["f"] ["[","or","]","a==1"] (by decide)).2.1 _ rfl rfl

end FilterQuery
