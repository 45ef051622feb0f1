import Mathlib.Data.List.Forall2
import FilterQuery.Proofs.Depth

namespace FilterQuery
open Outcome

-- Why a leaf has no query, with the place and the text to blame.
def Reading.fault? (reading : Reading) (leaf : Nat × String) : Option CompileError :=
  match reading.leaf leaf.2 with
  | .ok _ => none
  | .error fault => some (.expression leaf.1 leaf.2 fault)

-- A binary expression whose leaves and connectives keep their places.
inductive Combination where
  | leaf (position : Nat) (text : String)
  | joined (position : Nat) (op : Connective) (left right : Combination)
  deriving DecidableEq,Repr

namespace Combination

def listing : Combination → List Token
  | leaf position text => [⟨position,.leaf text⟩]
  | joined position op left right => left.listing ++ right.listing ++ [⟨position,.connective op⟩]

def query (reading : Reading) : Combination → Except CompileError Query
  | leaf position text =>
    match reading.leaf text with
    | .ok query => .ok query
    | .error fault => .error (.expression position text fault)
  | joined _ op left right => do
    let first ← left.query reading
    let second ← right.query reading
    return .joined op [first,second]

def meant (meaning : String → Query) : Combination → Query
  | leaf _ text => meaning text
  | joined _ op left right => .joined op [left.meant meaning,right.meant meaning]

@[simp] theorem leaves_leaf (position : Nat) (text : String) :
    Token.leaves (leaf position text).listing = [(position,text)] := rfl

@[simp] theorem leaves_joined (position : Nat) (op : Connective) (left right : Combination) :
    Token.leaves (joined position op left right).listing = Token.leaves left.listing ++ Token.leaves right.listing := by
  have bare : Token.leaves [⟨position,.connective op⟩] = [] := rfl
  rw [listing,Token.leaves_append,Token.leaves_append,bare,List.append_nil]

@[simp] theorem connectives_joined (position : Nat) (op : Connective) (left right : Combination) :
    Token.connectives (joined position op left right).listing =
      Token.connectives left.listing ++ Token.connectives right.listing ++ [(position,op)] := by
  rw [listing,Token.connectives_append,Token.connectives_append]
  rfl

theorem query_leaf {reading : Reading} {position : Nat} {text : String} {query : Query}
    (found : (leaf position text).query reading = .ok query) : reading.leaf text = .ok query := by
  simp only [Combination.query] at found
  split at found
  · cases found; assumption
  · cases found

theorem query_joined {reading : Reading} {position : Nat} {op : Connective} {left right : Combination} {query : Query}
    (found : (joined position op left right).query reading = .ok query) :
    ∃ first second, left.query reading = .ok first ∧ right.query reading = .ok second ∧
      query = .joined op [first,second] := by
  obtain ⟨first,one,found⟩ := (bind_ok _).mp found
  obtain ⟨second,other,found⟩ := (bind_ok _).mp found
  cases found
  exact ⟨first,second,one,other,rfl⟩

theorem steps_listing (combination : Combination) (reading : Reading) (made : List Query) :
    Evaluate.steps reading made combination.listing =
      combination.query reading >>= fun query => .ok (query :: made) := by
  induction combination generalizing made with
  | leaf position text =>
    cases read : reading.leaf text with
    | ok query => simp [listing,Combination.query,Evaluate.steps_cons,Evaluate.steps_nil,Evaluate.step,read]
    | error fault => simp [listing,Combination.query,Evaluate.steps_cons,Evaluate.steps_nil,Evaluate.step,read]
  | joined position op left right leftIh rightIh =>
    simp only [listing,Evaluate.steps_append,leftIh,Combination.query]
    cases left.query reading with
    | error fault => rfl
    | ok first =>
      simp only [ok_bind,rightIh]
      cases right.query reading with
      | error fault => rfl
      | ok second => simp [Evaluate.steps_cons,Evaluate.steps_nil,Evaluate.step]

theorem evaluate_listing (combination : Combination) (reading : Reading) (fields : reading.hasFields = true) :
    evaluate reading combination.listing = combination.query reading := by
  rw [evaluate_steps reading _ fields,steps_listing]
  cases combination.query reading with
  | ok query => rfl
  | error fault => rfl

-- The tokens that made the expressions of a stack, the latest on top.
def stacked : List Combination → List Token
  | [] => []
  | top :: below => stacked below ++ top.listing

theorem steps_stacked {reading : Reading} {made next : List Query} {tokens : List Token} {stack : List Combination}
    (queries : List.Forall₂ (fun combination query => combination.query reading = .ok query) stack made)
    (ran : Evaluate.steps reading made tokens = .ok next) :
    ∃ grown, List.Forall₂ (fun combination query => combination.query reading = .ok query) grown next ∧
      stacked grown = stacked stack ++ tokens := by
  induction tokens generalizing made stack with
  | nil => cases ran; exact ⟨stack,queries,by simp⟩
  | cons token rest ih =>
    obtain ⟨middle,first,later⟩ := (bind_ok _).mp ran
    rcases Evaluate.step_cases first with
      ⟨position,text,query,rfl,read,rfl⟩ | ⟨position,op,right,left,below,rfl,rfl,rfl⟩
    · have leafQuery : (leaf position text).query reading = .ok query := by simp [Combination.query,read]
      obtain ⟨grown,grownQueries,grownTokens⟩ := ih (.cons leafQuery queries) later
      exact ⟨grown,grownQueries,by simpa [stacked,listing] using grownTokens⟩
    · obtain ⟨rightTerm,above,rightQuery,others,rfl⟩ := List.forall₂_cons_right_iff.mp queries
      obtain ⟨leftTerm,lower,leftQuery,untouched,rfl⟩ := List.forall₂_cons_right_iff.mp others
      have joinedQuery : (joined position op leftTerm rightTerm).query reading =
          .ok (.joined op [left,right]) := by simp [Combination.query,leftQuery,rightQuery]
      obtain ⟨grown,grownQueries,grownTokens⟩ := ih (.cons joinedQuery untouched) later
      exact ⟨grown,grownQueries,by simpa [stacked,listing] using grownTokens⟩

theorem evaluate_parts (reading : Reading) (tokens : List Token) (query : Query)
    (evaluated : evaluate reading tokens = .ok query) :
    ∃ combination : Combination, combination.listing = tokens ∧ combination.query reading = .ok query := by
  rw [evaluate] at evaluated
  split at evaluated
  · rw [Evaluate.runFrom_steps] at evaluated
    obtain ⟨made,ran,finished⟩ := (bind_ok _).mp evaluated
    obtain rfl := (Evaluate.finish_ok made query).mp finished
    obtain ⟨grown,queries,tokens⟩ := steps_stacked .nil ran
    cases queries with
    | @cons combination _ _ _ found queries =>
      cases queries
      exact ⟨combination,by simpa [stacked] using tokens,found⟩
  · cases evaluated

theorem query_meant (combination : Combination) (reading : Reading) (meaning : String → Query)
    (read : ∀ leaf ∈ Token.leaves combination.listing, reading.leaf leaf.2 = .ok (meaning leaf.2)) :
    combination.query reading = .ok (combination.meant meaning) := by
  induction combination with
  | leaf position text =>
    have found := read (position,text) (by simp)
    simp [query,meant,found]
  | joined position op left right leftIh rightIh =>
    simp only [leaves_joined,List.mem_append] at read
    have first := leftIh fun leaf member => read leaf (.inl member)
    have second := rightIh fun leaf member => read leaf (.inr member)
    simp [query,meant,first,second]

theorem query_fault (combination : Combination) (reading : Reading) :
    match (Token.leaves combination.listing).findSome? reading.fault? with
    | some fault => combination.query reading = .error fault
    | none => ∃ query, combination.query reading = .ok query := by
  induction combination with
  | leaf position text =>
    cases read : reading.leaf text with
    | ok found => simp [query,Reading.fault?,read]
    | error fault => simp [query,Reading.fault?,read]
  | joined position op left right leftIh rightIh =>
    simp only [leaves_joined,List.findSome?_append,query]
    cases leftmost : (Token.leaves left.listing).findSome? reading.fault? with
    | some fault => simp_all
    | none =>
      simp only [leftmost] at leftIh
      obtain ⟨first,firstQuery⟩ := leftIh
      cases later : (Token.leaves right.listing).findSome? reading.fault? with
      | some fault => simp_all
      | none =>
        simp only [later] at rightIh
        obtain ⟨second,secondQuery⟩ := rightIh
        simp [firstQuery,secondQuery]

end Combination
end FilterQuery
