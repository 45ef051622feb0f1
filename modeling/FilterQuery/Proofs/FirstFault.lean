import FilterQuery.Proofs.LeafParts
import FilterQuery.Proofs.PostOrder

namespace FilterQuery
open Outcome

namespace Combination

-- Expressions put together from tokens in post-order, the latest first. Tokens
-- that are in no such place are passed over.
def gather (stack : List Combination) (token : Token) : List Combination :=
  match token.lexeme,stack with
  | .leaf text,stack => .leaf token.position text :: stack
  | .connective op,right :: left :: below => .joined token.position op left right :: below
  | _,stack => stack

theorem gather_listing (combination : Combination) (stack : List Combination) :
    combination.listing.foldl gather stack = combination :: stack := by
  induction combination generalizing stack with
  | leaf position text => rfl
  | joined position op left right leftIh rightIh =>
    rw [listing,List.foldl_append,List.foldl_append,leftIh,rightIh]
    rfl

theorem listing_inj {one other : Combination} (same : one.listing = other.listing) : one = other := by
  have gathered := congrArg (List.foldl gather []) same
  rw [gather_listing,gather_listing] at gathered
  exact (List.cons.inj gathered).1

end Combination

namespace Evaluate

-- How many more leaves than connectives there are, or fewer.
def surplus (tokens : List Token) : Int := (Token.leaves tokens).length - (Token.connectives tokens).length

-- What a token needs of those before it: a leaf nothing but a meaning, and a
-- connective two operands. A bracket never has a place.
def Acts (reading : Reading) (before : List Token) (token : Token) : Prop :=
  match token.lexeme with
  | .leaf text => ∃ query, reading.leaf text = .ok query
  | .connective _ => 2 ≤ surplus before
  | .opener _ | .closer _ => False

def AllAct (reading : Reading) (tokens : List Token) : Prop :=
  ∀ before token after, tokens = before ++ token :: after → Acts reading before token

-- What is said of a token that cannot act, behind tokens that all do.
inductive Blamed (reading : Reading) (before : List Token) : Token → CompileError → Prop where
  | leaf (unread : reading.leaf text = .error cause) :
      Blamed reading before ⟨position,.leaf text⟩ (.expression position text cause)
  | connective (available : Nat) (counted : surplus before = available) (few : available < 2) :
      Blamed reading before ⟨position,.connective op⟩ (.underflow position op available)
  | opener : Blamed reading before ⟨position,.opener family⟩ (.stray position family.opener)
  | closer : Blamed reading before ⟨position,.closer family⟩ (.stray position family.closer)

variable {reading : Reading} {made : List Query} {tokens before : List Token}

theorem steps_surplus (ran : steps reading [] tokens = .ok made) : surplus tokens = made.length := by
  have counted := steps_length ran
  rw [List.length_nil] at counted
  rw [surplus]
  omega

theorem step_acts (ran : steps reading [] before = .ok made) (token : Token) :
    (∃ next, step reading made token = .ok next) ↔ Acts reading before token := by
  have depth := steps_surplus ran
  obtain ⟨position,lexeme⟩ := token
  cases lexeme with
  | leaf text =>
    simp only [step,Acts]
    cases reading.leaf text with
    | ok query => simp
    | error cause => simp
  | connective op =>
    simp only [step,Acts,depth]
    rcases made with _ | ⟨right,_ | ⟨left,below⟩⟩
    · simp
    · simp
    · simp only [List.length_cons]
      refine ⟨fun _ => by omega,fun _ => ⟨_,rfl⟩⟩
  | opener family => simp [step,Acts]
  | closer family => simp [step,Acts]

theorem step_blamed (ran : steps reading [] before = .ok made) {token : Token} {fault : CompileError}
    (stopped : step reading made token = .error fault) : Blamed reading before token fault := by
  have depth := steps_surplus ran
  rcases step_fault stopped with ⟨position,text,cause,rfl,unread,rfl⟩ | ⟨position,op,rfl,few,rfl⟩ | ⟨bracket,_⟩
  · exact .leaf unread
  · exact .connective made.length depth few
  · obtain ⟨position,lexeme⟩ := token
    cases lexeme with
    | opener family => cases stopped; exact .opener
    | closer family => cases stopped; exact .closer
    | connective | leaf => cases bracket

theorem steps_act : (∃ made, steps reading [] tokens = .ok made) ↔ AllAct reading tokens := by
  constructor
  · intro gone before token after split
    obtain ⟨made,ran⟩ := gone
    rw [split,steps_append] at ran
    obtain ⟨middle,first,later⟩ := (bind_ok _).mp ran
    obtain ⟨next,acted,_⟩ := (bind_ok _).mp later
    exact (step_acts first token).mp ⟨next,acted⟩
  · intro all
    cases ran : steps reading [] tokens with
    | ok made => exact ⟨made,rfl⟩
    | error fault =>
      obtain ⟨before,token,after,middle,split,first,stopped⟩ := steps_fault ran
      obtain ⟨next,acted⟩ := (step_acts first token).mpr (all before token after split)
      rw [stopped] at acted
      cases acted

theorem steps_blamed {token : Token} (after : List Token) (act : AllAct reading before)
    (idle : ¬ Acts reading before token) : ∃ fault, Blamed reading before token fault ∧
      steps reading [] (before ++ token :: after) = .error fault := by
  obtain ⟨made,first⟩ := steps_act.mpr act
  cases acted : step reading made token with
  | ok next => exact absurd ((step_acts first token).mp ⟨next,acted⟩) idle
  | error fault =>
    refine ⟨fault,step_blamed first acted,?_⟩
    rw [steps_append,first,ok_bind,steps_cons,acted,error_bind]

end Evaluate

open Evaluate

section
variable {reading : Reading} (tokens : List Token) (fields : reading.hasFields = true)
include fields

theorem evaluate_listed (query : Query) : evaluate reading tokens = .ok query ↔
    ∃ combination : Combination, combination.listing = tokens ∧ combination.query reading = .ok query := by
  constructor
  · intro evaluated
    exact Combination.evaluate_parts reading tokens query evaluated
  · intro listed
    obtain ⟨combination,rfl,found⟩ := listed
    rw [combination.evaluate_listing reading fields,found]

theorem evaluate_remaining (act : AllAct reading tokens) : ∃ remaining : Nat, surplus tokens = remaining ∧
    (remaining = 1 → ∃ query, evaluate reading tokens = .ok query) ∧
    (remaining ≠ 1 → evaluate reading tokens = .error (.incomplete remaining)) := by
  obtain ⟨made,ran⟩ := steps_act.mpr act
  refine ⟨made.length,steps_surplus ran,?_,?_⟩
  · intro single
    obtain ⟨query,rfl⟩ := List.length_eq_one_iff.mp single
    exact ⟨query,by rw [evaluate_steps _ _ fields,ran,ok_bind,finish]⟩
  · intro several
    rw [evaluate_steps _ _ fields,ran,ok_bind]
    cases finished : finish made with
    | ok query => exact absurd (by rw [(finish_ok made query).mp finished]; rfl) several
    | error fault => rw [(finish_fault finished).2]

theorem evaluate_unread {position : Nat} {leaf : String} {cause : Leaf.Fault}
    (failed : evaluate reading tokens = .error (.expression position leaf cause)) : reading.leaf leaf = .error cause := by
  rcases evaluate_fault reading tokens fields failed with ⟨_,_,_,_,_,_,stopped⟩ | ⟨_,_,_,same⟩
  · rcases step_fault stopped with ⟨_,_,_,_,unread,same⟩ | ⟨_,_,_,_,same⟩ | ⟨_,_,same⟩
    · cases same; exact unread
    · cases same
    · cases same
  · cases same

end

theorem evaluate_first_fault (reading : Reading) (tokens : List Token) (fields : reading.hasFields = true) :
    (∀ query, evaluate reading tokens = .ok query ↔
      ∃ combination : Combination, combination.listing = tokens ∧ combination.query reading = .ok query) ∧
    (∀ one other : Combination, one.listing = tokens → other.listing = tokens → one = other) ∧
    (∀ before token after, tokens = before ++ token :: after → AllAct reading before → ¬ Acts reading before token →
      ∃ fault, Blamed reading before token fault ∧ evaluate reading tokens = .error fault) ∧
    (AllAct reading tokens → ∃ remaining : Nat, surplus tokens = remaining ∧
      (remaining = 1 → ∃ query, evaluate reading tokens = .ok query) ∧
      (remaining ≠ 1 → evaluate reading tokens = .error (.incomplete remaining))) ∧
    ∀ values, reading = .valueOnly values →
      (∀ combination : Combination, combination.listing = tokens →
        evaluate reading tokens = .ok (combination.meant (Reading.anywhere values))) ∧
      ∀ position leaf cause, evaluate reading tokens ≠ .error (.expression position leaf cause) := by
  refine ⟨evaluate_listed tokens fields,?_,?_,evaluate_remaining tokens fields,?_⟩
  · intro one other first second
    exact Combination.listing_inj (first.trans second.symm)
  · intro before token after split act idle
    obtain ⟨fault,blamed,stopped⟩ := steps_blamed after act idle
    refine ⟨fault,blamed,?_⟩
    rw [evaluate_steps _ _ fields,split,stopped,error_bind]
  · intro values same
    subst same
    constructor
    · intro combination listed
      rw [← listed,combination.evaluate_listing _ fields]
      exact combination.query_meant _ _ fun leaf _ => Reading.leaf_valueOnly values _
    · intro position leaf cause failed
      cases (Reading.leaf_valueOnly values leaf).symm.trans (evaluate_unread tokens fields failed)

theorem first_fault_among_others :
    evaluate .keyValue (Token.ofWords ["a=1","b>2","and","c~[p,q]","or"]) =
      .ok (.joined .or [.joined .and [.text "a" "1",.range "b" .gt "2"],.terms "c" ["p","q"]]) ∧
    evaluate .keyValue (Token.ofWords ["a=1","b=2","and","or","c","("]) = .error (.underflow 3 .or 1) ∧
    evaluate (.valueOnly ["f"]) (Token.ofWords ["a==1",")","and"]) = .error (.stray 1 ')') := by
  refine ⟨?_,?_,?_⟩
  · apply ((evaluate_first_fault .keyValue (Token.ofWords ["a=1","b>2","and","c~[p,q]","or"]) rfl).1 _).mpr
    exact ⟨.joined 4 .or (.joined 2 .and (.leaf 0 "a=1") (.leaf 1 "b>2")) (.leaf 3 "c~[p,q]"),by decide,rfl⟩
  · have counted : surplus (Token.ofWords ["a=1","b=2","and"]) = 1 := by decide
    obtain ⟨fault,blamed,failed⟩ :=
      (evaluate_first_fault .keyValue (Token.ofWords ["a=1","b=2","and","or","c","("]) rfl).2.2.1
        (Token.ofWords ["a=1","b=2","and"]) ⟨3,.connective .or⟩ [⟨4,.leaf "c"⟩,⟨5,.opener .round⟩]
        (by decide) (steps_act.mp ⟨_,rfl⟩) (show ¬ 2 ≤ surplus _ by rw [counted]; decide)
    cases blamed with
    | connective available same few =>
      obtain rfl : available = 1 := by omega
      exact failed
  · obtain ⟨fault,blamed,failed⟩ :=
      (evaluate_first_fault (.valueOnly ["f"]) (Token.ofWords ["a==1",")","and"]) rfl).2.2.1
        (Token.ofWords ["a==1"]) ⟨1,.closer .round⟩ [⟨2,.connective .and⟩] (by decide) (steps_act.mp ⟨_,rfl⟩) id
    cases blamed
    exact failed

end FilterQuery
