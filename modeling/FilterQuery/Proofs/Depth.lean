import Mathlib.Data.List.Forall2
import FilterQuery.Compile
import FilterQuery.Proofs.Numbering
import FilterQuery.Proofs.Outcome

namespace FilterQuery.Evaluate
open Outcome

-- The queries made by a stretch of tokens that is not the end.
def steps (reading : Reading) (made : List Query) (tokens : List Token) : Except CompileError (List Query) :=
  tokens.foldlM (step reading) made

theorem steps_nil (reading : Reading) (made : List Query) : steps reading made [] = .ok made := rfl

theorem steps_cons (reading : Reading) (made : List Query) (token : Token) (rest : List Token) :
    steps reading made (token :: rest) = step reading made token >>= fun next => steps reading next rest := rfl

theorem steps_append (reading : Reading) (made : List Query) (first second : List Token) :
    steps reading made (first ++ second) = steps reading made first >>= fun next => steps reading next second :=
  List.foldlM_append

theorem steps_fault {reading : Reading} {made : List Query} {tokens : List Token} {fault : CompileError}
    (stopped : steps reading made tokens = .error fault) :
    ∃ before token after middle, tokens = before ++ token :: after ∧
      steps reading made before = .ok middle ∧ step reading middle token = .error fault := foldlM_fault stopped

def finish : List Query → Except CompileError Query
  | [query] => .ok query
  | made => .error (.incomplete made.length)

theorem finish_ok (made : List Query) (query : Query) : finish made = .ok query ↔ made = [query] := by
  rcases made with _ | ⟨first,_ | ⟨second,below⟩⟩
  · simp [finish]
  · simp [finish]
  · simp [finish]

theorem finish_fault {made : List Query} {fault : CompileError} (stopped : finish made = .error fault) :
    made.length ≠ 1 ∧ fault = .incomplete made.length := by
  rcases made with _ | ⟨first,_ | ⟨second,below⟩⟩
  · cases stopped; exact ⟨by simp,rfl⟩
  · cases stopped
  · cases stopped; exact ⟨by simp,rfl⟩

theorem finish_alike {related : Query → Query → Prop} {made images : List Query}
    (same : List.Forall₂ related made images) : Alike Eq related (finish made) (finish images) := by
  cases same with
  | nil => exact .fault rfl
  | cons first rest =>
    cases rest with
    | nil => exact .value first
    | cons second rest =>
      refine .fault ?_
      simp only [List.length_cons,rest.length_eq]

theorem runFrom_steps (reading : Reading) (made : List Query) (tokens : List Token) :
    runFrom reading made tokens = steps reading made tokens >>= finish := by
  induction tokens generalizing made with
  | nil => rcases made with _ | ⟨query,_ | ⟨other,below⟩⟩ <;> rfl
  | cons token rest ih =>
    rw [runFrom,steps_cons]
    cases step reading made token with
    | error fault => rfl
    | ok next => exact ih next

theorem step_cases {reading : Reading} {made next : List Query} {token : Token}
    (ran : step reading made token = .ok next) :
    (∃ position text query, token = ⟨position,.leaf text⟩ ∧ reading.leaf text = .ok query ∧ next = query :: made) ∨
    (∃ position op right left below, token = ⟨position,.connective op⟩ ∧ made = right :: left :: below ∧
      next = .joined op [left,right] :: below) := by
  obtain ⟨position,lexeme⟩ := token
  cases lexeme with
  | leaf text =>
    simp only [step] at ran
    split at ran
    · rename_i query read
      cases ran
      exact .inl ⟨position,text,query,rfl,read,rfl⟩
    · cases ran
  | connective op =>
    simp only [step] at ran
    split at ran
    · rename_i right left below
      cases ran
      exact .inr ⟨position,op,right,left,below,rfl,rfl,rfl⟩
    · cases ran
  | opener family => cases ran
  | closer family => cases ran

theorem step_fault {reading : Reading} {made : List Query} {token : Token} {fault : CompileError}
    (stopped : step reading made token = .error fault) :
    (∃ position text cause, token = ⟨position,.leaf text⟩ ∧ reading.leaf text = .error cause ∧
      fault = .expression position text cause) ∨
    (∃ position op, token = ⟨position,.connective op⟩ ∧ made.length < 2 ∧
      fault = .underflow position op made.length) ∨
    (token.lexeme.isBracket = true ∧ ∃ bracket, fault = .stray token.position bracket) := by
  obtain ⟨position,lexeme⟩ := token
  cases lexeme with
  | leaf text =>
    simp only [step] at stopped
    split at stopped
    · cases stopped
    · rename_i cause unread
      cases stopped
      exact .inl ⟨position,text,cause,rfl,unread,rfl⟩
  | connective op =>
    rcases made with _ | ⟨right,_ | ⟨left,below⟩⟩
    · cases stopped
      exact .inr (.inl ⟨position,op,rfl,by simp,rfl⟩)
    · cases stopped
      exact .inr (.inl ⟨position,op,rfl,by simp,rfl⟩)
    · cases stopped
  | opener family => cases stopped; exact .inr (.inr ⟨rfl,family.opener,rfl⟩)
  | closer family => cases stopped; exact .inr (.inr ⟨rfl,family.closer,rfl⟩)

theorem step_length {reading : Reading} {made next : List Query} {token : Token}
    (ran : step reading made token = .ok next) :
    next.length + (Token.connective? token).toList.length = made.length + (Token.leaf? token).toList.length := by
  rcases step_cases ran with ⟨position,text,query,rfl,_,rfl⟩ | ⟨position,op,right,left,below,rfl,rfl,rfl⟩
  · rfl
  · rfl

theorem steps_length {reading : Reading} {made next : List Query} {tokens : List Token}
    (ran : steps reading made tokens = .ok next) :
    next.length + (Token.connectives tokens).length = made.length + (Token.leaves tokens).length := by
  induction tokens generalizing made with
  | nil => cases ran; rfl
  | cons token rest ih =>
    obtain ⟨middle,first,later⟩ := (bind_ok _).mp ran
    have head := step_length first
    have tail := ih later
    simp only [Token.connectives_cons,Token.leaves_cons,List.length_append]
    omega

theorem steps_leaf {reading : Reading} {text : String} {query : Query} (read : reading.leaf text = .ok query)
    (position : Nat) (made : List Query) (rest : List Token) :
    steps reading made (⟨position,.leaf text⟩ :: rest) = steps reading (query :: made) rest := by
  simp [steps_cons,step,read]

theorem steps_connectives (reading : Reading) (made : List Query) (waiting : List Token)
    (connectives : ∀ token ∈ waiting, ∃ position op, token = ⟨position,.connective op⟩) :
    (∃ next, steps reading made waiting = .ok next) ↔ (waiting ≠ [] → waiting.length < made.length) := by
  induction waiting generalizing made with
  | nil => exact ⟨fun _ absent => absurd rfl absent,fun _ => ⟨made,rfl⟩⟩
  | cons token rest ih =>
    obtain ⟨position,op,rfl⟩ := connectives token List.mem_cons_self
    have others := fun made => ih made fun token member => connectives token (List.mem_cons_of_mem _ member)
    rcases made with _ | ⟨right,_ | ⟨left,below⟩⟩
    · simp [steps_cons,step]
    · simp [steps_cons,step]
    · have joined := others (.joined op [left,right] :: below)
      simp only [steps_cons,step,ok_bind,joined]
      cases rest with
      | nil => simp
      | cons second rest => simp

end FilterQuery.Evaluate

namespace FilterQuery
open Outcome

variable (reading : Reading) (tokens : List Token) (fields : reading.hasFields = true)
include fields

theorem compile_unbalanced {misplaced : Grouping.Misplaced} (failed : Grouping.check tokens = .error misplaced) :
    compile reading tokens = .error (.grouping misplaced) := by
  rw [compile,if_pos fields,failed]

theorem compile_ordered (checked : Grouping.check tokens = .ok ()) :
    compile reading tokens = evaluate reading (Postfix.order tokens) := by
  rw [compile,if_pos fields,checked]

theorem evaluate_steps : evaluate reading tokens = Evaluate.steps reading [] tokens >>= Evaluate.finish := by
  rw [evaluate,if_pos fields,Evaluate.runFrom_steps]

theorem compile_runs (checked : Grouping.check tokens = .ok ()) :
    compile reading tokens = Evaluate.steps reading [] (Postfix.order tokens) >>= Evaluate.finish := by
  rw [compile_ordered reading tokens fields checked,evaluate_steps reading _ fields]

theorem evaluate_fault {fault : CompileError} (failed : evaluate reading tokens = .error fault) :
    (∃ before token after made, tokens = before ++ token :: after ∧
      Evaluate.steps reading [] before = .ok made ∧ Evaluate.step reading made token = .error fault) ∨
    ∃ made, Evaluate.steps reading [] tokens = .ok made ∧ made.length ≠ 1 ∧ fault = .incomplete made.length := by
  rw [evaluate_steps reading tokens fields] at failed
  cases ran : Evaluate.steps reading [] tokens with
  | ok made =>
    rw [ran] at failed
    obtain ⟨several,same⟩ := Evaluate.finish_fault failed
    exact .inr ⟨made,rfl,several,same⟩
  | error cause =>
    rw [ran] at failed
    cases failed
    obtain ⟨before,token,after,made,split,first,stopped⟩ := Evaluate.steps_fault ran
    exact .inl ⟨before,token,after,made,split,first,stopped⟩

theorem compile_fault {fault : CompileError} (failed : compile reading tokens = .error fault) :
    (∃ misplaced, Grouping.check tokens = .error misplaced ∧ fault = .grouping misplaced) ∨
    (∃ before token after made, Grouping.check tokens = .ok () ∧ Postfix.order tokens = before ++ token :: after ∧
      Evaluate.steps reading [] before = .ok made ∧ Evaluate.step reading made token = .error fault) ∨
    ∃ made, Grouping.check tokens = .ok () ∧ Evaluate.steps reading [] (Postfix.order tokens) = .ok made ∧
      made.length ≠ 1 ∧ fault = .incomplete made.length := by
  cases checked : Grouping.check tokens with
  | error misplaced =>
    rw [compile_unbalanced reading tokens fields checked] at failed
    cases failed
    exact .inl ⟨misplaced,rfl,rfl⟩
  | ok _ =>
    rw [compile_ordered reading tokens fields checked] at failed
    rcases evaluate_fault reading _ fields failed with ⟨before,token,after,made,found⟩ | ⟨made,left⟩
    · exact .inr (.inl ⟨before,token,after,made,rfl,found⟩)
    · exact .inr (.inr ⟨made,rfl,left⟩)

theorem compile_steps (query : Query) : compile reading tokens = .ok query ↔
    Grouping.check tokens = .ok () ∧ Evaluate.steps reading [] (Postfix.order tokens) = .ok [query] := by
  cases checked : Grouping.check tokens with
  | error misplaced => simp [compile_unbalanced reading tokens fields checked]
  | ok _ => simp [compile_runs reading tokens fields checked,bind_ok,Evaluate.finish_ok]

end FilterQuery
