import FilterQuery.Proofs.Numbering
import FilterQuery.Proofs.Outcome
import FilterQuery.Token

namespace FilterQuery
open Outcome

namespace Grouping

-- What one token does to the openers that are not yet closed.
def meet (held : List (Nat × Family)) (token : Token) : Except Misplaced (List (Nat × Family)) :=
  match token.lexeme,held with
  | .opener family,held => .ok ((token.position,family) :: held)
  | .closer closer,[] => .error ⟨token.position,.unopened closer⟩
  | .closer closer,(openedAt,opener) :: held =>
    if opener = closer then .ok held else .error ⟨token.position,.mismatched opener openedAt closer⟩
  | .connective _,held | .leaf _,held => .ok held

theorem checkFrom_cons (held : List (Nat × Family)) (token : Token) (rest : List Token) :
    checkFrom held (token :: rest) = meet held token >>= fun after => checkFrom after rest := by
  obtain ⟨position,lexeme⟩ := token
  cases lexeme with
  | opener | connective | leaf => simp [checkFrom,meet]
  | closer family =>
    cases held with
    | nil => rfl
    | cons opener held =>
      by_cases same : opener.2 = family
      · simp [checkFrom,meet,same]
      · simp [checkFrom,meet,same]

theorem meet_cases {held after : List (Nat × Family)} {token : Token} (met : meet held token = .ok after) :
    (token.lexeme.isBracket = false ∧ after = held) ∨
    (∃ position family, token = ⟨position,.opener family⟩ ∧ after = (position,family) :: held) ∨
    ∃ position openedAt family, token = ⟨position,.closer family⟩ ∧ held = (openedAt,family) :: after := by
  obtain ⟨position,lexeme⟩ := token
  cases lexeme with
  | connective | leaf => cases met; exact .inl ⟨rfl,rfl⟩
  | opener family => cases met; exact .inr (.inl ⟨position,family,rfl,rfl⟩)
  | closer family =>
    cases held with
    | nil => cases met
    | cons opener held =>
      simp only [meet] at met
      split at met
      · rename_i same
        cases met
        subst same
        exact .inr (.inr ⟨position,opener.1,opener.2,rfl,rfl⟩)
      · cases met

theorem meet_fault {held : List (Nat × Family)} {token : Token} {misplaced : Misplaced}
    (met : meet held token = .error misplaced) : ∃ family, token = ⟨misplaced.position,.closer family⟩ := by
  obtain ⟨position,lexeme⟩ := token
  cases lexeme with
  | opener | connective | leaf => cases met
  | closer family =>
    cases held with
    | nil => cases met; exact ⟨family,rfl⟩
    | cons opener held =>
      simp only [meet] at met
      split at met
      · cases met
      · cases met; exact ⟨family,rfl⟩

-- The openers that are open behind a stretch of tokens, the innermost first.
def opened (held : List (Nat × Family)) (tokens : List Token) : Except Misplaced (List (Nat × Family)) :=
  tokens.foldlM meet held

theorem opened_append (held : List (Nat × Family)) (before after : List Token) :
    opened held (before ++ after) = opened held before >>= fun between => opened between after :=
  List.foldlM_append

theorem checkFrom_opened (held : List (Nat × Family)) (before after : List Token) :
    checkFrom held (before ++ after) = opened held before >>= fun between => checkFrom between after := by
  induction before generalizing held with
  | nil => rfl
  | cons token rest ih =>
    rw [List.cons_append,checkFrom_cons,opened,List.foldlM_cons]
    cases meet held token with
    | ok between => exact ih between
    | error misplaced => rfl

end Grouping

-- Another place, and another family if it is a bracket; nothing else.
inductive Token.Renamed : Token → Token → Prop where
  | opener (position place : Nat) (family other : Family) : Renamed ⟨position,.opener family⟩ ⟨place,.opener other⟩
  | closer (position place : Nat) (family other : Family) : Renamed ⟨position,.closer family⟩ ⟨place,.closer other⟩
  | connective (position place : Nat) (op : Connective) : Renamed ⟨position,.connective op⟩ ⟨place,.connective op⟩
  | leaf (position place : Nat) (text : String) : Renamed ⟨position,.leaf text⟩ ⟨place,.leaf text⟩

theorem Token.Renamed.opens {token other : Token} (renamed : Renamed token other) :
    other.lexeme.isOpener = token.lexeme.isOpener := by
  cases renamed with
  | opener | closer | connective | leaf => rfl

namespace Postfix

-- What one token gives away, and what is held behind it.
def release (held : List Token) (token : Token) : List Token :=
  match token.lexeme with
  | .leaf _ => [token]
  | .opener _ | .connective _ => []
  | .closer _ => held.takeWhile (!·.lexeme.isOpener)

def keep (held : List Token) (token : Token) : List Token :=
  match token.lexeme with
  | .leaf _ => held
  | .opener _ | .connective _ => token :: held
  | .closer _ => (held.dropWhile (!·.lexeme.isOpener)).drop 1

theorem orderFrom_cons (held : List Token) (token : Token) (rest : List Token) :
    orderFrom held (token :: rest) = release held token ++ orderFrom (keep held token) rest := by
  obtain ⟨position,lexeme⟩ := token
  cases lexeme with
  | opener | closer | connective | leaf => rfl

section
variable {change : Token → Token} (renames : ∀ token, Token.Renamed token (change token))
include renames

theorem waits_renamed :
    (fun token : Token => !token.lexeme.isOpener) ∘ change = fun token => !token.lexeme.isOpener :=
  funext fun token => congrArg (!·) (renames token).opens

theorem step_renamed (held : List Token) (token : Token) :
    release (held.map change) (change token) = (release held token).map change ∧
    keep (held.map change) (change token) = (keep held token).map change := by
  have renamed := renames token
  generalize same : change token = other at renamed ⊢
  cases renamed with
  | opener | connective => exact ⟨rfl,congrArg (· :: held.map change) same.symm⟩
  | leaf => exact ⟨congrArg ([·]) same.symm,rfl⟩
  | closer =>
    simp only [release,keep]
    rw [List.takeWhile_map,List.dropWhile_map,List.map_drop,waits_renamed renames]
    exact ⟨rfl,rfl⟩

theorem orderFrom_renamed (held tokens : List Token) :
    orderFrom (held.map change) (tokens.map change) = (orderFrom held tokens).map change := by
  induction tokens generalizing held with
  | nil => rw [List.map_nil,orderFrom,orderFrom,List.filter_map,waits_renamed renames]
  | cons token rest ih =>
    obtain ⟨released,kept⟩ := step_renamed renames held token
    rw [List.map_cons,orderFrom_cons,orderFrom_cons,released,kept,ih,List.map_append]

end

theorem release_mem {held : List Token} {token found : Token} (member : found ∈ release held token) :
    (found = token ∧ token.lexeme.isBracket = false) ∨ (found ∈ held ∧ found.lexeme.isOpener = false) := by
  obtain ⟨position,lexeme⟩ := token
  cases lexeme with
  | opener family => cases member
  | connective op => cases member
  | leaf text => exact .inl ⟨List.mem_singleton.mp member,rfl⟩
  | closer family =>
    have waited := List.all_eq_true.mp List.all_takeWhile found member
    exact .inr ⟨(List.takeWhile_sublist _).subset member,by simpa using waited⟩

theorem keep_mem {held : List Token} {token found : Token} (member : found ∈ keep held token) :
    found ∈ held ∨ (found = token ∧ Token.leaf? token = none ∧
      (token.lexeme.isOpener = false → token.lexeme.isBracket = false)) := by
  obtain ⟨position,lexeme⟩ := token
  cases lexeme with
  | leaf text => exact .inl member
  | closer family => exact .inl ((List.dropWhile_sublist _).subset (List.mem_of_mem_drop member))
  | opener family =>
    rcases List.mem_cons.mp member with here | before
    · exact .inr ⟨here,rfl,fun quiet => nomatch quiet⟩
    · exact .inl before
  | connective op =>
    rcases List.mem_cons.mp member with here | before
    · exact .inr ⟨here,rfl,fun _ => rfl⟩
    · exact .inl before

theorem keep_leafless {held : List Token} (token : Token) (leafless : ∀ token ∈ held, Token.leaf? token = none) :
    ∀ found ∈ keep held token, Token.leaf? found = none := by
  intro found member
  rcases keep_mem member with before | ⟨rfl,quiet,_⟩
  · exact leafless found before
  · exact quiet

theorem release_leaves {held : List Token} (token : Token) (leafless : ∀ token ∈ held, Token.leaf? token = none) :
    Token.leaves (release held token) = (Token.leaf? token).toList := by
  obtain ⟨position,lexeme⟩ := token
  cases lexeme with
  | opener | connective | leaf => rfl
  | closer family =>
    apply List.filterMap_eq_nil_iff.mpr
    exact fun found member => leafless found ((List.takeWhile_sublist _).subset member)

-- What a stretch of tokens gives away while it is read, and what it leaves held.
def passed (held : List Token) : List Token → List Token
  | [] => []
  | token :: rest => release held token ++ passed (keep held token) rest

def waiting (held : List Token) : List Token → List Token
  | [] => held
  | token :: rest => waiting (keep held token) rest

theorem orderFrom_append (held before after : List Token) :
    orderFrom held (before ++ after) = passed held before ++ orderFrom (waiting held before) after := by
  induction before generalizing held with
  | nil => rfl
  | cons token rest ih => rw [List.cons_append,orderFrom_cons,ih,passed,waiting,List.append_assoc]

theorem leaves_passed {held : List Token} (tokens : List Token) (leafless : ∀ token ∈ held, Token.leaf? token = none) :
    Token.leaves (passed held tokens) = Token.leaves tokens := by
  induction tokens generalizing held with
  | nil => rfl
  | cons token rest ih =>
    have later := ih (keep_leafless token leafless)
    rw [passed,Token.leaves_append,release_leaves token leafless,later,Token.leaves_cons]

theorem waiting_leafless {held : List Token} (tokens : List Token)
    (leafless : ∀ token ∈ held, Token.leaf? token = none) : ∀ token ∈ waiting held tokens, Token.leaf? token = none := by
  induction tokens generalizing held with
  | nil => exact leafless
  | cons token rest ih => exact ih (keep_leafless token leafless)

theorem order_leaves (tokens : List Token) : Token.leaves (order tokens) = Token.leaves tokens := by
  have ended := waiting_leafless tokens (List.forall_mem_nil _)
  have none_left : Token.leaves (orderFrom (waiting [] tokens) []) = [] := by
    apply List.filterMap_eq_nil_iff.mpr
    exact fun token member => ended token ((List.mem_filter.mp member).1)
  have whole := orderFrom_append [] tokens []
  rw [List.append_nil] at whole
  rw [order,whole,Token.leaves_append,leaves_passed tokens (List.forall_mem_nil _),none_left,List.append_nil]

-- Only openers are brackets among what is held.
abbrev Quiet (held : List Token) : Prop :=
  ∀ token ∈ held, token.lexeme.isOpener = false → token.lexeme.isBracket = false

theorem keep_quiet {held : List Token} (token : Token) (quiet : Quiet held) : Quiet (keep held token) := by
  intro found member
  rcases keep_mem member with before | ⟨rfl,_,bare⟩
  · exact quiet found before
  · exact bare

theorem closer_releases {held : List Token} (quiet : Quiet held) :
    held.takeWhile (!·.lexeme.isOpener) ++
      ((held.dropWhile (!·.lexeme.isOpener)).drop 1).filter (!·.lexeme.isBracket) =
        held.filter (!·.lexeme.isBracket) := by
  induction held with
  | nil => rfl
  | cons token rest ih =>
    obtain ⟨here,later⟩ := List.forall_mem_cons.mp quiet
    cases opens : token.lexeme.isOpener with
    | true => simp [opens,Lexeme.opener_bracket opens]
    | false => simpa [opens,here opens] using ih later

theorem step_perm {held : List Token} (token : Token) (quiet : Quiet held) :
    (release held token ++ (keep held token).filter (!·.lexeme.isBracket)).Perm
      (held.filter (!·.lexeme.isBracket) ++ [token].filter (!·.lexeme.isBracket)) := by
  obtain ⟨position,lexeme⟩ := token
  cases lexeme with
  | leaf text => exact List.perm_append_comm
  | opener family => exact .of_eq (List.append_nil _).symm
  | connective op => exact (List.perm_append_singleton _ _).symm
  | closer family => exact .of_eq ((closer_releases quiet).trans (List.append_nil _).symm)

theorem orderFrom_perm {held : List Token} (tokens : List Token) (quiet : Quiet held) :
    (orderFrom held tokens).Perm
      (held.filter (!·.lexeme.isBracket) ++ tokens.filter (!·.lexeme.isBracket)) := by
  induction tokens generalizing held with
  | nil =>
    rw [orderFrom,List.filter_nil,List.append_nil]
    refine .of_eq (List.filter_congr ?_)
    intro token member
    cases opens : token.lexeme.isOpener with
    | true => rw [Lexeme.opener_bracket opens]
    | false => rw [quiet token member opens]
  | cons token rest ih =>
    have later := (ih (keep_quiet token quiet)).append_left (release held token)
    have here := (step_perm token quiet).append_right (rest.filter (!·.lexeme.isBracket))
    have parts : (token :: rest).filter (!·.lexeme.isBracket) =
        [token].filter (!·.lexeme.isBracket) ++ rest.filter (!·.lexeme.isBracket) := List.filter_append [token] rest
    rw [← List.append_assoc] at later
    rw [orderFrom_cons,parts,← List.append_assoc]
    exact later.trans here

theorem order_perm (tokens : List Token) : (order tokens).Perm (tokens.filter (!·.lexeme.isBracket)) :=
  orderFrom_perm tokens (List.forall_mem_nil _)

theorem order_connectives (tokens : List Token) :
    (Token.connectives (order tokens)).Perm (Token.connectives tokens) := by
  have moved := (order_perm tokens).filterMap Token.connective?
  rw [← Token.connectives_unbracketed tokens]
  exact moved

theorem order_unbracketed (tokens : List Token) : ∀ token ∈ order tokens, token.lexeme.isBracket = false := by
  intro token member
  have kept := List.mem_filter.mp ((order_perm tokens).subset member)
  simpa using kept.2

end Postfix
end FilterQuery
