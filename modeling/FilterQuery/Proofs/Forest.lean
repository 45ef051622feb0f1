import FilterQuery.Compile
import FilterQuery.Proofs.Stacks

namespace FilterQuery

-- A balanced stretch of tokens, read as a row of leaves, connectives and groups.
-- Each of them carries the row that follows it, and a group the row inside it.
inductive Forest where
  | empty
  | leaf (position : Nat) (text : String) (rest : Forest)
  | connective (position : Nat) (op : Connective) (rest : Forest)
  | group (family : Family) (openedAt closedAt : Nat) (inside rest : Forest)
  deriving DecidableEq,Repr

namespace Forest

def tokens : Forest → List Token
  | empty => []
  | leaf position text rest => ⟨position,.leaf text⟩ :: rest.tokens
  | connective position op rest => ⟨position,.connective op⟩ :: rest.tokens
  | group family openedAt closedAt inside rest =>
    ⟨openedAt,.opener family⟩ :: (inside.tokens ++ ⟨closedAt,.closer family⟩ :: rest.tokens)

-- The connectives that stand in the row itself and in none of its groups, the
-- latest first.
def direct : Forest → List Token
  | empty => []
  | leaf _ _ rest => rest.direct
  | connective position op rest => rest.direct ++ [⟨position,.connective op⟩]
  | group _ _ _ _ rest => rest.direct

-- What a row gives away before it ends: leaves at once, and each group when it
-- is closed, its own connectives after all that it gave away before.
def settled : Forest → List Token
  | empty => []
  | leaf position text rest => ⟨position,.leaf text⟩ :: rest.settled
  | connective _ _ rest => rest.settled
  | group _ _ _ inside rest => inside.settled ++ inside.direct ++ rest.settled

theorem checkFrom_tokens (forest : Forest) (held : List (Nat × Family)) (after : List Token) :
    Grouping.checkFrom held (forest.tokens ++ after) = Grouping.checkFrom held after := by
  induction forest generalizing held after with
  | empty => rfl
  | leaf position text rest ih => simpa [tokens,Grouping.checkFrom] using ih held after
  | connective position op rest ih => simpa [tokens,Grouping.checkFrom] using ih held after
  | group family openedAt closedAt inside rest insideIh restIh =>
    simp only [tokens,List.cons_append,List.append_assoc,Grouping.checkFrom]
    rw [insideIh]
    simp only [Grouping.checkFrom,if_true]
    exact restIh held after

-- Tokens that close all the openers held and leave none open: a row, then the
-- closer of the innermost opener, then the same for the openers around it.
inductive Completes : List (Nat × Family) → List Token → Prop where
  | row (forest : Forest) : Completes [] forest.tokens
  | close (opener : Nat × Family) (forest : Forest) (closedAt : Nat) (after : Completes held rest) :
      Completes (opener :: held) (forest.tokens ++ ⟨closedAt,.closer opener.2⟩ :: rest)

theorem completes_leaf (after : Completes held rest) : Completes held (⟨position,.leaf text⟩ :: rest) := by
  cases after with
  | row forest => exact .row (forest.leaf position text)
  | close opener forest closedAt after => exact .close opener (.leaf position text forest) closedAt after

theorem completes_connective (after : Completes held rest) :
    Completes held (⟨position,.connective op⟩ :: rest) := by
  cases after with
  | row forest => exact .row (forest.connective position op)
  | close opener forest closedAt after => exact .close opener (.connective position op forest) closedAt after

theorem completes_bare {token : Token} (bare : token.lexeme.isBracket = false) (after : Completes held rest) :
    Completes held (token :: rest) := by
  obtain ⟨position,lexeme⟩ := token
  cases lexeme with
  | leaf text => exact completes_leaf after
  | connective op => exact completes_connective after
  | opener | closer => cases bare

theorem completes_opener (after : Completes ((openedAt,family) :: held) rest) :
    Completes held (⟨openedAt,.opener family⟩ :: rest) := by
  cases after with
  | close _ inside closedAt after =>
    cases after with
    | row forest => exact .row (.group family openedAt closedAt inside forest)
    | close outer forest later after =>
      have whole := Completes.close outer (.group family openedAt closedAt inside forest) later after
      simpa only [tokens,List.cons_append,List.append_assoc] using whole

theorem checkFrom_completes (held : List (Nat × Family)) (tokens : List Token)
    (checked : Grouping.checkFrom held tokens = .ok ()) : Completes held tokens := by
  induction tokens generalizing held with
  | nil =>
    cases held with
    | nil => exact .row .empty
    | cons opener held => cases checked
  | cons token rest ih =>
    rw [Grouping.checkFrom_cons] at checked
    obtain ⟨after,met,later⟩ := (Outcome.bind_ok _).mp checked
    rcases Grouping.meet_cases met with
      ⟨bare,rfl⟩ | ⟨position,family,rfl,rfl⟩ | ⟨position,openedAt,family,rfl,rfl⟩
    · exact completes_bare bare (ih after later)
    · exact completes_opener (ih _ later)
    · exact .close (openedAt,family) .empty position (ih after later)

theorem check_forest (tokens : List Token) :
    Grouping.check tokens = .ok () ↔ ∃ forest : Forest, forest.tokens = tokens := by
  constructor
  · intro checked
    cases checkFrom_completes [] tokens checked with
    | row forest => exact ⟨forest,rfl⟩
  · rintro ⟨forest,rfl⟩
    simpa [Grouping.check,Grouping.checkFrom] using forest.checkFrom_tokens [] []

theorem balanced_forest (tokens : List Token) :
    Grouping.balanced tokens = true ↔ ∃ forest : Forest, forest.tokens = tokens := by
  rw [← check_forest,Grouping.balanced]
  cases Grouping.check tokens with
  | ok value => simp [Except.isOk,Except.toBool]
  | error misplaced => simp [Except.isOk,Except.toBool]

theorem direct_connectives (forest : Forest) (token : Token) (member : token ∈ forest.direct) :
    ∃ position op, token = ⟨position,.connective op⟩ := by
  induction forest with
  | empty => cases member
  | leaf position text rest ih => exact ih member
  | connective position op rest ih =>
    rcases List.mem_append.mp member with earlier | last
    · exact ih earlier
    · exact ⟨position,op,List.mem_singleton.mp last⟩
  | group family openedAt closedAt inside rest insideIh restIh => exact restIh member

theorem direct_waits (forest : Forest) (token : Token) (member : token ∈ forest.direct) :
    (!token.lexeme.isOpener) = true := by
  obtain ⟨position,op,rfl⟩ := forest.direct_connectives token member
  rfl

theorem orderFrom_tokens (forest : Forest) (held after : List Token) :
    Postfix.orderFrom held (forest.tokens ++ after) =
      forest.settled ++ Postfix.orderFrom (forest.direct ++ held) after := by
  induction forest generalizing held after with
  | empty => rfl
  | leaf position text rest ih => simp [tokens,settled,direct,Postfix.orderFrom,ih]
  | connective position op rest ih => simp [tokens,settled,direct,Postfix.orderFrom,ih]
  | group family openedAt closedAt inside rest insideIh restIh =>
    simp only [tokens,settled,direct,List.cons_append,List.append_assoc,Postfix.orderFrom]
    rw [insideIh]
    -- The opener stops the closer, so of what waits the row's own connectives come out.
    simp only [Postfix.orderFrom]
    rw [List.takeWhile_append_of_pos inside.direct_waits,List.dropWhile_append_of_pos inside.direct_waits]
    simp [Lexeme.isOpener,restIh]

theorem order_tokens (forest : Forest) : Postfix.order forest.tokens = forest.settled ++ forest.direct := by
  have ordered := forest.orderFrom_tokens [] []
  simpa [Postfix.order,Postfix.orderFrom,List.filter_eq_self.mpr forest.direct_waits] using ordered

theorem compile_tokens (reading : Reading) (forest : Forest) (fields : reading.hasFields = true) :
    compile reading forest.tokens = evaluate reading (forest.settled ++ forest.direct) := by
  have balanced := (check_forest forest.tokens).mpr ⟨forest,rfl⟩
  rw [compile,if_pos fields,balanced,← order_tokens]

theorem direct_leaves (forest : Forest) : Token.leaves forest.direct = [] := by
  apply List.filterMap_eq_nil_iff.mpr
  intro token member
  obtain ⟨position,op,rfl⟩ := forest.direct_connectives token member
  rfl

theorem settled_leaves (forest : Forest) : Token.leaves forest.settled = Token.leaves forest.tokens := by
  have ordered := Postfix.order_leaves forest.tokens
  rwa [order_tokens,Token.leaves_append,direct_leaves,List.append_nil] at ordered

theorem settled_connectives (forest : Forest) :
    (Token.connectives (forest.settled ++ forest.direct)).Perm (Token.connectives forest.tokens) := by
  rw [← order_tokens]
  exact Postfix.order_connectives forest.tokens

theorem group_tokens (family : Family) (openedAt closedAt : Nat) (inside : Forest) (after : List Token) :
    ⟨openedAt,.opener family⟩ :: (inside.tokens ++ ⟨closedAt,.closer family⟩ :: after) =
      (group family openedAt closedAt inside empty).tokens ++ after := by
  simp [tokens]

end Forest

theorem Grouping.checkFrom_row (held : List (Nat × Family)) (before : List Token) (row : Forest) (after : List Token) :
    checkFrom held (before ++ (row.tokens ++ after)) = checkFrom held (before ++ after) := by
  rw [checkFrom_opened,checkFrom_opened]
  congr 1
  funext between
  exact row.checkFrom_tokens between after

theorem Postfix.order_around (before : List Token) (row : Forest) (after : List Token) :
    order (before ++ (row.tokens ++ after)) =
      passed [] before ++ (row.settled ++ orderFrom (row.direct ++ waiting [] before) after) := by
  rw [order,orderFrom_append,row.orderFrom_tokens]

theorem Grouping.checkFrom_group (held : List (Nat × Family)) (before : List Token) (family : Family)
    (openedAt closedAt : Nat) (inside : Forest) (after : List Token) :
    checkFrom held (before ++ ⟨openedAt,.opener family⟩ :: (inside.tokens ++ ⟨closedAt,.closer family⟩ :: after)) =
      checkFrom held (before ++ after) := by
  rw [Forest.group_tokens,checkFrom_row]

theorem Postfix.order_group (before : List Token) (family : Family) (openedAt closedAt : Nat) (inside : Forest)
    (after : List Token) :
    order (before ++ ⟨openedAt,.opener family⟩ :: (inside.tokens ++ ⟨closedAt,.closer family⟩ :: after)) =
      passed [] before ++ (inside.settled ++ inside.direct ++ orderFrom (waiting [] before) after) := by
  rw [Forest.group_tokens,order_around,Forest.settled,Forest.settled,Forest.direct,Forest.direct,List.append_nil,
    List.nil_append]

end FilterQuery
