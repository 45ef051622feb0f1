import FilterQuery.Compile
import FilterQuery.Proofs.Depth
import FilterQuery.Proofs.Forest
import FilterQuery.Proofs.Stacks

namespace FilterQuery
open Outcome

-- Places only name tokens: moving every token to another place moves the places
-- in the answer, and nothing else of it.
variable (place : Nat → Nat)

def Token.moved (token : Token) : Token := {token with position := place token.position}

def Grouping.Fault.moved : Grouping.Fault → Grouping.Fault
  | .mismatched opener openedAt closer => .mismatched opener (place openedAt) closer
  | fault => fault

def Grouping.Misplaced.moved (misplaced : Grouping.Misplaced) : Grouping.Misplaced :=
  ⟨place misplaced.position,misplaced.fault.moved place⟩

def CompileError.moved : CompileError → CompileError
  | .grouping misplaced => .grouping (misplaced.moved place)
  | .stray position bracket => .stray (place position) bracket
  | .expression position leaf fault => .expression (place position) leaf fault
  | .underflow position op available => .underflow (place position) op available
  | .incomplete remaining => .incomplete remaining
  | .noFields => .noFields

theorem Grouping.meet_moved (held : List (Nat × Family)) (token : Token) :
    meet (held.map fun opener => (place opener.1,opener.2)) (token.moved place) =
      ((meet held token).map fun after => after.map fun opener => (place opener.1,opener.2)).mapError
        (Misplaced.moved place) := by
  obtain ⟨position,lexeme⟩ := token
  cases lexeme with
  | opener | connective | leaf => rfl
  | closer family =>
    cases held with
    | nil => rfl
    | cons opener held =>
      by_cases same : opener.2 = family
      · simp [meet,Token.moved,same,Except.map]
      · simp [meet,Token.moved,same,Except.map,Misplaced.moved,Fault.moved]

theorem Grouping.checkFrom_moved (held : List (Nat × Family)) (tokens : List Token) :
    checkFrom (held.map fun opener => (place opener.1,opener.2)) (tokens.map (Token.moved place)) =
      (checkFrom held tokens).mapError (Misplaced.moved place) := by
  induction tokens generalizing held with
  | nil =>
    cases held with
    | nil => rfl
    | cons opener held => rfl
  | cons token rest ih =>
    rw [List.map_cons,checkFrom_cons,checkFrom_cons,meet_moved]
    cases meet held token with
    | ok after => exact ih after
    | error misplaced => rfl

theorem Token.moved_renamed (token : Token) : Renamed token (token.moved place) := by
  obtain ⟨position,lexeme⟩ := token
  cases lexeme with
  | opener family => exact .opener position (place position) family family
  | closer family => exact .closer position (place position) family family
  | connective op => exact .connective position (place position) op
  | leaf text => exact .leaf position (place position) text

theorem Postfix.order_moved (tokens : List Token) :
    order (tokens.map (Token.moved place)) = (order tokens).map (Token.moved place) :=
  orderFrom_renamed (Token.moved_renamed place) [] tokens

namespace Evaluate

theorem step_moved (reading : Reading) (made : List Query) (token : Token) :
    step reading made (token.moved place) = (step reading made token).mapError (CompileError.moved place) := by
  obtain ⟨position,lexeme⟩ := token
  cases lexeme with
  | leaf text =>
    simp only [step,Token.moved]
    cases reading.leaf text with
    | ok query => rfl
    | error fault => rfl
  | connective op => rcases made with _ | ⟨right,_ | ⟨left,below⟩⟩ <;> rfl
  | opener family => rfl
  | closer family => rfl

theorem runFrom_moved (reading : Reading) (made : List Query) (tokens : List Token) :
    runFrom reading made (tokens.map (Token.moved place)) =
      (runFrom reading made tokens).mapError (CompileError.moved place) := by
  induction tokens generalizing made with
  | nil => rcases made with _ | ⟨query,_ | ⟨other,below⟩⟩ <;> rfl
  | cons token rest ih =>
    simp only [List.map_cons,runFrom,step_moved]
    cases step reading made token with
    | ok next => exact ih next
    | error fault => rfl

end Evaluate

theorem compile_moved (reading : Reading) (tokens : List Token) :
    compile reading (tokens.map (Token.moved place)) =
      (compile reading tokens).mapError (CompileError.moved place) := by
  unfold compile
  split
  · rename_i fields
    have checked : Grouping.check (tokens.map (Token.moved place)) =
        (Grouping.check tokens).mapError (Grouping.Misplaced.moved place) := Grouping.checkFrom_moved place [] tokens
    rw [checked]
    cases Grouping.check tokens with
    | error misplaced => rfl
    | ok _ =>
      simp only [mapError_ok,Postfix.order_moved,evaluate,fields,if_true]
      exact Evaluate.runFrom_moved place reading [] (Postfix.order tokens)
  · rfl

-- The tokens of a filter with no account of where they stand.
def Token.unplaced (words : List String) : List Token := words.map fun word => ⟨0,Lexeme.ofText word⟩

theorem Token.unplaced_append (first second : List String) :
    unplaced (first ++ second) = unplaced first ++ unplaced second :=
  List.map_append

theorem Token.moved_lexemes (tokens : List Token) :
    tokens.map (moved fun _ => 0) = (tokens.map lexeme).map (mk 0) := by
  rw [List.map_map]
  rfl

theorem Token.numbered_unplaced (start : Nat) (words : List String) :
    (numbered start (words.map Lexeme.ofText)).map (moved fun _ => 0) = unplaced words := by
  rw [moved_lexemes,numbered_lexemes,List.map_map]
  rfl

theorem Token.leaves_moved (tokens : List Token) :
    (leaves (tokens.map (moved place))).map Prod.snd = (leaves tokens).map Prod.snd := by
  induction tokens with
  | nil => rfl
  | cons token rest ih =>
    obtain ⟨position,lexeme⟩ := token
    simp only [List.map_cons,leaves_cons,List.map_append,ih]
    cases lexeme with
    | opener | closer | connective | leaf => rfl

theorem Token.unplaced_leaves (words : List String) : (leaves (unplaced words)).map Prod.snd = leafWords words := by
  rw [← numbered_unplaced 0,leaves_moved,leaves_words]

theorem compile_lexemes (reading : Reading) {tokens others : List Token} (query : Query)
    (same : tokens.map Token.lexeme = others.map Token.lexeme) :
    compile reading tokens = .ok query ↔ compile reading others = .ok query := by
  have unplaced : tokens.map (Token.moved fun _ => 0) = others.map (Token.moved fun _ => 0) := by
    rw [Token.moved_lexemes,Token.moved_lexemes,same]
  rw [← mapError_exact (CompileError.moved fun _ => 0),← compile_moved,unplaced,compile_moved,mapError_exact]

theorem compile_unplaced (reading : Reading) (words : List String) (query : Query) :
    compile reading (Token.unplaced words) = .ok query ↔ compileWords reading words = .ok query := by
  refine compile_lexemes reading query ?_
  rw [Token.ofWords_numbered,Token.numbered_lexemes,Token.unplaced,List.map_map]
  rfl

-- What may stand in a row: a leaf, a connective, or a group that holds a row of
-- its own.
inductive Item where
  | leaf (position : Nat) (text : String)
  | connective (position : Nat) (op : Connective)
  | group (family : Family) (openedAt closedAt : Nat) (row : List Item)

namespace Item

mutual
def tokens : Item → List Token
  | leaf position text => [⟨position,.leaf text⟩]
  | connective position op => [⟨position,.connective op⟩]
  | group family openedAt closedAt row =>
    ⟨openedAt,.opener family⟩ :: (tokensAll row ++ [⟨closedAt,.closer family⟩])
def tokensAll : List Item → List Token
  | [] => []
  | first :: rest => first.tokens ++ tokensAll rest
end

def connective? : Item → Option Token
  | connective position op => some ⟨position,.connective op⟩
  | leaf .. | group .. => none

-- What an item gives where it stands: a leaf itself, a group all that its row
-- gives, and a connective nothing yet.
mutual
def settled : Item → List Token
  | leaf position text => [⟨position,.leaf text⟩]
  | connective .. => []
  | group _ _ _ row => settledAll row ++ (row.filterMap connective?).reverse
def settledAll : List Item → List Token
  | [] => []
  | first :: rest => first.settled ++ settledAll rest
end

-- A row gives its leaves and groups in order, and behind them the connectives
-- that stand in it directly, the latest first.
def ordered (row : List Item) : List Token := settledAll row ++ (row.filterMap connective?).reverse

theorem settled_group (family : Family) (openedAt closedAt : Nat) (row : List Item) :
    (group family openedAt closedAt row).settled = ordered row := by
  rw [settled,ordered]

-- Tokens are put together to a row from the right. A closer begins the row of
-- its group and leaves the row behind it waiting for the opener.
def absorb (token : Token) : List Item × List (Nat × List Item) → List Item × List (Nat × List Item)
  | (row,outer) =>
    match token.lexeme,outer with
    | .leaf text,outer => (.leaf token.position text :: row,outer)
    | .connective op,outer => (.connective token.position op :: row,outer)
    | .closer _,outer => ([],(token.position,row) :: outer)
    | .opener family,(closedAt,behind) :: outer => (.group family token.position closedAt row :: behind,outer)
    | .opener _,[] => (row,[])

mutual
theorem absorb_tokens : (item : Item) → (row : List Item) → (outer : List (Nat × List Item)) →
    item.tokens.foldr absorb (row,outer) = (item :: row,outer)
  | leaf position text,row,outer => rfl
  | connective position op,row,outer => rfl
  | group family openedAt closedAt inside,row,outer => by
    have within := absorb_tokensAll inside [] ((closedAt,row) :: outer)
    simp only [tokens,List.foldr_cons,List.foldr_append,List.foldr_nil,absorb,within,List.append_nil]
theorem absorb_tokensAll : (items row : List Item) → (outer : List (Nat × List Item)) →
    (tokensAll items).foldr absorb (row,outer) = (items ++ row,outer)
  | [],row,outer => rfl
  | first :: rest,row,outer => by
    rw [tokensAll,List.foldr_append,absorb_tokensAll rest row outer,absorb_tokens first,List.cons_append]
end

theorem tokensAll_inj {row other : List Item} (same : tokensAll row = tokensAll other) : row = other := by
  have back := congrArg (fun tokens => (tokens.foldr absorb ([],[])).1) same
  simpa only [absorb_tokensAll,List.append_nil] using back

end Item

namespace Forest

def items : Forest → List Item
  | empty => []
  | leaf position text rest => .leaf position text :: rest.items
  | connective position op rest => .connective position op :: rest.items
  | group family openedAt closedAt inside rest => .group family openedAt closedAt inside.items :: rest.items

theorem items_tokens (forest : Forest) : Item.tokensAll forest.items = forest.tokens := by
  induction forest with
  | empty => rfl
  | leaf position text rest ih => simp [items,Item.tokensAll,Item.tokens,tokens,ih]
  | connective position op rest ih => simp [items,Item.tokensAll,Item.tokens,tokens,ih]
  | group family openedAt closedAt inside rest insideIh restIh =>
    simp [items,Item.tokensAll,Item.tokens,tokens,insideIh,restIh]

theorem items_direct (forest : Forest) : (forest.items.filterMap Item.connective?).reverse = forest.direct := by
  induction forest with
  | empty => rfl
  | leaf position text rest ih => exact ih
  | connective position op rest ih => simp [items,Item.connective?,direct,← ih]
  | group family openedAt closedAt inside rest insideIh restIh => exact restIh

theorem items_settled (forest : Forest) : Item.settledAll forest.items = forest.settled := by
  induction forest with
  | empty => rfl
  | leaf position text rest ih => simp [items,Item.settledAll,Item.settled,settled,ih]
  | connective position op rest ih => simp [items,Item.settledAll,Item.settled,settled,ih]
  | group family openedAt closedAt inside rest insideIh restIh =>
    simp only [items,Item.settledAll,Item.settled_group,Item.ordered,settled,insideIh,restIh,items_direct]

theorem order_items (forest : Forest) : Postfix.order forest.tokens = Item.ordered forest.items := by
  rw [order_tokens,Item.ordered,items_settled,items_direct]

mutual
theorem items_cons : (item : Item) → (rest : Forest) → ∃ forest : Forest, forest.items = item :: rest.items
  | .leaf position text,rest => ⟨.leaf position text rest,rfl⟩
  | .connective position op,rest => ⟨.connective position op rest,rfl⟩
  | .group family openedAt closedAt row,rest => by
    obtain ⟨inside,same⟩ := items_row row
    exact ⟨.group family openedAt closedAt inside rest,by rw [items,same]⟩
theorem items_row : (row : List Item) → ∃ forest : Forest, forest.items = row
  | [] => ⟨.empty,rfl⟩
  | first :: rest => by
    obtain ⟨after,same⟩ := items_row rest
    rw [← same]
    exact items_cons first after
end

end Forest

theorem order_row (tokens : List Token) : Grouping.check tokens = .ok () ↔
    ∃ row, (∀ other, Item.tokensAll other = tokens ↔ other = row) ∧
      Postfix.order tokens = Item.ordered row ∧
      (Postfix.order tokens).Perm (tokens.filter (!·.lexeme.isBracket)) := by
  constructor
  · intro balanced
    obtain ⟨forest,written⟩ := (Forest.check_forest tokens).mp balanced
    refine ⟨forest.items,?_,?_,Postfix.order_perm tokens⟩
    · intro other
      rw [← written,← forest.items_tokens]
      exact ⟨Item.tokensAll_inj,congrArg Item.tokensAll⟩
    · rw [← written,forest.order_items]
  · intro ordered
    obtain ⟨row,unique,_⟩ := ordered
    obtain ⟨forest,same⟩ := Forest.items_row row
    apply (Forest.check_forest tokens).mpr
    refine ⟨forest,?_⟩
    rw [← forest.items_tokens,same]
    exact (unique row).mpr rfl

example : Item.ordered [.leaf 0 "a",.connective 1 .and,
      .group .round 2 6 [.leaf 3 "b",.connective 4 .or,.connective 5 .and],.leaf 7 "c",.connective 8 .or] =
    [⟨0,.leaf "a"⟩,⟨3,.leaf "b"⟩,⟨5,.connective .and⟩,⟨4,.connective .or⟩,⟨7,.leaf "c"⟩,⟨8,.connective .or⟩,
      ⟨1,.connective .and⟩] := rfl

end FilterQuery
