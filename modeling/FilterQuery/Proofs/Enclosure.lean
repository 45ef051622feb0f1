import FilterQuery.Proofs.Forest

namespace FilterQuery
namespace Grouping

-- The bracket at `closedAt` closes the one at `openedAt`: they are of one family
-- and what stands between them is balanced.
def pairs (tokens : List Token) (openedAt closedAt : Nat) : Bool :=
  match tokens[openedAt]?,tokens[closedAt]? with
  | some ⟨_,.opener opener⟩,some ⟨_,.closer closer⟩ =>
    opener == closer && decide (openedAt < closedAt) && balanced ((tokens.take closedAt).drop (openedAt + 1))
  | _,_ => false

def enclosed (tokens : List Token) (place : Nat) : Bool :=
  (List.range tokens.length).any fun openedAt => (List.range tokens.length).any fun closedAt =>
    decide (openedAt < place) && decide (place < closedAt) && pairs tokens openedAt closedAt

def connectiveAt (tokens : List Token) (place : Nat) : Bool :=
  match tokens[place]? with
  | some ⟨_,.connective _⟩ => true
  | _ => false

def enclosedConnectives (tokens : List Token) : Nat :=
  (List.range tokens.length).countP fun place => connectiveAt tokens place && enclosed tokens place
def looseConnectives (tokens : List Token) : Nat :=
  (List.range tokens.length).countP fun place => connectiveAt tokens place && !enclosed tokens place

theorem split_at {tokens : List Token} {place : Nat} {token : Token} (found : tokens[place]? = some token) :
    tokens = tokens.take place ++ token :: tokens.drop (place + 1) := by
  obtain ⟨bound,same⟩ := List.getElem?_eq_some_iff.mp found
  rw [← same,List.getElem_cons_drop,List.take_append_drop]

theorem pairs_parts {tokens : List Token} {openedAt closedAt : Nat} (paired : pairs tokens openedAt closedAt = true) :
    openedAt < closedAt ∧ ∃ opened closed family, tokens[openedAt]? = some ⟨opened,.opener family⟩ ∧
      tokens[closedAt]? = some ⟨closed,.closer family⟩ ∧
      ∃ inside : Forest, inside.tokens = (tokens.take closedAt).drop (openedAt + 1) := by
  unfold pairs at paired
  split at paired
  · rename_i opened opener closed closer openerAt closerAt
    simp only [Bool.and_eq_true,beq_iff_eq,decide_eq_true_eq] at paired
    obtain ⟨⟨rfl,order⟩,balanced⟩ := paired
    exact ⟨order,opened,closed,opener,openerAt,closerAt,(Forest.balanced_forest _).mp balanced⟩
  · cases paired

theorem pairs_group (before : List Token) (opened : Nat) (family : Family) (inside : Forest) (closed : Nat)
    (after : List Token) :
    pairs (before ++ ⟨opened,.opener family⟩ :: (inside.tokens ++ ⟨closed,.closer family⟩ :: after))
      before.length (before.length + inside.tokens.length + 1) = true := by
  have balanced := (Forest.balanced_forest inside.tokens).mpr ⟨inside,rfl⟩
  have openerAt : (before ++ ⟨opened,.opener family⟩ :: (inside.tokens ++
      ⟨closed,.closer family⟩ :: after))[before.length]? = some ⟨opened,.opener family⟩ := by simp
  have closerAt : (before ++ ⟨opened,.opener family⟩ :: (inside.tokens ++
      ⟨closed,.closer family⟩ :: after))[before.length + inside.tokens.length + 1]? = some ⟨closed,.closer family⟩ := by
    rw [Nat.add_assoc,List.getElem?_append_right (by omega)]
    simp
  have content : ((before ++ ⟨opened,.opener family⟩ :: (inside.tokens ++ ⟨closed,.closer family⟩ :: after)).take
      (before.length + inside.tokens.length + 1)).drop (before.length + 1) = inside.tokens := by
    simp [Nat.add_assoc,List.take_append,List.drop_append]
  unfold pairs
  rw [openerAt,closerAt]
  simp only [content,balanced,beq_self_eq_true,Bool.true_and,Bool.and_true,decide_eq_true_eq]
  omega

theorem unclosed_unbalanced (held : List (Nat × Family)) (before : List Token) (openedAt : Nat)
    (family : Family) (inside : Forest) :
    checkFrom held (before ++ ⟨openedAt,.opener family⟩ :: inside.tokens) ≠ .ok () := by
  intro checked
  rw [checkFrom_opened] at checked
  obtain ⟨between,_,rest⟩ := (Outcome.bind_ok _).mp checked
  have row := inside.checkFrom_tokens ((openedAt,family) :: between) []
  rw [List.append_nil] at row
  simp [checkFrom,row] at rest

theorem pairs_outermost {tokens : List Token} {outer inner closedAt : Nat} (first : pairs tokens outer closedAt = true)
    (second : pairs tokens inner closedAt = true) : ¬ outer < inner := by
  intro deeper
  obtain ⟨_,_,_,_,_,_,around,aroundEq⟩ := pairs_parts first
  obtain ⟨order,opened,_,family,openerAt,_,inside,insideEq⟩ := pairs_parts second
  have within : around.tokens[inner - (outer + 1)]? = some ⟨opened,.opener family⟩ := by
    rw [aroundEq,List.getElem?_drop,Nat.add_sub_cancel' deeper,List.getElem?_take_of_lt order,openerAt]
  have content : around.tokens.drop (inner - (outer + 1) + 1) = inside.tokens := by
    rw [aroundEq,insideEq,List.drop_drop]
    congr 1
    omega
  have whole := split_at within
  rw [content] at whole
  have balanced := (Forest.check_forest around.tokens).mpr ⟨around,rfl⟩
  rw [whole] at balanced
  exact unclosed_unbalanced [] _ opened family inside balanced

theorem pairs_unique {tokens : List Token} {one other closedAt : Nat} (first : pairs tokens one closedAt = true)
    (second : pairs tokens other closedAt = true) : one = other := by
  have notBefore := pairs_outermost first second
  have notAfter := pairs_outermost second first
  omega

theorem pairs_bounded {tokens : List Token} {openedAt closedAt : Nat} (paired : pairs tokens openedAt closedAt = true) :
    openedAt < closedAt ∧ closedAt < tokens.length := by
  obtain ⟨order,_,_,_,_,closerAt,_⟩ := pairs_parts paired
  exact ⟨order,(List.getElem?_eq_some_iff.mp closerAt).1⟩

theorem pairs_left {before : List Token} (after : List Token) {openedAt closedAt : Nat}
    (within : closedAt < before.length) (order : openedAt < closedAt) :
    pairs (before ++ after) openedAt closedAt = pairs before openedAt closedAt := by
  unfold pairs
  rw [List.getElem?_append_left within,List.getElem?_append_left (Nat.lt_trans order within),
    List.take_append_of_le_length (Nat.le_of_lt within)]

theorem pairs_right (before after : List Token) (openedAt closedAt : Nat) :
    pairs (before ++ after) (before.length + openedAt) (before.length + closedAt) = pairs after openedAt closedAt := by
  have content : ((before ++ after).take (before.length + closedAt)).drop (before.length + openedAt + 1) =
      (after.take closedAt).drop (openedAt + 1) := by
    rw [List.take_length_add_append,Nat.add_assoc,List.drop_length_add_append]
  unfold pairs
  rw [List.getElem?_append_right (Nat.le_add_right _ _),List.getElem?_append_right (Nat.le_add_right _ _),
    Nat.add_sub_cancel_left,Nat.add_sub_cancel_left,content]
  simp

theorem enclosed_exact (tokens : List Token) (place : Nat) : enclosed tokens place = true ↔
    ∃ openedAt closedAt, openedAt < place ∧ place < closedAt ∧ pairs tokens openedAt closedAt = true := by
  simp only [enclosed,List.any_eq_true,List.mem_range,Bool.and_eq_true,decide_eq_true_eq]
  constructor
  · rintro ⟨openedAt,_,closedAt,_,⟨opens,closes⟩,paired⟩
    exact ⟨openedAt,closedAt,opens,closes,paired⟩
  · rintro ⟨openedAt,closedAt,opens,closes,paired⟩
    have bounds := pairs_bounded paired
    exact ⟨openedAt,Nat.lt_trans bounds.1 bounds.2,closedAt,bounds.2,⟨opens,closes⟩,paired⟩

-- No closer in `after` closes an opener in `before`.
def Apart (before after : List Token) : Prop :=
  ∀ openedAt closedAt, pairs (before ++ after) openedAt closedAt = true → before.length ≤ closedAt →
    before.length ≤ openedAt

theorem enclosed_left {before after : List Token} (apart : Apart before after) {place : Nat}
    (within : place < before.length) : enclosed (before ++ after) place = enclosed before place := by
  rw [Bool.eq_iff_iff,enclosed_exact,enclosed_exact]
  constructor
  · rintro ⟨openedAt,closedAt,opens,closes,paired⟩
    by_cases early : closedAt < before.length
    · rw [pairs_left after early (Nat.lt_trans opens closes)] at paired
      exact ⟨openedAt,closedAt,opens,closes,paired⟩
    · have late := apart openedAt closedAt paired (Nat.le_of_not_lt early)
      omega
  · rintro ⟨openedAt,closedAt,opens,closes,paired⟩
    have bounds := pairs_bounded paired
    exact ⟨openedAt,closedAt,opens,closes,by rw [pairs_left after bounds.2 bounds.1]; exact paired⟩

theorem enclosed_right {before after : List Token} (apart : Apart before after) (place : Nat) :
    enclosed (before ++ after) (before.length + place) = enclosed after place := by
  rw [Bool.eq_iff_iff,enclosed_exact,enclosed_exact]
  constructor
  · rintro ⟨openedAt,closedAt,opens,closes,paired⟩
    have late := apart openedAt closedAt paired (by omega)
    obtain ⟨opened,rfl⟩ := Nat.exists_eq_add_of_le late
    obtain ⟨closed,rfl⟩ := Nat.exists_eq_add_of_le (show before.length ≤ closedAt by omega)
    rw [pairs_right] at paired
    exact ⟨opened,closed,by omega,by omega,paired⟩
  · rintro ⟨openedAt,closedAt,opens,closes,paired⟩
    exact ⟨before.length + openedAt,before.length + closedAt,by omega,by omega,by rw [pairs_right]; exact paired⟩

theorem connectiveAt_left {before : List Token} (after : List Token) {place : Nat} (within : place < before.length) :
    connectiveAt (before ++ after) place = connectiveAt before place := by
  rw [connectiveAt,connectiveAt,List.getElem?_append_left within]

theorem connectiveAt_right (before after : List Token) (place : Nat) :
    connectiveAt (before ++ after) (before.length + place) = connectiveAt after place := by
  rw [connectiveAt,connectiveAt,List.getElem?_append_right (Nat.le_add_right _ _),Nat.add_sub_cancel_left]

theorem enclosedConnectives_append {before after : List Token} (apart : Apart before after) :
    enclosedConnectives (before ++ after) = enclosedConnectives before + enclosedConnectives after := by
  rw [enclosedConnectives,List.length_append,List.range_add,List.countP_append,List.countP_map]
  congr 1
  · apply List.countP_congr
    intro place member
    have within := List.mem_range.mp member
    rw [connectiveAt_left after within,enclosed_left apart within]
  · apply List.countP_congr
    intro place _
    rw [Function.comp_apply,connectiveAt_right,enclosed_right apart]

theorem countP_connectiveAt (tokens : List Token) :
    (List.range tokens.length).countP (connectiveAt tokens) = (Token.connectives tokens).length := by
  induction tokens with
  | nil => rfl
  | cons token rest ih =>
    have later : connectiveAt (token :: rest) ∘ Nat.succ = connectiveAt rest := by
      funext place
      simp [connectiveAt]
    rw [List.length_cons,List.range_succ_eq_map,List.countP_cons,List.countP_map,later,ih,Token.connectives_cons]
    obtain ⟨position,lexeme⟩ := token
    cases lexeme <;> simp [connectiveAt,Token.connective?,Nat.add_comm]

theorem enclosed_loose (tokens : List Token) :
    enclosedConnectives tokens + looseConnectives tokens = (Token.connectives tokens).length := by
  rw [← countP_connectiveAt,enclosedConnectives,looseConnectives]
  induction List.range tokens.length with
  | nil => rfl
  | cons place rest ih =>
    simp only [List.countP_cons]
    cases connectiveAt tokens place <;> cases enclosed tokens place <;> simp <;> omega

end Grouping

namespace Forest
open Grouping

-- The groups of a row at any depth, each as what stands before its opener and
-- the row inside it, when the tokens `before` stand in front of the row.
def groups : Forest → List Token → List (List Token × Forest)
  | empty,_ => []
  | leaf position text rest,before => rest.groups (before ++ [⟨position,.leaf text⟩])
  | connective position op rest,before => rest.groups (before ++ [⟨position,.connective op⟩])
  | group family openedAt closedAt inside rest,before =>
    (before,inside) :: (inside.groups (before ++ [⟨openedAt,.opener family⟩]) ++
      rest.groups (before ++ (group family openedAt closedAt inside empty).tokens))

theorem groups_split (forest : Forest) (before earlier : List Token) (inside : Forest)
    (member : (earlier,inside) ∈ forest.groups before) :
    before.length ≤ earlier.length ∧ ∃ opened family closed after, before ++ forest.tokens =
      earlier ++ ⟨opened,.opener family⟩ :: (inside.tokens ++ ⟨closed,.closer family⟩ :: after) := by
  induction forest generalizing before with
  | empty => cases member
  | leaf position text rest ih =>
    obtain ⟨bound,found⟩ := ih _ member
    refine ⟨by simp at bound; omega,?_⟩
    simpa [tokens] using found
  | connective position op rest ih =>
    obtain ⟨bound,found⟩ := ih _ member
    refine ⟨by simp at bound; omega,?_⟩
    simpa [tokens] using found
  | group family openedAt closedAt content rest insideIh restIh =>
    rcases List.mem_cons.mp member with here | deeper
    · cases here
      exact ⟨Nat.le_refl _,openedAt,family,closedAt,rest.tokens,rfl⟩
    · rcases List.mem_append.mp deeper with inner | later
      · obtain ⟨bound,opened,kind,closed,after,split⟩ := insideIh _ inner
        refine ⟨by simp at bound; omega,opened,kind,closed,after ++ ⟨closedAt,.closer family⟩ :: rest.tokens,?_⟩
        have extended := congrArg (· ++ ⟨closedAt,.closer family⟩ :: rest.tokens) split
        simpa [tokens] using extended
      · obtain ⟨bound,found⟩ := restIh _ later
        refine ⟨by simp at bound; omega,?_⟩
        simpa [tokens] using found

theorem groups_closer (forest : Forest) (before : List Token) (closedAt position : Nat) (family : Family)
    (within : before.length ≤ closedAt)
    (found : (before ++ forest.tokens)[closedAt]? = some ⟨position,.closer family⟩) :
    ∃ earlier inside, (earlier,inside) ∈ forest.groups before ∧
      earlier.length + inside.tokens.length + 1 = closedAt := by
  induction forest generalizing before with
  | empty =>
    rw [tokens,List.append_nil,List.getElem?_eq_none within] at found
    cases found
  | leaf place text rest ih =>
    by_cases here : closedAt = before.length
    · simp [here,tokens] at found
    · exact ih (before ++ [⟨place,.leaf text⟩]) (by simp; omega) (by simpa [tokens] using found)
  | connective place op rest ih =>
    by_cases here : closedAt = before.length
    · simp [here,tokens] at found
    · exact ih (before ++ [⟨place,.connective op⟩]) (by simp; omega) (by simpa [tokens] using found)
  | group kind openedAt endsAt content rest insideIh restIh =>
    by_cases here : closedAt = before.length
    · simp [here,tokens] at found
    · by_cases ends : closedAt = before.length + content.tokens.length + 1
      · exact ⟨before,content,List.mem_cons_self,ends.symm⟩
      · by_cases inner : closedAt < before.length + content.tokens.length + 1
        · have whole : before ++ (group kind openedAt endsAt content rest).tokens =
              before ++ [⟨openedAt,.opener kind⟩] ++ content.tokens ++ ⟨endsAt,.closer kind⟩ :: rest.tokens := by
            simp [tokens]
          rw [whole,List.getElem?_append_left (by simp; omega)] at found
          obtain ⟨earlier,inside,member,size⟩ := insideIh (before ++ [⟨openedAt,.opener kind⟩]) (by simp; omega) found
          exact ⟨earlier,inside,List.mem_cons_of_mem _ (List.mem_append_left _ member),size⟩
        · obtain ⟨earlier,inside,member,size⟩ := restIh (before ++ (group kind openedAt endsAt content empty).tokens)
            (by simp [tokens]; omega) (by simpa [tokens] using found)
          exact ⟨earlier,inside,List.mem_cons_of_mem _ (List.mem_append_right _ member),size⟩

theorem pairs_groups (forest : Forest) (before : List Token) (openedAt closedAt : Nat)
    (within : before.length ≤ closedAt) :
    pairs (before ++ forest.tokens) openedAt closedAt = true ↔ ∃ earlier inside,
      (earlier,inside) ∈ forest.groups before ∧ earlier.length = openedAt ∧
        earlier.length + inside.tokens.length + 1 = closedAt := by
  constructor
  · intro paired
    obtain ⟨_,_,closed,family,_,closerAt,_⟩ := pairs_parts paired
    obtain ⟨earlier,inside,member,size⟩ := forest.groups_closer before closedAt closed family within closerAt
    obtain ⟨_,_,_,_,_,split⟩ := forest.groups_split before earlier inside member
    refine ⟨earlier,inside,member,?_,size⟩
    rw [split] at paired
    subst size
    exact pairs_unique (pairs_group _ _ _ _ _ _) paired
  · rintro ⟨earlier,inside,member,rfl,rfl⟩
    obtain ⟨_,_,_,_,_,split⟩ := forest.groups_split before earlier inside member
    rw [split]
    exact pairs_group _ _ _ _ _ _

theorem apart_row (before : List Token) (forest : Forest) : Apart before forest.tokens := by
  intro openedAt closedAt paired late
  obtain ⟨earlier,inside,member,rfl,_⟩ := (forest.pairs_groups before openedAt closedAt late).mp paired
  exact (forest.groups_split before earlier inside member).1

theorem apart_token (before : List Token) (token : Token) (opens : ∀ family, token.lexeme ≠ .closer family) :
    Apart before [token] := by
  intro openedAt closedAt paired late
  have bounds := pairs_bounded paired
  obtain ⟨_,_,closed,family,_,closerAt,_⟩ := pairs_parts paired
  simp only [List.length_append,List.length_singleton] at bounds
  have last : closedAt = before.length := by omega
  simp only [last,List.getElem?_concat_length,Option.some.injEq] at closerAt
  exact absurd (congrArg Token.lexeme closerAt) (opens family)

theorem enclosedConnectives_single (token : Token) : enclosedConnectives [token] = 0 := by
  apply List.countP_eq_zero.mpr
  intro place member both
  obtain ⟨openedAt,closedAt,opens,closes,paired⟩ := (enclosed_exact _ _).mp (Bool.and_eq_true_iff.mp both).2
  have bounds := pairs_bounded paired
  simp only [List.length_singleton] at bounds
  omega

theorem enclosedConnectives_token (before : List Token) (token : Token)
    (opens : ∀ family, token.lexeme ≠ .closer family) :
    enclosedConnectives (before ++ [token]) = enclosedConnectives before := by
  rw [enclosedConnectives_append (apart_token before token opens),enclosedConnectives_single,Nat.add_zero]

theorem enclosedConnectives_row (before : List Token) (forest : Forest) :
    enclosedConnectives (before ++ forest.tokens) = enclosedConnectives before + enclosedConnectives forest.tokens :=
  enclosedConnectives_append (apart_row before forest)

theorem enclosedConnectives_group (family : Family) (openedAt closedAt : Nat) (inside : Forest) :
    enclosedConnectives (group family openedAt closedAt inside empty).tokens =
      (Token.connectives inside.tokens).length := by
  have paired := pairs_group [] openedAt family inside closedAt []
  have loose : looseConnectives (group family openedAt closedAt inside empty).tokens = 0 := by
    apply List.countP_eq_zero.mpr
    intro place member both
    obtain ⟨connective,outside⟩ := Bool.and_eq_true_iff.mp both
    have within := List.mem_range.mp member
    simp only [tokens,List.length_cons,List.length_append,List.length_nil] at within
    have notOpener : place ≠ 0 := by rintro rfl; simp [connectiveAt,tokens] at connective
    have notCloser : place ≠ inside.tokens.length + 1 := by rintro rfl; simp [connectiveAt,tokens] at connective
    have around := (enclosed_exact (group family openedAt closedAt inside empty).tokens place).mpr
      ⟨0,inside.tokens.length + 1,by omega,by omega,by simpa [tokens] using paired⟩
    rw [around] at outside
    cases outside
  have total := enclosed_loose (group family openedAt closedAt inside empty).tokens
  rw [loose] at total
  simpa [tokens,Token.connectives_cons,Token.connective?] using total

theorem enclosed_direct (forest : Forest) :
    enclosedConnectives forest.tokens + forest.direct.length = (Token.connectives forest.tokens).length := by
  induction forest with
  | empty => rfl
  | leaf position text rest ih =>
    have parts := rest.enclosedConnectives_row [⟨position,.leaf text⟩]
    rw [enclosedConnectives_single,Nat.zero_add,List.singleton_append] at parts
    simpa [tokens,direct,parts,Token.connectives_cons,Token.connective?] using ih
  | connective position op rest ih =>
    have parts := rest.enclosedConnectives_row [⟨position,.connective op⟩]
    rw [enclosedConnectives_single,Nat.zero_add,List.singleton_append] at parts
    simp only [tokens,direct,parts,Token.connectives_cons,Token.connective?,Option.toList_some,List.length_append,
      List.length_singleton]
    omega
  | group family openedAt closedAt inside rest insideIh restIh =>
    have parts := rest.enclosedConnectives_row (group family openedAt closedAt inside empty).tokens
    have whole : (group family openedAt closedAt inside empty).tokens ++ rest.tokens =
        (group family openedAt closedAt inside rest).tokens := by simp [tokens]
    rw [whole,enclosedConnectives_group] at parts
    rw [parts]
    simp only [direct,tokens,Token.connectives_cons,Token.connectives_append,Token.connective?,
      Option.toList_none,List.nil_append,List.length_append]
    omega

theorem loose_direct (forest : Forest) : looseConnectives forest.tokens = forest.direct.length := by
  have parts := forest.enclosed_direct
  have total := enclosed_loose forest.tokens
  omega

end Forest
end FilterQuery
