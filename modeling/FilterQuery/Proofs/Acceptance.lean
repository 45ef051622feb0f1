import Mathlib.Control.Monad.Basic
import FilterQuery.Proofs.Depth
import FilterQuery.Proofs.Enclosure

namespace FilterQuery
open Outcome Grouping

-- Wherever a group with connectives of its own is closed, the leaves so far
-- outnumber the connectives of all groups closed so far.
def Supplied (tokens : List Token) : Prop :=
  ∀ openedAt closedAt, pairs tokens openedAt closedAt = true →
    0 < looseConnectives ((tokens.take closedAt).drop (openedAt + 1)) →
      enclosedConnectives (tokens.take (closedAt + 1)) < (Token.leaves (tokens.take closedAt)).length

namespace Forest

theorem connectives_direct (forest : Forest) : (Token.connectives forest.direct).length = forest.direct.length := by
  apply List.filterMap_length_eq_length.mpr
  intro token member
  obtain ⟨position,op,rfl⟩ := forest.direct_connectives token member
  rfl

theorem connectives_settled (forest : Forest) :
    (Token.connectives forest.settled).length + forest.direct.length = (Token.connectives forest.tokens).length := by
  rw [← forest.connectives_direct,← List.length_append,← Token.connectives_append]
  exact forest.settled_connectives.length_eq

-- What `Supplied` asks of the groups of a row, when `before` stands in front.
def SuppliedAfter (before : List Token) (forest : Forest) : Prop :=
  ∀ earlier inside, (earlier,inside) ∈ forest.groups before → inside.direct ≠ [] →
    enclosedConnectives earlier + (Token.connectives inside.tokens).length <
      (Token.leaves earlier).length + (Token.leaves inside.tokens).length

theorem group_taken (forest : Forest) (earlier : List Token) (inside : Forest)
    (member : (earlier,inside) ∈ forest.groups []) :
    ∃ opened family closed,
      forest.tokens.take (earlier.length + inside.tokens.length + 1) =
        earlier ++ ⟨opened,.opener family⟩ :: inside.tokens ∧
      forest.tokens.take (earlier.length + inside.tokens.length + 1 + 1) =
        earlier ++ (group family opened closed inside empty).tokens := by
  obtain ⟨_,opened,family,closed,after,split⟩ := forest.groups_split [] earlier inside member
  rw [List.nil_append] at split
  have upTo : forest.tokens = (earlier ++ ⟨opened,.opener family⟩ :: inside.tokens) ++
      ⟨closed,.closer family⟩ :: after := by simp [split]
  have through : forest.tokens = (earlier ++ (group family opened closed inside empty).tokens) ++ after := by
    simp [split,tokens]
  refine ⟨opened,family,closed,?_,?_⟩
  · rw [upTo]; exact List.take_left' (by simp; omega)
  · rw [through]; exact List.take_left' (by simp [tokens]; omega)

theorem supplied_exact (forest : Forest) : Supplied forest.tokens ↔ SuppliedAfter [] forest := by
  have paired := forest.pairs_groups []
  simp only [List.nil_append,List.length_nil,Nat.zero_le,true_imp_iff] at paired
  have counts : ∀ earlier inside, (earlier,inside) ∈ forest.groups [] →
      looseConnectives ((forest.tokens.take (earlier.length + inside.tokens.length + 1)).drop (earlier.length + 1)) =
        inside.direct.length ∧
      enclosedConnectives (forest.tokens.take (earlier.length + inside.tokens.length + 1 + 1)) =
        enclosedConnectives earlier + (Token.connectives inside.tokens).length ∧
      (Token.leaves (forest.tokens.take (earlier.length + inside.tokens.length + 1))).length =
        (Token.leaves earlier).length + (Token.leaves inside.tokens).length := by
    intro earlier inside member
    obtain ⟨opened,family,closed,upTo,through⟩ := forest.group_taken earlier inside member
    rw [upTo,through]
    refine ⟨?_,?_,by simp [Token.leaves_cons,Token.leaf?]⟩
    · rw [List.drop_length_add_append,List.drop_one,List.tail_cons,loose_direct]
    · rw [enclosedConnectives_row,enclosedConnectives_group]
  constructor
  · intro supplied earlier inside member busy
    obtain ⟨loose,connectives,leaves⟩ := counts earlier inside member
    have closes := (paired _ _).mpr ⟨earlier,inside,member,rfl,rfl⟩
    have held := supplied _ _ closes (by rw [loose]; exact List.length_pos_iff.mpr busy)
    rwa [connectives,leaves] at held
  · intro supplied openedAt closedAt closes busy
    obtain ⟨earlier,inside,member,rfl,rfl⟩ := (paired _ _).mp closes
    obtain ⟨loose,connectives,leaves⟩ := counts earlier inside member
    rw [connectives,leaves]
    exact supplied earlier inside member (List.length_pos_iff.mp (loose ▸ busy))

theorem suppliedAfter_group (before : List Token) (family : Family) (openedAt closedAt : Nat) (inside rest : Forest) :
    SuppliedAfter before (group family openedAt closedAt inside rest) ↔
      (inside.direct ≠ [] → enclosedConnectives before + (Token.connectives inside.tokens).length <
        (Token.leaves before).length + (Token.leaves inside.tokens).length) ∧
      SuppliedAfter (before ++ [⟨openedAt,.opener family⟩]) inside ∧
      SuppliedAfter (before ++ (group family openedAt closedAt inside empty).tokens) rest := by
  constructor
  · intro supplied
    refine ⟨supplied before inside List.mem_cons_self,?_,?_⟩
    · intro earlier deeper member
      exact supplied earlier deeper (List.mem_cons_of_mem _ (List.mem_append_left _ member))
    · intro earlier later member
      exact supplied earlier later (List.mem_cons_of_mem _ (List.mem_append_right _ member))
  · rintro ⟨own,inner,outer⟩ earlier found member
    rcases List.mem_cons.mp member with here | elsewhere
    · cases here; exact own
    · rcases List.mem_append.mp elsewhere with deeper | later
      · exact inner earlier found deeper
      · exact outer earlier found later

-- The queries made by any place are as many as the leaves in front of it less
-- the connectives in groups that are closed by then.
def AtDepth (made : List Query) (before : List Token) : Prop :=
  made.length + enclosedConnectives before = (Token.leaves before).length

theorem depth_leaf {made : List Query} {before : List Token} (depth : AtDepth made before) (query : Query)
    (position : Nat) (text : String) : AtDepth (query :: made) (before ++ [⟨position,.leaf text⟩]) := by
  rw [AtDepth] at depth ⊢
  rw [enclosedConnectives_token _ _ (by simp)]
  simp only [Token.leaves_append,Token.leaves_cons,Token.leaves_nil,Token.leaf?,Option.toList_some,
    List.append_nil,List.length_append,List.length_cons,List.length_nil]
  omega

theorem depth_token {made : List Query} {before : List Token} (depth : AtDepth made before) (token : Token)
    (opens : ∀ family, token.lexeme ≠ .closer family) (quiet : Token.leaf? token = none) :
    AtDepth made (before ++ [token]) := by
  rw [AtDepth] at depth ⊢
  rw [enclosedConnectives_token before token opens]
  simpa [Token.leaves_cons,quiet] using depth

theorem depth_group {reading : Reading} {made content next : List Query} {before : List Token} {inside : Forest}
    (depth : AtDepth made before) (family : Family) (openedAt closedAt : Nat)
    (entering : Evaluate.steps reading made inside.settled = .ok content)
    (leaving : Evaluate.steps reading content inside.direct = .ok next) :
    AtDepth next (before ++ (group family openedAt closedAt inside empty).tokens) := by
  have first := Evaluate.steps_length entering
  have second := Evaluate.steps_length leaving
  have emitted := inside.connectives_settled
  have gathered := congrArg List.length inside.settled_leaves
  rw [direct_leaves,connectives_direct,List.length_nil] at second
  rw [AtDepth] at depth ⊢
  rw [enclosedConnectives_row,enclosedConnectives_group]
  simp only [tokens,Token.leaves_append,Token.leaves_cons,Token.leaves_nil,Token.leaf?,Option.toList_none,
    List.nil_append,List.append_nil,List.length_append]
  omega

theorem steps_settled (reading : Reading) (forest : Forest) (before : List Token) (made : List Query)
    (readable : ∀ leaf ∈ Token.leaves forest.tokens, ∃ query, reading.leaf leaf.2 = .ok query)
    (depth : AtDepth made before) :
    (∃ next, Evaluate.steps reading made forest.settled = .ok next) ↔ SuppliedAfter before forest := by
  induction forest generalizing before made with
  | empty =>
    constructor
    · intro _ earlier inside member; cases member
    · intro _; exact ⟨made,rfl⟩
  | leaf position text rest ih =>
    simp only [tokens,Token.leaves_cons,Token.leaf?,Option.toList_some,List.singleton_append,
      List.forall_mem_cons] at readable
    obtain ⟨⟨query,read⟩,others⟩ := readable
    rw [settled,Evaluate.steps_leaf read]
    exact ih _ _ others (depth_leaf depth query position text)
  | connective position op rest ih =>
    simp only [tokens,Token.leaves_cons,Token.leaf?,Option.toList_none,List.nil_append] at readable
    exact ih _ _ readable (depth_token depth ⟨position,.connective op⟩ (by simp) rfl)
  | group family openedAt closedAt inside rest insideIh restIh =>
    simp only [tokens,Token.leaves_cons,Token.leaves_append,Token.leaf?,Option.toList_none,List.nil_append,
      List.mem_append] at readable
    have inner := insideIh _ made (fun leaf member => readable leaf (.inl member))
      (depth_token depth ⟨openedAt,.opener family⟩ (by simp) rfl)
    have outer := fun next => restIh (before ++ (group family openedAt closedAt inside empty).tokens) next
      fun leaf member => readable leaf (.inr member)
    have emitted := inside.connectives_settled
    have gathered := congrArg List.length inside.settled_leaves
    -- At the closer the connectives of the group itself are all that is left to act.
    have waits := fun content => Evaluate.steps_connectives reading content inside.direct inside.direct_connectives
    rw [AtDepth] at depth
    rw [suppliedAfter_group,settled,Evaluate.steps_append,Evaluate.steps_append]
    simp only [bind_ok]
    constructor
    · rintro ⟨last,next,⟨content,entering,leaving⟩,later⟩
      have first := Evaluate.steps_length entering
      have closed := depth_group depth family openedAt closedAt entering leaving
      refine ⟨?_,inner.mp ⟨content,entering⟩,(outer next closed).mp ⟨last,later⟩⟩
      intro busy
      have enough := (waits content).mp ⟨next,leaving⟩ busy
      omega
    · rintro ⟨own,deeper,later⟩
      obtain ⟨content,entering⟩ := inner.mpr deeper
      have first := Evaluate.steps_length entering
      obtain ⟨next,leaving⟩ := (waits content).mpr fun busy => by have enough := own busy; omega
      have closed := depth_group depth family openedAt closedAt entering leaving
      obtain ⟨last,ended⟩ := (outer next closed).mpr later
      exact ⟨last,next,⟨content,entering,leaving⟩,ended⟩

theorem compile_forest (reading : Reading) (forest : Forest) (fields : reading.hasFields = true) :
    compile reading forest.tokens =
      Evaluate.steps reading [] forest.settled >>= fun made =>
        Evaluate.steps reading made forest.direct >>= Evaluate.finish := by
  rw [compile_tokens reading forest fields,evaluate_steps reading _ fields,Evaluate.steps_append,bind_assoc]

theorem compile_parts {reading : Reading} {tokens : List Token} {query : Query}
    (compiled : compile reading tokens = .ok query) :
    ∃ forest : Forest, forest.tokens = tokens ∧ evaluate reading (forest.settled ++ forest.direct) = .ok query := by
  unfold compile at compiled
  split at compiled
  · split at compiled
    · cases compiled
    · rename_i checked
      obtain ⟨forest,written⟩ := (check_forest tokens).mp checked
      refine ⟨forest,written,?_⟩
      rw [← forest.order_tokens,written]
      exact compiled
  · cases compiled

theorem compiled_count (reading : Reading) (forest : Forest) {query : Query} (fields : reading.hasFields = true)
    (compiled : compile reading forest.tokens = .ok query) :
    (Token.leaves forest.tokens).length = (Token.connectives forest.tokens).length + 1 := by
  obtain ⟨_,ran⟩ := (compile_steps reading forest.tokens fields query).mp compiled
  have counted := Evaluate.steps_length ran
  have leaves := congrArg List.length (Postfix.order_leaves forest.tokens)
  have connectives := (Postfix.order_connectives forest.tokens).length_eq
  simp only [List.length_cons,List.length_nil] at counted
  omega

theorem compile_supplied (reading : Reading) (forest : Forest) (fields : reading.hasFields = true)
    (readable : ∀ leaf ∈ Token.leaves forest.tokens, ∃ query, reading.leaf leaf.2 = .ok query) :
    (∃ query, compile reading forest.tokens = .ok query) ↔
      (Token.leaves forest.tokens).length = (Token.connectives forest.tokens).length + 1 ∧ Supplied forest.tokens := by
  have settles := forest.steps_settled reading [] [] readable rfl
  have emitted := forest.connectives_settled
  have gathered := congrArg List.length forest.settled_leaves
  have waits := fun made => Evaluate.steps_connectives reading made forest.direct forest.direct_connectives
  rw [supplied_exact]
  constructor
  · rintro ⟨query,compiled⟩
    refine ⟨compiled_count reading forest fields compiled,?_⟩
    rw [compile_forest reading forest fields] at compiled
    obtain ⟨made,settling,_⟩ := (bind_ok _).mp compiled
    exact settles.mp ⟨made,settling⟩
  · rintro ⟨count,supplied⟩
    obtain ⟨made,settling⟩ := settles.mpr supplied
    have first := Evaluate.steps_length settling
    simp only [List.length_nil] at first
    obtain ⟨last,ending⟩ := (waits made).mpr fun _ => by omega
    have second := Evaluate.steps_length ending
    rw [direct_leaves,connectives_direct,List.length_nil] at second
    obtain ⟨query,rfl⟩ := List.length_eq_one_iff.mp (show last.length = 1 by omega)
    refine ⟨query,?_⟩
    rw [compile_forest reading forest fields]
    simp only [bind_ok]
    exact ⟨made,settling,[query],ending,rfl⟩

end Forest

theorem compile_balanced (words : List String) (balanced : check (Token.ofWords words) = .ok ())
    (readable : ∀ word ∈ words, Lexeme.Plain word → ∃ query, Leaf.read word = .ok query) :
    (∃ query, compileWords .keyValue words = .ok query) ↔
      (Token.leaves (Token.ofWords words)).length = (Token.connectives (Token.ofWords words)).length + 1 ∧
      Supplied (Token.ofWords words) := by
  obtain ⟨forest,tokens⟩ := (Forest.check_forest _).mp balanced
  rw [compileWords,← tokens]
  apply forest.compile_supplied .keyValue rfl
  intro leaf member
  rw [tokens,Token.ofWords_numbered] at member
  obtain ⟨listed,plain⟩ := Token.leaves_plain 0 words leaf member
  exact readable leaf.2 listed plain

theorem supplied_borrowed_early :
    Supplied (Token.ofWords ["a=1","(","b=2","and",")","or","c=3"]) ∧
    ¬ Supplied (Token.ofWords ["(","a=1","and",")","b=2"]) := by
  constructor
  · have accepted := compile_balanced ["a=1","(","b=2","and",")","or","c=3"] rfl (by decide)
    exact (accepted.mp (by decide)).2
  · intro supplied
    have accepted := compile_balanced ["(","a=1","and",")","b=2"] rfl (by decide)
    exact absurd (accepted.mpr ⟨by decide,supplied⟩) (by decide)

end FilterQuery
