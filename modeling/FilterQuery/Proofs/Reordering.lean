import FilterQuery.Proofs.Brackets

namespace FilterQuery

namespace Token

theorem painted_renamed (paint : Nat → Family) (token : Token) : Renamed token (token.painted paint) := by
  obtain ⟨position,lexeme⟩ := token
  cases lexeme with
  | opener family => exact .opener position position family (paint position)
  | closer family => exact .closer position position family (paint position)
  | connective op => exact .connective position position op
  | leaf text => exact .leaf position position text

theorem painted_unbracketed (paint : Nat → Family) {token : Token} (bare : token.lexeme.isBracket = false) :
    token.painted paint = token := by
  obtain ⟨position,lexeme⟩ := token
  cases lexeme with
  | opener | closer => cases bare
  | connective | leaf => rfl

-- The place at which a token of these stands by its index, for any tokens.
def placeIn (tokens : List Token) (index : Nat) : Nat := (tokens[index]?.map position).getD 0

theorem numbered_getElem (start : Nat) (lexemes : List Lexeme) (index : Nat) :
    (numbered start lexemes)[index]? = lexemes[index]?.map (mk (start + index)) := by
  rw [numbered_zipIdx,List.getElem?_map,List.getElem?_zipIdx,Option.map_map]
  rfl

theorem mem_numbered (lexemes : List Lexeme) (token : Token) :
    token ∈ numbered 0 lexemes ↔ lexemes[token.position]? = some token.lexeme := by
  constructor
  · intro member
    obtain ⟨index,found⟩ := List.mem_iff_getElem?.mp member
    rw [numbered_getElem,Nat.zero_add] at found
    obtain ⟨lexeme,listed,rfl⟩ := Option.map_eq_some_iff.mp found
    exact listed
  · intro listed
    apply List.mem_iff_getElem?.mpr
    exact ⟨token.position,by rw [numbered_getElem,listed,Nat.zero_add]; rfl⟩

theorem numbered_positions (start : Nat) (lexemes : List Lexeme) :
    (numbered start lexemes).map position = List.range' start lexemes.length := by
  rw [numbered_zipIdx,List.map_map]
  exact List.zipIdx_map_snd start lexemes

theorem numbered_moved (tokens : List Token) :
    (numbered 0 (tokens.map lexeme)).map (moved (placeIn tokens)) = tokens := by
  apply List.ext_getElem?
  intro index
  rw [List.getElem?_map,numbered_getElem,List.getElem?_map]
  cases listed : tokens[index]? with
  | none => rfl
  | some token => simp [moved,placeIn,listed]

end Token

namespace Postfix
open Token

theorem order_painted (paint : Nat → Family) (tokens : List Token) :
    order (tokens.map (painted paint)) = order tokens := by
  have renamed : order (tokens.map (painted paint)) = (order tokens).map (painted paint) :=
    orderFrom_renamed (painted_renamed paint) [] tokens
  rw [renamed,List.map_congr_left fun token member => painted_unbracketed paint (order_unbracketed tokens token member),
    List.map_id']

theorem passed_mem {held tokens : List Token} {token : Token} (member : token ∈ passed held tokens) :
    token ∈ held ∨ token ∈ tokens := by
  induction tokens generalizing held with
  | nil => cases member
  | cons first rest ih =>
    rcases List.mem_append.mp member with here | later
    · rcases release_mem here with ⟨rfl,_⟩ | ⟨before,_⟩
      · exact .inr List.mem_cons_self
      · exact .inl before
    · rcases ih later with kept | listed
      · rcases keep_mem kept with before | ⟨rfl,_⟩
        · exact .inl before
        · exact .inr List.mem_cons_self
      · exact .inr (List.mem_cons_of_mem _ listed)

theorem leaf_passed {tokens : List Token} {position : Nat} {text : String}
    (member : ⟨position,.leaf text⟩ ∈ tokens) : ⟨position,.leaf text⟩ ∈ passed [] tokens := by
  have listed : (position,text) ∈ leaves tokens := List.mem_filterMap.mpr ⟨_,member,rfl⟩
  rw [← leaves_passed tokens (List.forall_mem_nil _)] at listed
  obtain ⟨token,passed,same⟩ := List.mem_filterMap.mp listed
  obtain ⟨place,word,rfl⟩ | none := leaf_cases token
  · cases same
    exact passed
  · cases none.symm.trans same

theorem order_split {before after : List Token} {position : Nat} {text : String} {token : Token}
    (leaf : ⟨position,.leaf text⟩ ∈ before) (later : token ∈ order (before ++ after)) (apart : token ∉ before) :
    List.Sublist [⟨position,.leaf text⟩,token] (order (before ++ after)) := by
  rw [order,orderFrom_append] at later ⊢
  have behind : token ∈ orderFrom (waiting [] before) after := by
    rcases List.mem_append.mp later with early | late
    · rcases passed_mem early with none | listed
      · cases none
      · exact absurd listed apart
    · exact late
  exact (List.singleton_sublist.mpr (leaf_passed leaf)).append (List.singleton_sublist.mpr behind)

theorem mem_order_numbered (lexemes : List Lexeme) (token : Token) : token ∈ order (numbered 0 lexemes) ↔
    lexemes[token.position]? = some token.lexeme ∧ token.lexeme.isBracket = false := by
  rw [(order_perm _).mem_iff,List.mem_filter,mem_numbered]
  simp

-- The places of lexemes in the order in which they come out.
def places (lexemes : List Lexeme) : List Nat := (order (numbered 0 lexemes)).map position

theorem places_nodup (lexemes : List Lexeme) : (places lexemes).Nodup := by
  have same := (order_perm (numbered 0 lexemes)).map position
  have kept := (List.filter_sublist (p := (!·.lexeme.isBracket)) (l := numbered 0 lexemes)).map position
  rw [numbered_positions] at kept
  exact same.nodup_iff.mpr (kept.nodup List.nodup_range')

theorem mem_places (lexemes : List Lexeme) (place : Nat) :
    place ∈ places lexemes ↔ ∃ lexeme, lexemes[place]? = some lexeme ∧ lexeme.isBracket = false := by
  rw [places,List.mem_map]
  constructor
  · intro found
    obtain ⟨token,member,rfl⟩ := found
    exact ⟨token.lexeme,(mem_order_numbered lexemes token).mp member⟩
  · intro found
    obtain ⟨lexeme,listed⟩ := found
    exact ⟨⟨place,lexeme⟩,(mem_order_numbered lexemes _).mpr listed,rfl⟩

theorem places_exact (tokens : List Token) :
    (places (tokens.map lexeme)).map (tokens[·]?) = (order tokens).map some := by
  have renamed := order_moved (placeIn tokens) (numbered 0 (tokens.map lexeme))
  rw [numbered_moved] at renamed
  rw [places,renamed,List.map_map,List.map_map]
  apply List.map_congr_left
  intro token member
  have listed := ((mem_order_numbered _ token).mp member).1
  rw [List.getElem?_map] at listed
  obtain ⟨source,found,same⟩ := Option.map_eq_some_iff.mp listed
  simp [moved,placeIn,found,← same]

theorem places_leaf {lexemes : List Lexeme} {leafAt place : Nat} {text : String} (before : leafAt < place)
    (leaf : lexemes[leafAt]? = some (.leaf text)) (listed : place ∈ places lexemes) :
    List.Sublist [leafAt,place] (places lexemes) := by
  obtain ⟨token,member,rfl⟩ := List.mem_map.mp listed
  -- Cut right behind the leaf, so that the token at the later place stands beyond.
  have parts := List.take_append_drop (leafAt + 1) lexemes
  have whole : numbered 0 lexemes = numbered 0 (lexemes.take (leafAt + 1)) ++
      numbered (0 + (lexemes.take (leafAt + 1)).length) (lexemes.drop (leafAt + 1)) := by
    rw [← numbered_append,parts]
  have early : ⟨leafAt,.leaf text⟩ ∈ numbered 0 (lexemes.take (leafAt + 1)) := by
    rw [mem_numbered,List.getElem?_take_of_lt (Nat.lt_succ_self leafAt),leaf]
  have apart : token ∉ numbered 0 (lexemes.take (leafAt + 1)) := by
    intro found
    rw [mem_numbered,List.getElem?_take_eq_none (by omega)] at found
    cases found
  rw [whole] at member
  have split := order_split early member apart
  rw [← whole] at split
  exact split.map position

-- Balanced or not, nothing is lost and nothing is added. All tokens come out but
-- the brackets, each leaf before every leaf and every connective that stand behind
-- it, and the families of the brackets do not matter. Tokens are told apart by
-- where they stand, so this also holds where some are equal.
theorem order_conserves (tokens : List Token) :
    (∀ token ∈ order tokens, token.lexeme.isBracket = false) ∧
    (order tokens).Perm (tokens.filter (!·.lexeme.isBracket)) ∧
    leaves (order tokens) = leaves tokens ∧
    (∃ places : List Nat, places.map (tokens[·]?) = (order tokens).map some ∧ places.Nodup ∧
      (∀ place, place ∈ places ↔ ∃ token, tokens[place]? = some token ∧ token.lexeme.isBracket = false) ∧
      ∀ leafAt place, leafAt < place → place ∈ places →
        (∃ position text, tokens[leafAt]? = some ⟨position,.leaf text⟩) → List.Sublist [leafAt,place] places) ∧
    ∀ others, others.map (painted fun _ => .round) = tokens.map (painted fun _ => .round) →
      order others = order tokens := by
  refine ⟨order_unbracketed tokens,order_perm tokens,order_leaves tokens,?_,?_⟩
  · refine ⟨places (tokens.map lexeme),places_exact tokens,places_nodup _,?_,?_⟩
    · intro place
      rw [mem_places,List.getElem?_map]
      simp
    · intro leafAt place before listed leaf
      obtain ⟨position,text,found⟩ := leaf
      have leaf : (tokens.map lexeme)[leafAt]? = some (.leaf text) := by rw [List.getElem?_map,found]; rfl
      exact places_leaf before leaf listed
  · intro others alike
    rw [← order_painted (fun _ => .round) others,alike,order_painted]

theorem conserves_unbalanced :
    order (ofWords ["a","or","]","[","and","b","and","(","b","or"]) =
      [⟨0,.leaf "a"⟩,⟨1,.connective .or⟩,⟨5,.leaf "b"⟩,⟨8,.leaf "b"⟩,⟨9,.connective .or⟩,⟨6,.connective .and⟩,
        ⟨4,.connective .and⟩] ∧
    order (ofWords ["a","or",")","\x7b","and","b","and","[","b","or"]) =
      order (ofWords ["a","or","]","[","and","b","and","(","b","or"]) := by
  refine ⟨rfl,?_⟩
  exact (order_conserves (ofWords ["a","or","]","[","and","b","and","(","b","or"])).2.2.2.2 _ rfl

end Postfix
end FilterQuery
