import Mathlib.Logic.Relation
import FilterQuery.Proofs.JsonWriting
import FilterQuery.Proofs.Outcome
import FilterQuery.Query

namespace FilterQuery.Query
open Outcome

theorem strings_roundtrip (clause : String) (values : List String) :
    readStrings clause (values.map .str) = .ok values := by
  induction values with
  | nil => rfl
  | cons value rest ih => simp [readStrings,readString,ih]

theorem string_canonical (clause : String) (item : Json) (text : String)
    (read : readString clause item = .ok text) : Json.str text = item := by
  cases item with
  | str got => cases read; rfl
  | null | bool | num | arr | obj => cases read

theorem strings_canonical (clause : String) (items : List Json) (values : List String)
    (read : readStrings clause items = .ok values) : values.map .str = items := by
  induction items generalizing values with
  | nil => cases read; rfl
  | cons item rest ih =>
    obtain ⟨text,first,read⟩ := (bind_ok _).mp read
    obtain ⟨texts,later,read⟩ := (bind_ok _).mp read
    cases read
    rw [List.map_cons,string_canonical clause item text first,ih texts later]

theorem member_canonical (json : Json) (key : String) (body : Json)
    (read : member json = .ok (key,body)) : named key body = json := by
  unfold member at read
  split at read
  · cases read; rfl
  · cases read

theorem condition_roundtrip (asked : Condition) : ofJson (conditionJson asked) = .ok (.condition asked) := by
  cases asked with
  | text field value => rfl
  | term field value => rfl
  | range field bound value =>
    have known := (Bound.ofKeyword_exact bound.keyword bound).mpr rfl
    simp [conditionJson,named,ofJson,readCondition,member,readString,known]
  | terms field values =>
    simp [conditionJson,named,ofJson,readCondition,member,strings_roundtrip]

theorem condition_canonical (clause : String) (body : Json) (asked : Condition)
    (read : readCondition clause body = .ok asked) : conditionJson asked = named clause body := by
  unfold readCondition at read
  split at read
  · obtain ⟨⟨field,value⟩,inner,read⟩ := (bind_ok _).mp read
    obtain ⟨text,found,read⟩ := (bind_ok _).mp read
    cases read
    rw [conditionJson,string_canonical _ _ _ found,member_canonical _ _ _ inner]
  · obtain ⟨⟨field,value⟩,inner,read⟩ := (bind_ok _).mp read
    obtain ⟨text,found,read⟩ := (bind_ok _).mp read
    cases read
    rw [conditionJson,string_canonical _ _ _ found,member_canonical _ _ _ inner]
  · obtain ⟨⟨field,limit⟩,inner,read⟩ := (bind_ok _).mp read
    obtain ⟨⟨word,value⟩,innermost,read⟩ := (bind_ok _).mp read
    dsimp only at read
    split at read
    · rename_i bound known
      obtain ⟨text,found,read⟩ := (bind_ok _).mp read
      cases read
      rw [conditionJson,string_canonical _ _ _ found,(Bound.ofKeyword_exact word bound).mp known,
        member_canonical _ _ _ innermost,member_canonical _ _ _ inner]
    · cases read
  · obtain ⟨⟨field,list⟩,inner,read⟩ := (bind_ok _).mp read
    dsimp only at read
    split at read
    · obtain ⟨texts,found,read⟩ := (bind_ok _).mp read
      cases read
      rw [conditionJson,strings_canonical _ _ _ found,member_canonical _ _ _ inner]
    · cases read
  · cases read

theorem occurring_occurrence (op : Connective) (parts : List Query) :
    occurring (occurrence op) parts = .ok (.joined op parts) := by cases op <;> rfl

mutual
theorem json_roundtrip : (query : Query) → ofJson query.toJson = .ok query
  | .condition asked => condition_roundtrip asked
  | .negated inner => by
    simp [toJson,named,ofJson,ofItems,occurring,json_roundtrip inner]
  | .joined op parts => by
    simp [toJson,named,ofJson,parts_roundtrip parts,occurring_occurrence]
theorem parts_roundtrip : (parts : List Query) → ofItems (partsJson parts) = .ok parts
  | [] => rfl
  | first :: rest => by
    simp [partsJson,ofItems,json_roundtrip first,parts_roundtrip rest]
end

theorem occurring_canonical (occur : String) (parts : List Query) (query : Query)
    (read : occurring occur parts = .ok query) :
    query.toJson = named "bool" (named occur (.arr (partsJson parts))) := by
  unfold occurring at read
  split at read
  all_goals cases read
  all_goals rfl

theorem crowded_unread (first second : String × Json) (rest : List (String × Json)) :
    ofJson (.obj (first :: second :: rest)) = .error (.notSingleKey (.obj (first :: second :: rest))) := by
  unfold ofJson
  split
  case h_5 => rfl
  all_goals rename_i same; cases same

mutual
theorem json_canonical : (json : Json) → (query : Query) → ofJson json = .ok query → query.toJson = json
  | .obj [(clause,body)],query,read => by
    unfold ofJson at read
    split at read
    · rename_i occur items same
      cases same
      obtain ⟨parts,found,read⟩ := (bind_ok _).mp read
      rw [occurring_canonical _ _ _ read,items_canonical items parts found]
      rfl
    · cases read
    · cases read
    · rename_i same
      cases same
      obtain ⟨asked,found,read⟩ := (bind_ok _).mp read
      cases read
      exact condition_canonical _ _ _ found
    · cases read
  | .null,query,read | .bool _,query,read | .num _,query,read | .str _,query,read
  | .arr _,query,read | .obj [],query,read => by cases read
  | .obj (first :: second :: rest),query,read => by
    rw [crowded_unread] at read
    cases read
theorem items_canonical : (items : List Json) → (parts : List Query) →
    ofItems items = .ok parts → partsJson parts = items
  | [],parts,read => by cases read; rfl
  | first :: rest,parts,read => by
    obtain ⟨query,found,read⟩ := (bind_ok _).mp read
    obtain ⟨later,others,read⟩ := (bind_ok _).mp read
    cases read
    rw [partsJson,json_canonical first query found,items_canonical rest later others]
end

theorem ofJson_exact (json : Json) (query : Query) : ofJson json = .ok query ↔ query.toJson = json :=
  ⟨json_canonical json query,fun written => written ▸ json_roundtrip query⟩

open Relation

def unread (json : Json) : Bool := !(ofJson json).isOk

-- A clause that holds clauses, under whatever occurrence.
def clauses (occur : String) (items : List Json) : Json := named "bool" (named occur (.arr items))

-- From a clause that holds clauses to the first of them that cannot be read.
inductive Descends : Json → Json → Prop where
  | into (occur : String) {items : List Json} (first : items.find? unread = some child) :
      Descends (clauses occur items) child

-- Where the descent from a value ends.
structure Blames (json last : Json) : Prop where
  reached : ReflTransGen Descends json last
  ended : ∀ next, ¬ Descends last next

theorem unread_cases (json : Json) : (unread json = true ∧ ∃ fault, ofJson json = .error fault) ∨
    (unread json = false ∧ ∃ query, ofJson json = .ok query) := by
  unfold unread
  cases ofJson json with
  | ok query => exact .inr ⟨rfl,query,rfl⟩
  | error fault => exact .inl ⟨rfl,fault,rfl⟩

theorem ofJson_clauses (occur : String) (items : List Json) :
    ofJson (clauses occur items) = ofItems items >>= occurring occur := by
  simp only [clauses,named,ofJson]

theorem ofItems_first {items : List Json} {child : Json} {fault : ReadError} (first : items.find? unread = some child)
    (failed : ofJson child = .error fault) : ofItems items = .error fault := by
  induction items with
  | nil => cases first
  | cons item rest ih =>
    rcases unread_cases item with ⟨blamed,_⟩ | ⟨passed,query,read⟩
    · rw [List.find?_cons_of_pos blamed] at first
      cases first
      rw [ofItems,failed,error_bind]
    · rw [List.find?_cons_of_neg (by simp [passed])] at first
      rw [ofItems,read,ok_bind,ih first,error_bind]

theorem Descends.same {json child : Json} (down : Descends json child) : ofJson json = ofJson child := by
  cases down with
  | into occur first =>
    rcases unread_cases child with ⟨_,fault,failed⟩ | ⟨passed,_⟩
    · rw [ofJson_clauses,ofItems_first first failed,error_bind,failed]
    · rw [List.find?_some first] at passed
      cases passed

theorem Descends.unique {json one other : Json} (down : Descends json one) (again : Descends json other) :
    one = other := by
  cases down with
  | into occur first =>
    cases again with
    | into _ second => exact Option.some.inj (first.symm.trans second)

theorem Descends.smaller {json child : Json} (down : Descends json child) : sizeOf child < sizeOf json := by
  cases down with
  | into occur first =>
    have within := List.sizeOf_lt_of_mem (List.mem_of_find?_eq_some first)
    simp only [clauses,named,Json.obj.sizeOf_spec,Json.arr.sizeOf_spec,List.cons.sizeOf_spec,Prod.mk.sizeOf_spec]
    omega

theorem descends_wellFounded : WellFounded fun child json => Descends json child :=
  Subrelation.wf (fun down => down.smaller) (measure sizeOf).wf

theorem blames_exists (json : Json) : ∃ last, Blames json last := by
  induction json using descends_wellFounded.induction with
  | h json ih =>
    by_cases deeper : ∃ child, Descends json child
    · obtain ⟨child,down⟩ := deeper
      obtain ⟨last,reached,ended⟩ := ih child down
      exact ⟨last,.head down reached,ended⟩
    · exact ⟨json,.refl,not_exists.mp deeper⟩

theorem Blames.final {json last further : Json} (blamed : Blames json last) (onward : ReflTransGen Descends last further) :
    further = last := by
  rcases onward.cases_head with same | ⟨next,down,_⟩
  · exact same.symm
  · exact absurd down (blamed.ended next)

theorem Blames.unique {json one other : Json} (first : Blames json one) (second : Blames json other) : one = other := by
  have single : Relator.RightUnique Descends := fun _ _ _ down again => down.unique again
  rcases ReflTransGen.total_of_right_unique single first.reached second.reached with onward | onward
  · exact (first.final onward).symm
  · exact second.final onward

theorem reached_same {json last : Json} (reached : ReflTransGen Descends json last) : ofJson last = ofJson json := by
  induction reached with
  | refl => rfl
  | tail _ down ih => rw [← down.same,ih]

theorem clauses_around {json : Json} (occur : String) {before : List Json} (after : List Json)
    (readable : ∀ item ∈ before, unread item = false) (blamed : unread json = true) :
    Descends (clauses occur (before ++ json :: after)) json := by
  apply Descends.into
  rw [List.find?_append,List.find?_eq_none.mpr (fun item member => by simp [readable item member]),
    List.find?_cons_of_pos blamed,Option.none_or]

theorem ofJson_first_unread (json : Json) :
    (∃ last, Blames json last ∧ (∀ other, Blames json other → other = last) ∧ ofJson json = ofJson last) ∧
    ∀ occur before after, (∀ item ∈ before, unread item = false) → unread json = true →
      ofJson (clauses occur (before ++ json :: after)) = ofJson json := by
  constructor
  · obtain ⟨last,blamed⟩ := blames_exists json
    refine ⟨last,blamed,?_,(reached_same blamed.reached).symm⟩
    intro other found
    exact found.unique blamed
  · intro occur before after readable blamed
    exact (clauses_around occur after readable blamed).same

-- Its occurrence is unknown, a negation in it holds three clauses, and others that
-- cannot be read stand behind the clause to blame.
def misspelled : Json :=
  clauses "perhaps" [(text "a" "1").toJson,
    clauses "must_not" [(term "b" "2").toJson,named "prefix" .null,named "fuzzy" .null],.null]

theorem first_unread_nested :
    Blames misspelled (named "prefix" .null) ∧ ofJson misspelled = .error (.unknownClause "prefix") ∧
    ofJson misspelled = ofJson (clauses "must_not" [(term "b" "2").toJson,named "prefix" .null,named "fuzzy" .null]) := by
  obtain ⟨last,_,only,same⟩ := (ofJson_first_unread misspelled).1
  have blamed : Blames misspelled (named "prefix" .null) := by
    refine ⟨.head (.into "perhaps" rfl) (.single (.into "must_not" rfl)),?_⟩
    intro next down
    generalize other : named "prefix" .null = json at down
    cases down with
    | into occur first => simp [clauses,named] at other
  refine ⟨blamed,?_,?_⟩
  · rw [same,← only _ blamed]
    rfl
  · refine (ofJson_first_unread _).2 "perhaps" [(text "a" "1").toJson] [.null] ?_ rfl
    intro item member
    rw [List.mem_singleton.mp member]
    rfl

open Json (Writes WritesMembers)

theorem named_writes (key : String) {body : Json} (writes : ∃ written, Writes body written) :
    ∃ written, Writes (named key body) written := by
  obtain ⟨written,inner⟩ := writes
  obtain ⟨units,member⟩ := inner.member key
  exact ⟨_,(WritesMembers.last member).obj (List.cons_ne_nil _ _)⟩

theorem condition_writes (asked : Condition) : ∃ written, Writes (conditionJson asked) written := by
  cases asked with
  | text field value => exact named_writes _ (named_writes _ (Writes.str value))
  | term field value => exact named_writes _ (named_writes _ (Writes.str value))
  | range field bound value => exact named_writes _ (named_writes _ (named_writes _ (Writes.str value)))
  | terms field values => exact named_writes _ (named_writes _ (Writes.texts values))

mutual
theorem toJson_writes : (query : Query) → ∃ written, Writes query.toJson written
  | .condition asked => condition_writes asked
  | .negated inner => by
    refine named_writes _ (named_writes _ (Writes.arr _ ?_))
    intro item member
    rw [List.mem_singleton.mp member]
    exact toJson_writes inner
  | .joined op parts => named_writes _ (named_writes _ (Writes.arr _ (partsJson_writes parts)))
theorem partsJson_writes : (parts : List Query) → ∀ item ∈ partsJson parts, ∃ written, Writes item written
  | [],_,member => nomatch member
  | first :: rest,item,member => by
    rcases List.mem_cons.mp member with rfl | later
    · exact toJson_writes first
    · exact partsJson_writes rest item later
end

theorem toJson_inj {one other : Query} (same : one.toJson = other.toJson) : one = other := by
  have back := json_roundtrip one
  rw [same,json_roundtrip] at back
  exact (Except.ok.inj back).symm

theorem text_identifies (one other : Query) :
    (one.toJson.compact = other.toJson.compact ↔ one = other) ∧
    (one.toJson.pretty = other.toJson.pretty ↔ one = other) ∧
    Json.squeezed one.toJson.pretty = one.toJson.compact := by
  obtain ⟨written,writes⟩ := one.toJson_writes
  obtain ⟨others,differently⟩ := other.toJson_writes
  refine ⟨⟨?_,congrArg fun query : Query => query.toJson.compact⟩,⟨?_,congrArg fun query : Query => query.toJson.pretty⟩,
    writes.pretty_squeezed⟩
  · intro same
    have element := writes.compact_element
    rw [same] at element
    exact toJson_inj (writes.text_unique differently element differently.compact_element)
  · intro same
    have element := writes.pretty_element
    rw [same] at element
    exact toJson_inj (writes.text_unique differently element differently.pretty_element)

example : Json.squeezed (text "a b" "\" ]").toJson.pretty = "\x7b\"match\":\x7b\"a b\":\"\\\" ]\"\x7d\x7d" := by decide

end FilterQuery.Query
