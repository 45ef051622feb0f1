import FilterQuery.Proofs.Conditions
import FilterQuery.Proofs.Expression
import FilterQuery.Proofs.LeafSyntax

namespace FilterQuery
open Outcome

namespace Leaf

def Unlisted (item : String) : Prop := Unmarked item.toList ∧ ',' ∉ item.toList

-- A field in front of a symbol that a '!' would make longer.
def Closed (field : String) : Prop := Unmarked field.toList ∧ field.toList.getLast? ≠ some '!'

-- The queries that leaves have.
inductive Image : Query → Prop where
  | text (field value : String) (named : Closed field) (plain : Unmarked value.toList) (unquoted : '"' ∉ value.toList) :
      Image (.text field value)
  | term (field value : String) (named : Closed field) (plain : Unmarked value.toList) (unquoted : '"' ∉ value.toList) :
      Image (.term field value)
  | range (field : String) (bound : Bound) (value : String) (named : Unmarked field.toList)
      (plain : Unmarked value.toList) : Image (.range field bound value)
  | terms (field : String) (values : List String) (named : Closed field) (present : values ≠ [])
      (items : ∀ item ∈ values, Unlisted item) : Image (.terms field values)
  | notTerm (field value : String) (named : Unmarked field.toList) (plain : Unmarked value.toList) :
      Image (.negated (.term field value))
  | notTerms (field : String) (values : List String) (named : Unmarked field.toList) (present : values ≠ [])
      (items : ∀ item ∈ values, Unlisted item) : Image (.negated (.terms field values))

theorem sought_image {field value : String} (named : Closed field) (plain : Unmarked value.toList) :
    Image (sought field value) := by
  unfold sought
  split
  · have kept : ∀ c ∈ value.toList.filter (· ≠ '"'), c ∈ value.toList ∧ c ≠ '"' := by simp
    refine .term _ _ named ?_ ?_
    · rw [String.toList_ofList]
      exact fun c member => plain c (kept c member).1
    · rw [String.toList_ofList]
      exact fun member => (kept _ member).2 rfl
  · rename_i unquoted
    exact .text _ _ named plain unquoted

theorem listed_items {value : String} {values : List String} (plain : Unmarked value.toList)
    (listed : listValues? value = some values) : values ≠ [] ∧ ∀ item ∈ values, Unlisted item := by
  obtain ⟨present,free,first,last,_,_,chars⟩ := (listValues_exact value values).mp listed
  refine ⟨present,?_⟩
  intro item member
  refine ⟨?_,free item member⟩
  intro c inside
  have joined : c ∈ (",".intercalate values).toList := by
    rw [String.toList_intercalate]
    exact Text.intercalate_mem _ (List.mem_map_of_mem member) inside
  exact plain c (by rw [chars]; exact List.mem_cons_of_mem _ (List.mem_append_left _ joined))

theorem read_image {leaf : String} {query : Query} (found : read leaf = .ok query) : Image query := by
  obtain ⟨field,value,comparison,_,named,plain,bang,found⟩ := (read_exact leaf query).mp found
  cases comparison with
  | equal =>
    obtain rfl := equal_sought found
    exact sought_image ⟨named,bang (.inl rfl)⟩ plain
  | notEqual => cases found; exact .notTerm _ _ named plain
  | above | atLeast | below | atMost => cases found; exact .range _ _ _ named plain
  | among =>
    obtain ⟨values,listed,rfl⟩ := among_terms found
    obtain ⟨present,items⟩ := listed_items plain listed
    exact .terms _ _ ⟨named,bang (.inr rfl)⟩ present items
  | notAmong =>
    obtain ⟨values,listed,rfl⟩ := notAmong_terms found
    obtain ⟨present,items⟩ := listed_items plain listed
    exact .notTerms _ _ named present items

def bracketed (values : List String) : String := "[" ++ (",".intercalate values ++ "]")

theorem listValues_bracketed {values : List String} (present : values ≠ []) (items : ∀ item ∈ values, Unlisted item) :
    listValues? (bracketed values) = some values := by
  refine (listValues_exact _ _).mpr ⟨present,fun item member => (items item member).2,'[',']',rfl,rfl,?_⟩
  simp [bracketed]

theorem bracketed_unmarked {values : List String} (items : ∀ item ∈ values, Unlisted item) :
    Unmarked (bracketed values).toList := by
  intro c member
  simp only [bracketed,String.toList_append,List.mem_append] at member
  rcases member with opens | joined | closes
  · obtain rfl : c = '[' := by simpa using opens
    decide
  · rw [String.toList_intercalate] at joined
    rcases Text.mem_intercalate joined with comma | ⟨part,listed,inside⟩
    · obtain rfl : c = ',' := by simpa using comma
      decide
    · obtain ⟨item,member,rfl⟩ := List.mem_map.mp listed
      exact (items item member).1 c inside
  · obtain rfl : c = ']' := by simpa using closes
    decide

def quoted (value : String) : String := "\"" ++ (value ++ "\"")

theorem quoted_unmarked {value : String} (plain : Unmarked value.toList) : Unmarked (quoted value).toList := by
  intro c member
  simp only [quoted,String.toList_append,List.mem_append] at member
  rcases member with opens | inside | closes
  · obtain rfl : c = '"' := by simpa using opens
    decide
  · exact plain c inside
  · obtain rfl : c = '"' := by simpa using closes
    decide

theorem sought_quoted (field : String) {value : String} (unquoted : '"' ∉ value.toList) :
    sought field (quoted value) = .term field value := by
  have marked : '"' ∈ (quoted value).toList := by simp [quoted]
  have stripped : (quoted value).toList.filter (· ≠ '"') = value.toList := by
    simp only [quoted,String.toList_append,List.filter_append]
    rw [List.filter_eq_self.mpr fun c member => decide_eq_true (ne_of_mem_of_not_mem member unquoted)]
    simp
  rw [sought,if_pos marked,stripped,String.ofList_toList]

def comparisonOf : Bound → Comparison
  | .gt => .above
  | .gte => .atLeast
  | .lt => .below
  | .lte => .atMost

theorem image_read {query : Query} (image : Image query) : ∃ leaf, read leaf = .ok query := by
  cases image with
  | text field value named plain unquoted =>
    refine ⟨_,(read_exact _ _).mpr ⟨field,value,.equal,rfl,named.1,plain,fun _ => named.2,?_⟩⟩
    simp [Comparison.query,equal_total,sought,unquoted]
  | term field value named plain unquoted =>
    refine ⟨_,(read_exact _ _).mpr ⟨field,quoted value,.equal,rfl,named.1,quoted_unmarked plain,fun _ => named.2,?_⟩⟩
    rw [Comparison.query,equal_total,sought_quoted field unquoted]
  | range field bound value named plain =>
    refine ⟨_,(read_exact _ _).mpr ⟨field,value,comparisonOf bound,rfl,named,plain,?_,?_⟩⟩
    · cases bound <;> simp [comparisonOf]
    · cases bound <;> rfl
  | terms field values named present items =>
    refine ⟨_,(read_exact _ _).mpr
      ⟨field,bracketed values,.among,rfl,named.1,bracketed_unmarked items,fun _ => named.2,?_⟩⟩
    simp [Comparison.query,among,listValues_bracketed present items]
  | notTerm field value named plain =>
    exact ⟨_,(read_exact _ _).mpr ⟨field,value,.notEqual,rfl,named,plain,by simp,rfl⟩⟩
  | notTerms field values named present items =>
    refine ⟨_,(read_exact _ _).mpr ⟨field,bracketed values,.notAmong,rfl,named,bracketed_unmarked items,by simp,?_⟩⟩
    simp [Comparison.query,notAmong,among,listValues_bracketed present items]

end Leaf

-- The queries that filters have: what leaves ask for, joined two at a time.
inductive Query.Writable : Query → Prop where
  | leaf (asked : Leaf.Image query) : Writable query
  | joined (op : Connective) (left : Writable first) (right : Writable second) : Writable (.joined op [first,second])

theorem Combination.query_writable {combination : Combination} {query : Query}
    (found : combination.query .keyValue = .ok query) : query.Writable := by
  induction combination generalizing query with
  | leaf position text => exact .leaf (Leaf.read_image (query_leaf found))
  | joined position op left right leftIh rightIh =>
    obtain ⟨first,second,one,other,rfl⟩ := query_joined found
    exact .joined op (leftIh one) (rightIh other)

section
variable {reading : Reading}

theorem Operand.joined_query {left right : Operand} {first second : Query} (op : Connective)
    (one : ∀ start, (left.combination start).query reading = .ok first)
    (other : ∀ start, (right.combination start).query reading = .ok second) (start : Nat) :
    ((Operand.group .round (.chain left op (.single right))).combination start).query reading =
      .ok (.joined op [first,second]) := by
  simp [combination,Expression.combination,Combination.query,one,other]

theorem Operand.query_words {operand : Operand} {query : Query} (fields : reading.hasFields = true)
    (written : ∀ start, (operand.combination start).query reading = .ok query) :
    ∃ words, compileWords reading words = .ok query := by
  refine ⟨(Expression.single operand).words,?_⟩
  rw [Expression.compile_combination _ _ fields]
  exact written 0

end

theorem Query.Writable.operand {query : Query} (writable : query.Writable) :
    ∃ operand : Operand, ∀ start, (operand.combination start).query .keyValue = .ok query := by
  induction writable with
  | leaf asked =>
    obtain ⟨word,read⟩ := Leaf.image_read asked
    refine ⟨.leaf ⟨word,Leaf.read_plain read⟩,?_⟩
    intro start
    simp [Operand.combination,Combination.query,Reading.leaf,read]
  | joined op left right leftIh rightIh =>
    obtain ⟨first,firstQuery⟩ := leftIh
    obtain ⟨second,secondQuery⟩ := rightIh
    exact ⟨_,Operand.joined_query op firstQuery secondQuery⟩

theorem compile_writable (query : Query) :
    (∃ words, compileWords .keyValue words = .ok query) ↔ query.Writable := by
  constructor
  · rintro ⟨words,compiled⟩
    obtain ⟨combination,found,_⟩ := compiled_combination compiled
    exact combination.query_writable found
  · intro writable
    obtain ⟨operand,written⟩ := writable.operand
    refine ⟨(Expression.single operand).words,?_⟩
    rw [Expression.compile_combination _ _ rfl]
    exact written 0

-- The queries that filters of bare values have over the given fields: one value
-- asked of all fields in the same way, joined two at a time. A value that is
-- searched for as text cannot be a structural word, one in quotes can. Neither has
-- a quote left in it.
inductive Query.Searching (fields : List String) : Query → Prop where
  | text (value : String) (plain : Lexeme.Plain value) (unquoted : '"' ∉ value.toList) :
      Searching fields (.joined .or (fields.map fun field => .text field value))
  | term (value : String) (unquoted : '"' ∉ value.toList) :
      Searching fields (.joined .or (fields.map fun field => .term field value))
  | joined (op : Connective) (left : Searching fields first) (right : Searching fields second) :
      Searching fields (.joined op [first,second])

theorem Leaf.sought_unquoted (field : String) {value : String} (unquoted : '"' ∉ value.toList) :
    sought field value = .text field value := by
  rw [sought,if_neg unquoted]

theorem Leaf.quoted_plain (value : String) : Lexeme.Plain (quoted value) := by
  have unquoted : ∀ text ∈ Lexeme.structural.map Lexeme.text, '"' ∉ text.toList := by decide
  intro listed
  exact unquoted _ listed (by simp [quoted])

namespace Reading

theorem anywhere_unquoted (fields : List String) {value : String} (unquoted : '"' ∉ value.toList) :
    anywhere fields value = .joined .or (fields.map fun field => .text field value) := by
  simp only [anywhere,Leaf.sought_unquoted _ unquoted]

theorem anywhere_quoted (fields : List String) {value : String} (unquoted : '"' ∉ value.toList) :
    anywhere fields (Leaf.quoted value) = .joined .or (fields.map fun field => .term field value) := by
  simp only [anywhere,Leaf.sought_quoted _ unquoted]

theorem anywhere_searching (fields : List String) {value : String} (plain : Lexeme.Plain value) :
    (anywhere fields value).Searching fields := by
  by_cases marked : '"' ∈ value.toList
  · have stripped : '"' ∉ (String.ofList (value.toList.filter (· ≠ '"'))).toList := by simp
    have terms : anywhere fields value =
        .joined .or (fields.map fun field => .term field (.ofList (value.toList.filter (· ≠ '"')))) := by
      simp only [anywhere,Leaf.sought,if_pos marked]
    rw [terms]
    exact .term _ stripped
  · rw [anywhere_unquoted fields marked]
    exact .text value plain marked

end Reading

theorem Combination.query_searching {combination : Combination} {fields : List String} {query : Query}
    (plain : ∀ leaf ∈ Token.leaves combination.listing, Lexeme.Plain leaf.2)
    (found : combination.query (.valueOnly fields) = .ok query) : query.Searching fields := by
  induction combination generalizing query with
  | leaf position text =>
    cases (Reading.leaf_valueOnly fields text).symm.trans (query_leaf found)
    exact Reading.anywhere_searching fields (plain (position,text) List.mem_cons_self)
  | joined position op left right leftIh rightIh =>
    obtain ⟨first,second,one,other,rfl⟩ := query_joined found
    rw [leaves_joined] at plain
    obtain ⟨onLeft,onRight⟩ := List.forall_mem_append.mp plain
    exact .joined op (leftIh onLeft one) (rightIh onRight other)

theorem Operand.leaf_query (fields : List String) (word : LeafWord) (start : Nat) :
    ((leaf word).combination start).query (.valueOnly fields) = .ok (Reading.anywhere fields word.1) := by
  simp [combination,Combination.query,Reading.leaf_valueOnly]

theorem Query.Searching.operand {fields : List String} {query : Query} (searching : query.Searching fields) :
    ∃ operand : Operand, ∀ start, (operand.combination start).query (.valueOnly fields) = .ok query := by
  induction searching with
  | text value plain unquoted =>
    refine ⟨.leaf ⟨value,plain⟩,?_⟩
    intro start
    rw [Operand.leaf_query,Reading.anywhere_unquoted fields unquoted]
  | term value unquoted =>
    refine ⟨.leaf ⟨Leaf.quoted value,Leaf.quoted_plain value⟩,?_⟩
    intro start
    rw [Operand.leaf_query,Reading.anywhere_quoted fields unquoted]
  | joined op left right leftIh rightIh =>
    obtain ⟨first,firstQuery⟩ := leftIh
    obtain ⟨second,secondQuery⟩ := rightIh
    exact ⟨_,Operand.joined_query op firstQuery secondQuery⟩

theorem compile_searching (fields : List String) (present : fields ≠ []) (query : Query) :
    (∃ words, compileWords (.valueOnly fields) words = .ok query) ↔ query.Searching fields := by
  have asked := (Reading.hasFields_valueOnly fields).mpr present
  constructor
  · intro compiles
    obtain ⟨words,compiled⟩ := compiles
    obtain ⟨combination,found,leaves,_⟩ := compiled_combination compiled
    refine combination.query_searching ?_ found
    intro leaf member
    have listed : leaf.2 ∈ Token.leafWords words := leaves ▸ List.mem_map_of_mem member
    exact of_decide_eq_true (List.mem_filter.mp listed).2
  · intro searching
    obtain ⟨operand,written⟩ := searching.operand
    exact Operand.query_words asked written

theorem searching_structural :
    (∃ words, compileWords (.valueOnly ["f","g"]) words = .ok (.joined .or [.term "f" "and",.term "g" "and"])) ∧
    ¬ ∃ words, compileWords (.valueOnly ["f","g"]) words = .ok (.joined .or [.text "f" "and",.text "g" "and"]) := by
  constructor
  · exact (compile_searching ["f","g"] (by decide) _).mpr (.term "and" (by decide))
  · rw [compile_searching ["f","g"] (by decide)]
    intro searching
    generalize same : Query.joined .or [.text "f" "and",.text "g" "and"] = query at searching
    cases searching with
    | text value plain unquoted => cases same; exact plain (by decide)
    | term value unquoted => cases same
    | joined op left right => cases same; cases left

end FilterQuery
