import FilterQuery.Compile
import FilterQuery.Proofs.Numbering
import FilterQuery.Proofs.Outcome

namespace FilterQuery.Leaf
open Outcome

-- The characters that always belong to a symbol; a '!' does only in front of
-- two of them.
def marks : List Char := ['<','>','=','~']

abbrev Unmarked (text : List Char) : Prop := ∀ c ∈ text, c ∉ marks

theorem symbol_marked (comparison : Comparison) : ¬ Unmarked comparison.symbol.toList := by
  intro unmarked
  cases comparison with
  | equal | notEqual | atLeast | atMost => exact unmarked '=' (by decide) (by decide)
  | above => exact unmarked '>' (by decide) (by decide)
  | below => exact unmarked '<' (by decide) (by decide)
  | among | notAmong => exact unmarked '~' (by decide) (by decide)

theorem symbolAt_none (c : Char) (rest : List Char) : symbolAt? (c :: rest) = none ↔
    c ∉ marks ∧ (c = '!' → rest.head? ≠ some '=' ∧ rest.head? ≠ some '~') := by
  cases rest with
  | nil =>
    unfold symbolAt?
    constructor
    · intro absent
      split at absent
      all_goals simp_all [marks]
    · rintro ⟨unmarked,_⟩
      split
      all_goals simp_all [marks]
  | cons d more =>
    unfold symbolAt?
    constructor
    · intro absent
      split at absent
      all_goals simp_all [marks]
    · rintro ⟨unmarked,alone⟩
      split
      all_goals simp_all [marks]

theorem symbolAt_exact (text symbol after : List Char) : symbolAt? text = some (symbol,after) ↔
    ∃ comparison : Comparison, symbol = comparison.symbol.toList ∧ text = symbol ++ after ∧
      (comparison = .below ∨ comparison = .above → after.head? ≠ some '=') := by
  constructor
  · intro found
    have whole := symbolAt_consumes text symbol after found
    unfold symbolAt? at found
    split at found
    · cases found; exact ⟨.notEqual,rfl,whole,by simp⟩
    · cases found; exact ⟨.notAmong,rfl,whole,by simp⟩
    · cases found; exact ⟨.atMost,rfl,whole,by simp⟩
    · cases found; exact ⟨.atLeast,rfl,whole,by simp⟩
    · rename_i longer
      cases found
      refine ⟨.below,rfl,whole,?_⟩
      intro _ follows
      obtain ⟨rest,rfl⟩ := List.head?_eq_some_iff.mp follows
      exact longer rest rfl
    · rename_i longer
      cases found
      refine ⟨.above,rfl,whole,?_⟩
      intro _ follows
      obtain ⟨rest,rfl⟩ := List.head?_eq_some_iff.mp follows
      exact longer rest rfl
    · cases found; exact ⟨.equal,rfl,whole,by simp⟩
    · cases found; exact ⟨.among,rfl,whole,by simp⟩
    · cases found
  · rintro ⟨comparison,rfl,rfl,longest⟩
    cases comparison with
    | below | above =>
      cases after with
      | nil => rfl
      | cons c rest =>
        have differ : c ≠ '=' := by simpa using longest
        simp [Comparison.symbol,symbolAt?,differ]
    | equal | notEqual | atLeast | atMost | among | notAmong => rfl

theorem findSymbol_none (text : List Char) : findSymbol? text = none ↔ Unmarked text := by
  induction text with
  | nil => exact ⟨fun _ => List.forall_mem_nil _,fun _ => rfl⟩
  | cons c rest ih =>
    rw [findSymbol?]
    constructor
    · intro absent
      split at absent
      · cases absent
      · rename_i missing
        have later := ih.mp (Option.map_eq_none_iff.mp absent)
        exact List.forall_mem_cons.mpr ⟨((symbolAt_none c rest).mp missing).1,later⟩
    · intro unmarked
      obtain ⟨here,later⟩ := List.forall_mem_cons.mp unmarked
      have missing : symbolAt? (c :: rest) = none := by
        refine (symbolAt_none c rest).mpr ⟨here,?_⟩
        intro _
        constructor
        · intro follows
          exact absurd (later _ (List.mem_of_mem_head? follows)) (by decide)
        · intro follows
          exact absurd (later _ (List.mem_of_mem_head? follows)) (by decide)
      rw [missing]
      exact Option.map_eq_none_iff.mpr (ih.mpr later)

-- A '!' in front of the text that a symbol is found in does not belong to it,
-- unless it is the last character before a symbol that it makes longer.
theorem bang_tail {comparison : Comparison} {c : Char} {earlier : List Char}
    (bang : comparison = .equal ∨ comparison = .among → (c :: earlier).getLast? ≠ some '!') :
    comparison = .equal ∨ comparison = .among → earlier.getLast? ≠ some '!' := by
  intro short last
  cases earlier with
  | nil => cases last
  | cons d ds => exact bang short (by simpa using last)

theorem bang_alone {comparison : Comparison} {earlier after : List Char} (unmarked : Unmarked earlier)
    (bang : comparison = .equal ∨ comparison = .among → ('!' :: earlier).getLast? ≠ some '!') :
    (earlier ++ (comparison.symbol.toList ++ after)).head? ≠ some '=' ∧
      (earlier ++ (comparison.symbol.toList ++ after)).head? ≠ some '~' := by
  cases earlier with
  | cons d ds =>
    have plain := unmarked d List.mem_cons_self
    constructor
    · intro head; cases head; exact absurd plain (by decide)
    · intro head; cases head; exact absurd plain (by decide)
  | nil =>
    cases comparison with
    | equal => exact absurd rfl (bang (.inl rfl))
    | among => exact absurd rfl (bang (.inr rfl))
    | notEqual | above | atLeast | below | atMost | notAmong =>
      constructor
      · intro head; cases head
      · intro head; cases head

theorem findSymbol_exact (text before symbol after : List Char) :
    findSymbol? text = some (before,symbol,after) ↔
      ∃ comparison : Comparison, symbol = comparison.symbol.toList ∧ text = before ++ (symbol ++ after) ∧
        Unmarked before ∧ (comparison = .equal ∨ comparison = .among → before.getLast? ≠ some '!') ∧
        (comparison = .below ∨ comparison = .above → after.head? ≠ some '=') := by
  induction text generalizing before with
  | nil =>
    constructor
    · intro found; cases found
    · rintro ⟨comparison,rfl,split,_⟩
      have bare := (List.append_eq_nil_iff.mp (List.append_eq_nil_iff.mp split.symm).2).1
      exact absurd (fun c member => by rw [bare] at member; cases member) (symbol_marked comparison)
  | cons c rest ih =>
    rw [findSymbol?]
    constructor
    · intro found
      split at found
      · rename_i atHead
        cases found
        obtain ⟨comparison,same,split,longest⟩ := (symbolAt_exact _ _ _).mp atHead
        exact ⟨comparison,same,split,List.forall_mem_nil _,by simp,longest⟩
      · rename_i missing
        obtain ⟨⟨earlier,mark,later⟩,inRest,equal⟩ := Option.map_eq_some_iff.mp found
        cases equal
        obtain ⟨comparison,rfl,split,unmarked,bang,longest⟩ := (ih earlier).mp inRest
        obtain ⟨here,alone⟩ := (symbolAt_none c rest).mp missing
        refine ⟨comparison,rfl,by rw [split]; rfl,List.forall_mem_cons.mpr ⟨here,unmarked⟩,?_,longest⟩
        intro short last
        cases earlier with
        | cons d ds => exact bang short (by simpa using last)
        | nil =>
          -- A '!' right in front would have begun the symbol.
          obtain ⟨notEqual,notAmong⟩ := alone (by simpa using last)
          rw [split] at notEqual notAmong
          rcases short with rfl | rfl
          · exact notEqual rfl
          · exact notAmong rfl
    · rintro ⟨comparison,rfl,whole,unmarked,bang,longest⟩
      cases before with
      | nil =>
        have atHead := (symbolAt_exact _ _ _).mpr ⟨comparison,rfl,whole,longest⟩
        rw [atHead]
      | cons d earlier =>
        obtain ⟨rfl,tail⟩ := List.cons.inj whole
        obtain ⟨here,later⟩ := List.forall_mem_cons.mp unmarked
        have inRest := (ih earlier).mpr ⟨comparison,rfl,tail,later,bang_tail bang,longest⟩
        have missing : symbolAt? (c :: rest) = none := by
          refine (symbolAt_none c rest).mpr ⟨here,?_⟩
          rintro rfl
          rw [tail]
          exact bang_alone later bang
        rw [missing,inRest]
        rfl

theorem split_exact (leaf : String) (parts : Parts) : split leaf = .ok parts ↔
    ∃ comparison : Comparison, parts.symbol = comparison.symbol ∧
      leaf = parts.field ++ (parts.symbol ++ parts.value) ∧
      Unmarked parts.field.toList ∧ Unmarked parts.value.toList ∧
      (comparison = .equal ∨ comparison = .among → parts.field.toList.getLast? ≠ some '!') := by
  unfold split
  constructor
  · intro found
    split at found
    · cases found
    · rename_i before symbol after found'
      split at found
      · cases found
      · rename_i single
        cases found
        obtain ⟨comparison,rfl,whole,unmarked,bang,_⟩ := (findSymbol_exact _ _ _ _).mp found'
        have rest := (findSymbol_none after).mp (by simpa using single)
        refine ⟨comparison,by simp,?_,by simpa using unmarked,by simpa using rest,by simpa using bang⟩
        rw [← String.toList_inj]
        simpa using whole
  · obtain ⟨field,symbol,value⟩ := parts
    rintro ⟨comparison,rfl,rfl,before,after,bang⟩
    have longest : comparison = .below ∨ comparison = .above → value.toList.head? ≠ some '=' := by
      intro _ follows
      exact absurd (after _ (List.mem_of_mem_head? follows)) (by decide)
    have leftmost := (findSymbol_exact _ _ _ _).mpr ⟨comparison,rfl,rfl,before,bang,longest⟩
    have single := (findSymbol_none value.toList).mpr after
    simp [leftmost,single]

theorem read_parts (leaf : String) (query : Query) : read leaf = .ok query ↔
    ∃ field value, ∃ comparison : Comparison, split leaf = .ok ⟨field,comparison.symbol,value⟩ ∧
      comparison.query field value = .ok query := by
  constructor
  · intro found
    obtain ⟨⟨field,symbol,value⟩,parts,found⟩ := (bind_ok _).mp found
    obtain ⟨comparison,parsed,found⟩ := (bind_ok _).mp found
    unfold Comparison.parse at parsed
    split at parsed
    · rename_i known
      cases parsed
      obtain rfl := (Comparison.ofSymbol_exact symbol comparison).mp known
      exact ⟨field,value,comparison,parts,found⟩
    · cases parsed
  · rintro ⟨field,value,comparison,parts,found⟩
    have known := (Comparison.ofSymbol_exact comparison.symbol comparison).mpr rfl
    simp [read,parts,Comparison.parse,known,found]

theorem symbol_inj {one other : Comparison} (same : one.symbol = other.symbol) : one = other := by
  have first := (Comparison.ofSymbol_exact one.symbol one).mpr rfl
  have second := (Comparison.ofSymbol_exact one.symbol other).mpr same.symm
  exact Option.some.inj (first.symm.trans second)

theorem read_exact (leaf : String) (query : Query) : read leaf = .ok query ↔
    ∃ field value, ∃ comparison : Comparison, leaf = field ++ (comparison.symbol ++ value) ∧
      Unmarked field.toList ∧ Unmarked value.toList ∧
      (comparison = .equal ∨ comparison = .among → field.toList.getLast? ≠ some '!') ∧
      comparison.query field value = .ok query := by
  rw [read_parts]
  constructor
  · rintro ⟨field,value,comparison,parts,found⟩
    obtain ⟨same,symbol,whole,before,after,bang⟩ := (split_exact leaf _).mp parts
    obtain rfl := symbol_inj symbol
    exact ⟨field,value,comparison,whole,before,after,bang,found⟩
  · rintro ⟨field,value,comparison,whole,before,after,bang,found⟩
    exact ⟨field,value,comparison,(split_exact leaf _).mpr ⟨comparison,rfl,whole,before,after,bang⟩,found⟩

theorem read_plain {word : String} {query : Query} (found : read word = .ok query) : Lexeme.Plain word := by
  intro listed
  have structural : ∀ text ∈ Lexeme.structural.map Lexeme.text, ¬ ∃ query, read text = .ok query := by decide
  exact structural word listed ⟨query,found⟩

theorem among_terms {field value : String} {query : Query} (found : among field value = .ok query) :
    ∃ values, listValues? value = some values ∧ query = .terms field values := by
  unfold among at found
  split at found
  · cases found
  · rename_i values listed
    cases found
    exact ⟨values,listed,rfl⟩

theorem notAmong_terms {field value : String} {query : Query} (found : notAmong field value = .ok query) :
    ∃ values, listValues? value = some values ∧ query = .negated (.terms field values) := by
  obtain ⟨inner,listed,found⟩ := (bind_ok _).mp found
  cases found
  obtain ⟨values,read,rfl⟩ := among_terms listed
  exact ⟨values,read,rfl⟩

-- The query that `equal` gives: no value is refused.
def sought (field value : String) : Query :=
  if '"' ∈ value.toList then .term field (.ofList (value.toList.filter (· ≠ '"')))
  else .text field value

theorem equal_total (field value : String) : equal field value = .ok (sought field value) := by
  unfold equal sought
  split
  · rfl
  · rfl

theorem equal_sought {field value : String} {query : Query} (found : equal field value = .ok query) :
    query = sought field value := by
  rw [equal_total] at found
  exact (Except.ok.inj found).symm

theorem sought_single (field value : String) : ∃ asked, sought field value = .condition asked := by
  unfold sought
  split
  · exact ⟨_,rfl⟩
  · exact ⟨_,rfl⟩

-- The leaves that ask for a negation.
def negates (leaf : String) : Bool :=
  match split leaf with
  | .ok parts => parts.symbol == Comparison.notEqual.symbol || parts.symbol == Comparison.notAmong.symbol
  | .error _ => false

theorem read_single {leaf : String} {query : Query} (found : read leaf = .ok query) :
    ∃ asked, query = if negates leaf then .negated (.condition asked) else .condition asked := by
  obtain ⟨field,value,comparison,parts,found⟩ := (read_parts leaf query).mp found
  have sign : negates leaf = (comparison.symbol == "!=" || comparison.symbol == "!~") := by
    simp [negates,parts,Comparison.symbol]
  rw [sign]
  cases comparison with
  | equal =>
    obtain rfl := equal_sought found
    exact sought_single field value
  | notEqual => cases found; exact ⟨_,rfl⟩
  | above | atLeast | below | atMost => cases found; exact ⟨_,rfl⟩
  | among => obtain ⟨values,_,rfl⟩ := among_terms found; exact ⟨_,rfl⟩
  | notAmong => obtain ⟨values,_,rfl⟩ := notAmong_terms found; exact ⟨_,rfl⟩

end FilterQuery.Leaf

namespace FilterQuery.Reading

-- The query that `broadcast` gives, whatever the fields are.
def anywhere (fields : List String) (value : String) : Query :=
  .joined .or (fields.map fun field => Leaf.sought field value)

theorem broadcast_total (fields : List String) (value : String) :
    broadcast fields value = .ok (anywhere fields value) := by
  have each : fields.mapM (fun field => Leaf.equal field value) =
      (pure (fields.map fun field => Leaf.sought field value) : Except Leaf.Fault _) := by
    rw [← List.mapM_pure]
    exact congrArg fields.mapM (funext fun field => Leaf.equal_total field value)
  rw [broadcast,each]
  rfl

theorem leaf_valueOnly (fields : List String) (text : String) :
    (valueOnly fields).leaf text = .ok (anywhere fields text) := broadcast_total fields text

end FilterQuery.Reading
