import FilterQuery.Proofs.LeafParts
import FilterQuery.Proofs.Tokenizing

namespace FilterQuery.Leaf
open Outcome

-- A leaf made of a field, one of the symbols and a value. Neither side holds a
-- mark, and no '!' that would make the symbol longer stands in front of it.
structure Parts.Make (leaf : String) (parts : Parts) : Prop where
  known : ∃ comparison : Comparison, parts.symbol = comparison.symbol
  whole : leaf = parts.field ++ (parts.symbol ++ parts.value)
  field : Unmarked parts.field.toList
  value : Unmarked parts.value.toList
  alone : parts.symbol = "=" ∨ parts.symbol = "~" → parts.field.toList.getLast? ≠ some '!'

theorem short_symbol (comparison : Comparison) :
    (comparison.symbol = "=" ∨ comparison.symbol = "~") ↔ (comparison = .equal ∨ comparison = .among) := by
  constructor
  · intro short
    rcases short with one | other
    · exact .inl (symbol_inj one)
    · exact .inr (symbol_inj other)
  · intro short
    rcases short with rfl | rfl
    · exact .inl rfl
    · exact .inr rfl

theorem split_make (leaf : String) (parts : Parts) : split leaf = .ok parts ↔ parts.Make leaf := by
  constructor
  · intro found
    obtain ⟨comparison,symbol,whole,field,value,alone⟩ := (split_exact leaf parts).mp found
    refine ⟨⟨comparison,symbol⟩,whole,field,value,?_⟩
    rw [symbol,short_symbol]
    exact alone
  · intro made
    obtain ⟨⟨comparison,symbol⟩,whole,field,value,alone⟩ := made
    rw [symbol,short_symbol] at alone
    exact (split_exact leaf parts).mpr ⟨comparison,symbol,whole,field,value,alone⟩

theorem make_unique {leaf : String} {one other : Parts} (first : one.Make leaf) (second : other.Make leaf) :
    one = other := by
  have found := (split_make leaf one).mpr first
  rw [(split_make leaf other).mpr second] at found
  exact (Except.ok.inj found).symm

theorem split_unmarked (leaf : String) : split leaf = .error .noOperator ↔ Unmarked leaf.toList := by
  rw [← findSymbol_none]
  unfold split
  constructor
  · intro failed
    split at failed
    · assumption
    · split at failed
      · cases failed
      · cases failed
  · intro missing
    rw [missing]

theorem split_fault {leaf : String} {fault : Fault} (failed : split leaf = .error fault) :
    fault = .noOperator ∨ fault = .severalOperators := by
  unfold split at failed
  split at failed
  · cases failed; exact .inl rfl
  · split at failed
    · cases failed; exact .inr rfl
    · cases failed

theorem split_several (leaf : String) : split leaf = .error .severalOperators ↔
    ¬ Unmarked leaf.toList ∧ ¬ ∃ parts : Parts, parts.Make leaf := by
  constructor
  · intro failed
    constructor
    · intro unmarked
      rw [(split_unmarked leaf).mpr unmarked] at failed
      cases failed
    · intro found
      obtain ⟨parts,made⟩ := found
      rw [(split_make leaf parts).mpr made] at failed
      cases failed
  · intro crowded
    obtain ⟨marked,apart⟩ := crowded
    cases found : split leaf with
    | ok parts => exact absurd ⟨parts,(split_make leaf parts).mp found⟩ apart
    | error fault =>
      rcases split_fault found with rfl | rfl
      · exact absurd ((split_unmarked leaf).mp found) marked
      · rfl

theorem split_told (leaf : String) {fault : Fault} (possible : fault = .noOperator ∨ fault = .severalOperators) :
    (split leaf).mapError Fault.message = .error fault.message ↔ split leaf = .error fault := by
  constructor
  · intro told
    cases found : split leaf with
    | ok parts => rw [found] at told; cases told
    | error cause =>
      rw [found] at told
      have same : cause.message = fault.message := Except.error.inj told
      rcases split_fault found with rfl | rfl
      · rcases possible with rfl | rfl
        · rfl
        · exact absurd same (by decide)
      · rcases possible with rfl | rfl
        · exact absurd same (by decide)
        · rfl
  · intro failed
    rw [failed,mapError_error]

theorem parse_known {symbol : String} {comparison : Comparison} (known : symbol = comparison.symbol) :
    Comparison.parse symbol = .ok comparison := by
  rw [Comparison.parse,(Comparison.ofSymbol_exact symbol comparison).mpr known.symm]

theorem query_fault {comparison : Comparison} {field value : String} {fault : Fault}
    (failed : comparison.query field value = .error fault) : fault = .unbracketedList := by
  have listed : ∀ {fault : Fault}, among field value = .error fault → fault = .unbracketedList := by
    intro fault failed
    unfold among at failed
    split at failed
    · cases failed; rfl
    · cases failed
  cases comparison with
  | equal => cases (equal_total field value).symm.trans failed
  | notEqual | above | atLeast | below | atMost => cases failed
  | among => exact listed failed
  | notAmong =>
    simp only [Comparison.query,notAmong] at failed
    cases read : among field value with
    | ok query => rw [read] at failed; cases failed
    | error cause => rw [read] at failed; cases failed; exact listed read

theorem read_fault {leaf : String} {fault : Fault} (failed : read leaf = .error fault) :
    fault = .noOperator ∨ fault = .severalOperators ∨ fault = .unbracketedList := by
  unfold read at failed
  cases found : split leaf with
  | error cause =>
    rw [found] at failed
    cases failed
    rcases split_fault found with rfl | rfl
    · exact .inl rfl
    · exact .inr (.inl rfl)
  | ok parts =>
    obtain ⟨comparison,symbol⟩ := ((split_make leaf parts).mp found).known
    rw [found,ok_bind,parse_known symbol,ok_bind] at failed
    exact .inr (.inr (query_fault failed))

theorem split_single (leaf : String) :
    (∀ parts, split leaf = .ok parts ↔ parts.Make leaf) ∧
    (∀ one other : Parts, one.Make leaf → other.Make leaf → one = other) ∧
    ((split leaf).mapError Fault.message = .error "no comparison operator found" ↔ Unmarked leaf.toList) ∧
    ((split leaf).mapError Fault.message = .error "expected exactly one comparison operator" ↔
      ¬ Unmarked leaf.toList ∧ ¬ ∃ parts : Parts, parts.Make leaf) ∧
    (∀ parts, split leaf = .ok parts → ∃ comparison, Comparison.parse parts.symbol = .ok comparison) ∧
    ∀ symbol, read leaf ≠ .error (.unknownOperator symbol) := by
  refine ⟨split_make leaf,fun _ _ => make_unique,?_,?_,?_,?_⟩
  · exact (split_told leaf (.inl rfl)).trans (split_unmarked leaf)
  · exact (split_told leaf (.inr rfl)).trans (split_several leaf)
  · intro parts found
    obtain ⟨comparison,symbol⟩ := ((split_make leaf parts).mp found).known
    exact ⟨comparison,parse_known symbol⟩
  · intro symbol failed
    rcases read_fault failed with same | same | same
    · cases same
    · cases same
    · cases same

example : split "!!=" = .ok ⟨"!","!=",""⟩ ∧ split "a=<1" = .error .severalOperators ∧ split "a!" = .error .noOperator :=
  ⟨rfl,rfl,rfl⟩

theorem listValues_exact (value : String) (values : List String) : listValues? value = some values ↔
    values ≠ [] ∧ (∀ item ∈ values, ',' ∉ item.toList) ∧
      ∃ first last, opensList first = true ∧ closesList last = true ∧
        value.toList = first :: ((",".intercalate values).toList ++ [last]) := by
  unfold listValues?
  constructor
  · intro found
    split at found
    · cases found
    · rename_i first rest chars
      split at found
      · cases found
      · rename_i last ends
        split at found
        · rename_i brackets
          obtain ⟨inner,rfl⟩ := List.getLast?_eq_some_iff.mp ends
          obtain ⟨opens,closes⟩ := Bool.and_eq_true_iff.mp brackets
          obtain ⟨present,free,joined⟩ := (Text.split_comma _ _).mp (Option.some.inj found)
          refine ⟨present,free,first,last,opens,closes,?_⟩
          rw [chars,joined]
          simp
        · cases found
  · rintro ⟨present,free,first,last,opens,closes,chars⟩
    have listed := (Text.split_comma (",".intercalate values) values).mpr ⟨present,free,rfl⟩
    simp [chars,opens,closes,listed,-String.toList_intercalate]

-- A value that is written as a list: brackets at both ends, which need not be of
-- one family, and the items between them with single commas.
structure Listed (value : String) (items : List String) : Prop where
  present : items ≠ []
  apart : ∀ item ∈ items, ',' ∉ item.toList
  written : ∃ first ∈ ['[','(','\x7b'], ∃ last ∈ [']',')','\x7d'],
    value = String.singleton first ++ ",".intercalate items ++ String.singleton last

theorem listValues_listed (value : String) (items : List String) :
    listValues? value = some items ↔ Listed value items := by
  have characters : ∀ first last, value = String.singleton first ++ ",".intercalate items ++ String.singleton last ↔
      value.toList = first :: ((",".intercalate items).toList ++ [last]) := by
    intro first last
    rw [← String.toList_inj]
    simp [-String.toList_intercalate]
  rw [listValues_exact]
  constructor
  · intro found
    obtain ⟨present,apart,first,last,opens,closes,chars⟩ := found
    exact ⟨present,apart,first,of_decide_eq_true opens,last,of_decide_eq_true closes,(characters first last).mpr chars⟩
  · intro listed
    obtain ⟨present,apart,first,opens,last,closes,whole⟩ := listed
    exact ⟨present,apart,first,last,decide_eq_true opens,decide_eq_true closes,(characters first last).mp whole⟩

theorem Listed.long {value : String} {items : List String} (listed : Listed value items) : 2 ≤ value.length := by
  obtain ⟨_,_,first,_,last,_,rfl⟩ := listed
  simp only [String.length_append,String.length_singleton]
  omega

theorem among_listed (field value : String) (items : List String) :
    among field value = .ok (.terms field items) ↔ Listed value items := by
  rw [← listValues_listed,among]
  cases listValues? value with
  | none => simp
  | some found => simp [Query.terms]

theorem among_unlisted (field value : String) :
    among field value = .error .unbracketedList ↔ ¬ ∃ items, Listed value items := by
  simp only [← listValues_listed,among]
  cases listValues? value with
  | none => simp
  | some found => simp

theorem notAmong_among (field value : String) : notAmong field value = (among field value).map .negated := by
  rw [notAmong]
  cases among field value with
  | ok query => rfl
  | error fault => rfl

theorem among_exact (field value : String) :
    (∀ items, among field value = .ok (.terms field items) ↔ Listed value items) ∧
    (among field value = .error .unbracketedList ↔ ¬ ∃ items, Listed value items) ∧
    notAmong field value = (among field value).map .negated ∧
    ∀ c, among field (String.singleton c) = .error .unbracketedList := by
  refine ⟨among_listed field value,among_unlisted field value,notAmong_among field value,?_⟩
  intro c
  rw [among_unlisted]
  intro written
  obtain ⟨items,listed⟩ := written
  have long := listed.long
  rw [String.length_singleton] at long
  omega

-- Nothing is trimmed, an empty item stays and an inner bracket belongs to its item.
example : among "tag" "( x,,[y]\x7d" = .ok (.terms "tag" [" x","","[y]"]) := by decide

end FilterQuery.Leaf
