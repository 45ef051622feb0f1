import FilterQuery.Proofs.Outcome
import FilterQuery.Query
import FilterQuery.Settings

namespace FilterQuery.Query

-- Queries that differ in their grouping only: wherever a group stands directly in
-- a group of the same connective, its parts may stand there instead, and back.
inductive Regrouped : Query → Query → Prop where
  | merged (op : Connective) (before inner after : List Query) :
      Regrouped (.joined op (before ++ .joined op inner :: after)) (.joined op (before ++ inner ++ after))
  | negated (inner : Regrouped one other) : Regrouped (.negated one) (.negated other)
  | part (op : Connective) (before after : List Query) (changed : Regrouped one other) :
      Regrouped (.joined op (before ++ one :: after)) (.joined op (before ++ other :: after))
  | same (query : Query) : Regrouped query query
  | back (change : Regrouped one other) : Regrouped other one
  | chain (first : Regrouped one middle) (second : Regrouped middle other) : Regrouped one other

-- A query that stands in another, at any depth and under any negations.
inductive Within (query : Query) : Query → Prop where
  | here : Within query query
  | negated {inner : Query} (deeper : Within query inner) : Within query (.negated inner)
  | part (member : first ∈ parts) (deeper : Within query first) : Within query (.joined op parts)

theorem spliced_cases (op : Connective) (part : Query) :
    (∃ inner, part = .joined op inner ∧ spliced op part = inner) ∨
    ((∀ inner, part ≠ .joined op inner) ∧ spliced op part = [part]) := by
  cases part with
  | condition asked => exact .inr ⟨nofun,rfl⟩
  | negated inner => exact .inr ⟨nofun,rfl⟩
  | joined other inner =>
    by_cases same : other = op
    · subst same
      exact .inl ⟨inner,rfl,by rw [spliced,if_pos rfl]⟩
    · refine .inr ⟨?_,by rw [spliced,if_neg same]⟩
      intro parts equal
      cases equal
      exact same rfl

theorem flattenParts_append (op : Connective) (first second : List Query) :
    flattenParts op (first ++ second) = flattenParts op first ++ flattenParts op second := by
  induction first with
  | nil => rfl
  | cons query rest ih => rw [List.cons_append,flattenParts,flattenParts,ih,List.append_assoc]

theorem Regrouped.flatten_eq {one other : Query} (change : Regrouped one other) : one.flatten = other.flatten := by
  induction change with
  | merged op before inner after =>
    simp [flatten,flattenParts_append,flattenParts,spliced]
  | negated inner ih => rw [flatten,flatten,ih]
  | part op before after changed ih => simp only [flatten,flattenParts_append,flattenParts,ih]
  | same query => rfl
  | back change ih => exact ih.symm
  | chain first second firstIh secondIh => exact firstIh.trans secondIh

theorem regrouped_spliced (op : Connective) (before : List Query) (part : Query) (after : List Query) :
    Regrouped (.joined op (before ++ spliced op part ++ after)) (.joined op (before ++ part :: after)) := by
  rcases spliced_cases op part with ⟨inner,rfl,parts⟩ | ⟨_,single⟩
  · rw [parts]
    exact .back (.merged op before inner after)
  · rw [single,List.append_assoc]
    exact .same _

-- The parts in front have been flattened already, so the two inductions meet at
-- the first part that has not.
mutual
theorem flatten_regrouped : (query : Query) → Regrouped query.flatten query
  | .condition _ => .same _
  | .negated inner => .negated (flatten_regrouped inner)
  | .joined op parts => flattenParts_regrouped op [] parts
theorem flattenParts_regrouped (op : Connective) (before : List Query) : (parts : List Query) →
    Regrouped (.joined op (before ++ flattenParts op parts)) (.joined op (before ++ parts))
  | [] => .same _
  | first :: rest => by
    have later := flattenParts_regrouped op (before ++ spliced op first.flatten) rest
    rw [flattenParts,← List.append_assoc]
    exact (later.chain (regrouped_spliced op before first.flatten rest)).chain
      (.part op before rest (flatten_regrouped first))
end

theorem within_spliced {op : Connective} {part query : Query} (member : part ∈ spliced op query) :
    Within part query := by
  rcases spliced_cases op query with ⟨inner,rfl,parts⟩ | ⟨_,single⟩
  · rw [parts] at member
    exact .part member .here
  · rw [single] at member
    cases List.mem_singleton.mp member
    exact .here

theorem Within.trans {query middle whole : Query} (inner : Within query middle) (outer : Within middle whole) :
    Within query whole := by
  induction outer with
  | here => exact inner
  | negated deeper ih => exact .negated ih
  | part member deeper ih => exact .part member ih

-- No group stands directly in a group of the same connective, at any depth.
def Merged (query : Query) : Prop :=
  ∀ op parts inner, Within (.joined op parts) query → .joined op inner ∉ parts

theorem spliced_merged (op : Connective) {query : Query} (merged : query.Merged) :
    (∀ part ∈ spliced op query, part.Merged) ∧ ∀ inner, .joined op inner ∉ spliced op query := by
  constructor
  · intro part member other parts inner within
    exact merged other parts inner (within.trans (within_spliced member))
  · intro inner member
    rcases spliced_cases op query with ⟨parts,rfl,equal⟩ | ⟨single,equal⟩
    · rw [equal] at member
      exact merged op parts inner .here member
    · rw [equal] at member
      exact single inner (List.mem_singleton.mp member).symm

mutual
theorem flatten_merged : (query : Query) → query.flatten.Merged
  | .condition _ => by
    intro op parts inner within
    cases within
  | .negated query => by
    intro op parts inner within
    cases within with
    | negated deeper => exact flatten_merged query op parts inner deeper
  | .joined op parts => by
    obtain ⟨deep,direct⟩ := flattenParts_merged op parts
    intro other _ inner within
    cases within with
    | here => exact direct inner
    | part member deeper => exact deep _ member other _ inner deeper
theorem flattenParts_merged (op : Connective) : (parts : List Query) →
    (∀ part ∈ flattenParts op parts, part.Merged) ∧ ∀ inner, .joined op inner ∉ flattenParts op parts
  | [] => ⟨List.forall_mem_nil _,fun _ => List.not_mem_nil⟩
  | first :: rest => by
    obtain ⟨deep,direct⟩ := spliced_merged op (flatten_merged first)
    obtain ⟨later,apart⟩ := flattenParts_merged op rest
    constructor
    · exact List.forall_mem_append.mpr ⟨deep,later⟩
    · intro inner member
      rcases List.mem_append.mp member with here | after
      · exact direct inner here
      · exact apart inner after
end

theorem flatten_canonical (one other : Query) :
    Regrouped one.flatten one ∧ one.flatten.Merged ∧ (one.flatten = other.flatten ↔ Regrouped one other) ∧
    one.flatten.flatten = one.flatten := by
  refine ⟨flatten_regrouped one,flatten_merged one,?_,(flatten_regrouped one).flatten_eq⟩
  constructor
  · intro equal
    have meets : Regrouped one.flatten other := by
      rw [equal]
      exact flatten_regrouped other
    exact (flatten_regrouped one).back.chain meets
  · intro change
    exact change.flatten_eq

-- The conditions of a query from left to right, each with the number of negations
-- around it. The query itself stands under `depth` of them.
mutual
def leaves (depth : Nat) : Query → List (Nat × Condition)
  | .condition asked => [(depth,asked)]
  | .negated inner => inner.leaves (depth + 1)
  | .joined _ parts => leavesAll depth parts
def leavesAll (depth : Nat) : List Query → List (Nat × Condition)
  | [] => []
  | first :: rest => first.leaves depth ++ leavesAll depth rest
end

def isJoined (op : Connective) : Query → Bool
  | .joined other _ => other == op
  | .condition _ | .negated _ => false

-- How many groups of the connective have a group of the same connective for their
-- parent, at any depth and under any negations.
mutual
def doubled (op : Connective) : Query → Nat
  | .condition _ => 0
  | .negated inner => inner.doubled op
  | .joined other parts => (if other = op then parts.countP (isJoined op) else 0) + doubledAll op parts
def doubledAll (op : Connective) : List Query → Nat
  | [] => 0
  | first :: rest => first.doubled op + doubledAll op rest
end

theorem leavesAll_append (depth : Nat) (first second : List Query) :
    leavesAll depth (first ++ second) = leavesAll depth first ++ leavesAll depth second := by
  induction first with
  | nil => rfl
  | cons query rest ih => rw [List.cons_append,leavesAll,leavesAll,ih,List.append_assoc]

theorem sizeAll_append (first second : List Query) : sizeAll (first ++ second) = sizeAll first + sizeAll second := by
  induction first with
  | nil => rw [List.nil_append,sizeAll,Nat.zero_add]
  | cons query rest ih => rw [List.cons_append,sizeAll,sizeAll,ih,Nat.add_assoc]

theorem isJoined_exact (op : Connective) (query : Query) :
    query.isJoined op = true ↔ ∃ parts, query = .joined op parts := by
  cases query with
  | condition asked => simp [isJoined]
  | negated inner => simp [isJoined]
  | joined other parts => simp [isJoined]

theorem flatten_isJoined (op : Connective) (query : Query) : query.flatten.isJoined op = query.isJoined op := by
  cases query with
  | condition | negated | joined => rfl

theorem spliced_leaves (depth : Nat) (op : Connective) (part : Query) :
    leavesAll depth (spliced op part) = part.leaves depth := by
  rcases spliced_cases op part with ⟨inner,rfl,parts⟩ | ⟨_,single⟩
  · rw [parts,leaves]
  · rw [single,leavesAll,leavesAll,List.append_nil]

theorem spliced_size (op : Connective) (part : Query) :
    sizeAll (spliced op part) + (part.isJoined op).toNat = part.size := by
  rcases spliced_cases op part with ⟨inner,rfl,parts⟩ | ⟨apart,single⟩
  · have merged := (isJoined_exact op (.joined op inner)).mpr ⟨inner,rfl⟩
    rw [parts,merged,size,Bool.toNat_true,Nat.add_comm]
  · have kept : part.isJoined op = false := by
      rw [← Bool.not_eq_true,isJoined_exact]
      intro joined
      obtain ⟨inner,same⟩ := joined
      exact apart inner same
    rw [single,kept,sizeAll,sizeAll,Bool.toNat_false,Nat.add_zero]

mutual
theorem flatten_leaves : (query : Query) → (depth : Nat) → query.flatten.leaves depth = query.leaves depth
  | .condition _,_ => rfl
  | .negated inner,depth => flatten_leaves inner (depth + 1)
  | .joined op parts,depth => flattenParts_leaves op parts depth
theorem flattenParts_leaves (op : Connective) : (parts : List Query) → (depth : Nat) →
    leavesAll depth (flattenParts op parts) = leavesAll depth parts
  | [],_ => rfl
  | first :: rest,depth => by
    rw [flattenParts,leavesAll_append,spliced_leaves,flatten_leaves first,flattenParts_leaves op rest,leavesAll]
end

mutual
theorem flatten_size : (query : Query) →
    query.size = query.flatten.size + query.doubled .and + query.doubled .or
  | .condition _ => rfl
  | .negated inner => by
    have within := flatten_size inner
    simp only [flatten,size,doubled]
    omega
  | .joined op parts => by
    have within := flattenParts_size op parts
    simp only [flatten,size,doubled]
    cases op with
    | and => simp only [if_true,reduceCtorEq,if_false]; omega
    | or => simp only [if_true,reduceCtorEq,if_false]; omega
theorem flattenParts_size (op : Connective) : (parts : List Query) →
    sizeAll parts = sizeAll (flattenParts op parts) + parts.countP (isJoined op) + doubledAll .and parts +
      doubledAll .or parts
  | [] => rfl
  | first :: rest => by
    have here := flatten_size first
    have later := flattenParts_size op rest
    have merged := spliced_size op first.flatten
    rw [flatten_isJoined] at merged
    have counted : (first :: rest).countP (isJoined op) = rest.countP (isJoined op) + (first.isJoined op).toNat := by
      rw [List.countP_cons]
      cases first.isJoined op with
      | true => rfl
      | false => rfl
    rw [flattenParts,sizeAll_append,counted]
    simp only [sizeAll,doubledAll]
    omega
end

theorem flatten_nodes (query : Query) : query.flatten.leaves 0 = query.leaves 0 ∧
    query.size = query.flatten.size + query.doubled .and + query.doubled .or :=
  ⟨flatten_leaves query 0,flatten_size query⟩

-- Two conjunctions stand in a conjunction, one of them below a negation.
example : (joined .and [joined .and [text "a" "1",joined .or [text "b" "2"]],
    negated (joined .and [joined .or [],joined .and [text "c" "3"]])]).doubled .and = 2 := rfl

end FilterQuery.Query

namespace FilterQuery
open Outcome

namespace Query

-- Whether a query holds, given which conditions do: all parts of an `and`, some
-- part of an `or`, and what is negated not.
mutual
def holds (truth : Condition → Bool) : Query → Bool
  | .condition asked => truth asked
  | .negated inner => !inner.holds truth
  | .joined .and parts => allHold truth parts
  | .joined .or parts => someHolds truth parts
def allHold (truth : Condition → Bool) : List Query → Bool
  | [] => true
  | first :: rest => first.holds truth && allHold truth rest
def someHolds (truth : Condition → Bool) : List Query → Bool
  | [] => false
  | first :: rest => first.holds truth || someHolds truth rest
end

theorem allHold_exact (truth : Condition → Bool) (parts : List Query) :
    allHold truth parts = parts.all (holds truth) := by
  induction parts with
  | nil => rfl
  | cons first rest ih => rw [allHold,List.all_cons,ih]

theorem someHolds_exact (truth : Condition → Bool) (parts : List Query) :
    someHolds truth parts = parts.any (holds truth) := by
  induction parts with
  | nil => rfl
  | cons first rest ih => rw [someHolds,List.any_cons,ih]

def SameTruth (one other : Query) : Prop := ∀ truth, one.holds truth = other.holds truth

theorem Regrouped.same_truth {one other : Query} (change : Regrouped one other) : SameTruth one other := by
  intro truth
  induction change with
  | merged op before inner after =>
    cases op with
    | and => simp [holds,allHold_exact]
    | or => simp [holds,someHolds_exact]
  | negated inner ih => rw [holds,holds,ih]
  | part op before after changed ih =>
    cases op with
    | and => simp only [holds,allHold_exact,List.all_append,List.all_cons,ih]
    | or => simp only [holds,someHolds_exact,List.any_append,List.any_cons,ih]
  | same query => rfl
  | back change ih => exact ih.symm
  | chain first second firstIh secondIh => exact firstIh.trans secondIh

end Query

theorem Settings.finish_regrouped (settings : Settings) (query : Query) :
    Query.Regrouped (settings.finish query) query := by
  unfold finish
  split
  · exact Query.flatten_regrouped query
  · exact .same query

theorem merging_meaning (settings : Settings) (merge : Bool) (input : String) :
    (∀ reading, Alike Eq Query.SameTruth (settings.compile reading input)
      ({settings with flattenNested := merge}.compile reading input)) ∧
    Alike Eq Query.SameTruth (settings.compileDefault input)
      ({settings with flattenNested := merge}.compileDefault input) := by
  have always : ∀ reading, Alike Eq Query.SameTruth (settings.compile reading input)
      ({settings with flattenNested := merge}.compile reading input) := by
    intro reading
    unfold Settings.compile
    cases compile reading (tokenize settings.delimiter input) with
    | error fault => exact .fault rfl
    | ok query =>
      have one := settings.finish_regrouped query
      have other := Settings.finish_regrouped {settings with flattenNested := merge} query
      exact .value (one.chain other.back).same_truth
  exact ⟨always,always (.valueOnly settings.defaultFields)⟩

end FilterQuery
