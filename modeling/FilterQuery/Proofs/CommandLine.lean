import Mathlib.Data.List.TakeWhile
import FilterQuery.Proofs.Outcome
import FilterQuery.Proofs.Tokenizing
import FilterQuery.Session

namespace FilterQuery
open Outcome

namespace Text

theorem dropWhile_exact (p : Char → Bool) (text rest : List Char) :
    text.dropWhile p = rest ↔
      ∃ before, text = before ++ rest ∧ (∀ c ∈ before, p c = true) ∧ ∀ c ∈ rest.head?, p c = false := by
  constructor
  · intro dropped
    subst dropped
    refine ⟨text.takeWhile p,List.takeWhile_append_dropWhile.symm,fun c member => List.mem_takeWhile_imp member,?_⟩
    intro c first
    have stops := List.head?_dropWhile_not p text
    rw [Option.mem_def.mp first] at stops
    simpa using stops
  · intro parts
    obtain ⟨before,rfl,passed,stops⟩ := parts
    rw [List.dropWhile_append_of_pos passed]
    cases rest with
    | nil => rfl
    | cons c rest => exact List.dropWhile_cons_of_neg (by simp [stops c rfl])

theorem dropWhileEnd_exact (p : Char → Bool) (text rest : List Char) :
    (text.reverse.dropWhile p).reverse = rest ↔
      ∃ after, text = rest ++ after ∧ (∀ c ∈ after, p c = true) ∧ ∀ c ∈ rest.getLast?, p c = false := by
  rw [List.reverse_eq_iff,dropWhile_exact,List.head?_reverse]
  constructor
  · intro parts
    obtain ⟨before,whole,passed,stops⟩ := parts
    refine ⟨before.reverse,?_,by simpa using passed,stops⟩
    rw [← List.reverse_reverse text,whole,List.reverse_append,List.reverse_reverse]
  · intro parts
    obtain ⟨after,rfl,passed,stops⟩ := parts
    exact ⟨after.reverse,List.reverse_append,by simpa using passed,stops⟩

-- A line up to the carriage returns and newlines it ends with.
structure LineText (line text : String) : Prop where
  ended : ∃ ending : String, line = text ++ ending ∧ ∀ c ∈ ending.toList, c = '\r' ∨ c = '\n'
  last : ∀ c ∈ text.toList.getLast?, c ≠ '\r' ∧ c ≠ '\n'

theorem withoutLineEnd_exact (line text : String) : withoutLineEnd line = text ↔ LineText line text := by
  rw [withoutLineEnd,← String.toList_inj,String.toList_ofList,dropWhileEnd_exact]
  constructor
  · intro parts
    obtain ⟨after,whole,ending,last⟩ := parts
    refine ⟨⟨.ofList after,?_,by simpa [endsLine] using ending⟩,by simpa [endsLine] using last⟩
    rw [← String.toList_inj,whole,String.toList_append,String.toList_ofList]
  · intro content
    obtain ⟨⟨ending,rfl,ends⟩,last⟩ := content
    exact ⟨ending.toList,String.toList_append,by simpa [endsLine] using ends,by simpa [endsLine] using last⟩

def Blank (text : String) : Prop := ∀ c ∈ text.toList, isBlank c = true

instance (text : String) : Decidable (Blank text) := decidable_of_iff (text.toList.all isBlank = true) List.all_eq_true

-- A text without the blanks it begins and ends with.
structure Trimmed (whole text : String) : Prop where
  around : ∃ before after, whole = before ++ text ++ after ∧ Blank before ∧ Blank after
  first : ∀ c ∈ text.toList.head?, isBlank c = false
  last : ∀ c ∈ text.toList.getLast?, isBlank c = false

theorem trim_exact (whole text : String) : trim whole = text ↔ Trimmed whole text := by
  rw [trim,← String.toList_inj,String.toList_ofList,trimEnd,dropWhileEnd_exact]
  constructor
  · intro parts
    obtain ⟨after,rest,behind,last⟩ := parts
    obtain ⟨before,parts,ahead,first⟩ := (dropWhile_exact _ _ _).mp rest
    refine ⟨⟨.ofList before,.ofList after,?_,by simpa [Blank] using ahead,by simpa [Blank] using behind⟩,?_,last⟩
    · rw [← String.toList_inj,parts]
      simp
    · intro c begins
      exact first c (List.mem_head?_append_of_mem_head? begins)
  · intro trimmed
    obtain ⟨⟨before,after,rfl,ahead,behind⟩,first,last⟩ := trimmed
    have parts : (before ++ text ++ after).toList = before.toList ++ (text.toList ++ after.toList) := by simp
    cases inner : text.toList with
    | nil =>
      -- Nothing stops the trimming at the start, so it goes on to the end.
      refine ⟨[],(dropWhile_exact _ _ _).mpr ⟨before.toList ++ after.toList,?_,?_,by simp⟩,by simp,by simp⟩
      · rw [parts,inner,List.nil_append,List.append_nil,List.append_nil]
      · exact List.forall_mem_append.mpr ⟨ahead,behind⟩
    | cons c rest =>
      rw [inner] at first last
      exact ⟨after.toList,(dropWhile_exact _ _ _).mpr ⟨before.toList,by rw [parts,inner],ahead,first⟩,behind,last⟩

theorem trimmed_blank (text : String) : Trimmed text "" ↔ Blank text := by
  constructor
  · intro trimmed
    obtain ⟨⟨before,after,rfl,ahead,behind⟩,_,_⟩ := trimmed
    rw [Blank,String.append_empty,String.toList_append,List.forall_mem_append]
    exact ⟨ahead,behind⟩
  · intro blank
    exact ⟨⟨text,"",by simp,blank,by simp [Blank]⟩,by simp,by simp⟩

theorem withoutLineEnd_blank (line : String) : trim (withoutLineEnd line) = "" ↔ Blank line := by
  obtain ⟨⟨ending,whole,ends⟩,_⟩ := (withoutLineEnd_exact line _).mp rfl
  have blank : ∀ c ∈ ending.toList, isBlank c = true := by
    intro c member
    rcases ends c member with rfl | rfl <;> decide
  rw [trim_exact,trimmed_blank]
  nth_rewrite 2 [whole]
  rw [Blank,Blank,String.toList_append,List.forall_mem_append]
  exact (and_iff_left blank).symm

theorem withoutLineEnd_colon (line : String) :
    (withoutLineEnd line).toList.head? = some ':' ↔ line.toList.head? = some ':' := by
  obtain ⟨⟨ending,whole,ends⟩,_⟩ := (withoutLineEnd_exact line _).mp rfl
  nth_rewrite 2 [whole]
  rw [String.toList_append,List.head?_append]
  cases (withoutLineEnd line).toList.head? with
  | some c => rfl
  | none =>
    refine iff_of_false nofun ?_
    intro colon
    exact absurd (ends ':' (List.mem_of_head? colon)) (by decide)

end Text

namespace Command

-- A name and, after one space, its argument. Without that space there is none.
def Called (name argument line : String) : Prop :=
  line = name ++ (" " ++ argument) ∨ (line = name ∧ argument = "")

theorem nameAndArgument_called {line name argument : String} (found : nameAndArgument line = (name,argument)) :
    Called name argument line := by
  unfold nameAndArgument at found
  obtain ⟨rfl,rfl⟩ := Prod.mk.inj found
  have whole := List.takeWhile_append_dropWhile (p := (· ≠ ' ')) (l := line.toList)
  cases rest : line.toList.dropWhile (· ≠ ' ') with
  | nil =>
    rw [rest,List.append_nil] at whole
    refine .inr ⟨?_,rfl⟩
    rw [whole,String.ofList_toList]
  | cons c behind =>
    have space := List.head?_dropWhile_not (· ≠ ' ') line.toList
    rw [rest,List.head?_cons] at space
    have spaced : c = ' ' := by simpa using space
    refine .inl ?_
    rw [rest,spaced] at whole
    rw [← String.toList_inj]
    simp only [String.toList_append,String.toList_ofList,List.drop_one,List.tail_cons]
    exact whole.symm

theorem called_nameAndArgument {line name argument : String} (free : ' ' ∉ name.toList)
    (called : Called name argument line) : nameAndArgument line = (name,argument) := by
  have within : ∀ c ∈ name.toList, decide (c ≠ ' ') = true := by
    intro c member
    exact decide_eq_true fun space => free (space ▸ member)
  unfold nameAndArgument
  dsimp only
  rcases called with rfl | ⟨rfl,rfl⟩
  · rw [String.toList_append,List.takeWhile_append_of_pos within,List.dropWhile_append_of_pos within]
    simp
  · rw [List.takeWhile_eq_self_iff.mpr within,List.dropWhile_eq_nil_iff.mpr within,String.ofList_toList]
    rfl

-- The names in the parts of a list. Blanks around a name do not belong to it, and
-- a part with nothing else in it is no name.
inductive Names : List String → List String → Prop where
  | nil : Names [] []
  | blank (nothing : Text.Blank part) (rest : Names parts names) : Names (part :: parts) names
  | name (inner : Text.Trimmed part name) (something : name ≠ "") (rest : Names parts names) :
      Names (part :: parts) (name :: names)

theorem names_exact (parts names : List String) :
    (parts.map Text.trim).filter (!·.isEmpty) = names ↔ Names parts names := by
  induction parts generalizing names with
  | nil =>
    constructor
    · intro kept
      subst kept
      exact .nil
    · intro listed
      cases listed
      rfl
  | cons part parts ih =>
    rw [List.map_cons]
    by_cases nothing : Text.trim part = ""
    · rw [List.filter_cons_of_neg (by simp [nothing]),ih]
      have blank := (Text.trimmed_blank part).mp ((Text.trim_exact part "").mp nothing)
      constructor
      · exact .blank blank
      · intro listed
        cases listed with
        | blank _ rest => exact rest
        | name inner something => exact absurd (((Text.trim_exact _ _).mpr inner).symm.trans nothing) something
    · rw [List.filter_cons_of_pos (by simpa using nothing)]
      constructor
      · intro kept
        subst kept
        exact .name ((Text.trim_exact part _).mp rfl) nothing ((ih _).mp rfl)
      · intro listed
        cases listed with
        | blank blank => exact absurd ((Text.trim_exact part "").mpr ((Text.trimmed_blank part).mpr blank)) nothing
        | name inner _ rest => rw [(Text.trim_exact part _).mpr inner,(ih _).mpr rest]

theorem fieldNames_exact (argument : String) (names : List String) : fieldNames argument = names ↔
    ∃ parts, (parts ≠ [] ∧ (∀ part ∈ parts, ',' ∉ part.toList) ∧ ",".intercalate parts = argument) ∧
      Names parts names := by
  simp only [← Text.split_comma,exists_eq_left',← names_exact,fieldNames]

-- Which command a name and an argument give. Arguments that nothing asks for are
-- passed over.
inductive Means (argument : String) : String → Command → Prop where
  | quit : Means argument ":quit" .quit
  | leave : Means argument ":q" .quit
  | help : Means argument ":help" .help
  | showSettings : Means argument ":config" .showSettings
  | keyValue (word : Text.Trimmed argument "kv") : Means argument ":mode" (.mode .keyValue)
  | valueOnly (word : Text.Trimmed argument "value") : Means argument ":mode" (.mode .valueOnly)
  | fields (present : parts ≠ []) (apart : ∀ part ∈ parts, ',' ∉ part.toList)
      (joined : ",".intercalate parts = argument) (listed : Names parts names) :
      Means argument ":fields" (.fields names)
  | delimiter : Means argument ":delim" (.delimiter argument)
  | merging (word : Text.Trimmed argument "on") : Means argument ":flatten" (.flatten true)
  | grouping (word : Text.Trimmed argument "off") : Means argument ":flatten" (.flatten false)

def Spelled (line : String) (command : Command) : Prop :=
  ∃ name argument, Called name argument line ∧ Means argument name command

theorem Means.name_plain {name argument : String} {command : Command} (means : Means argument name command) :
    ' ' ∉ name.toList ∧ name.toList.head? = some ':' := by
  cases means <;> decide

theorem parseMode_word {argument : String} {mode : Mode} (read : parseMode argument = .ok mode) :
    Means argument ":mode" (.mode mode) := by
  unfold parseMode at read
  split at read
  · rename_i word
    cases read
    exact .keyValue ((Text.trim_exact _ _).mp word)
  · rename_i word
    cases read
    exact .valueOnly ((Text.trim_exact _ _).mp word)
  · cases read

theorem parseFlag_word {argument : String} {on : Bool} (read : parseFlag argument = .ok on) :
    Means argument ":flatten" (.flatten on) := by
  unfold parseFlag at read
  split at read
  · rename_i word
    cases read
    exact .merging ((Text.trim_exact _ _).mp word)
  · rename_i word
    cases read
    exact .grouping ((Text.trim_exact _ _).mp word)
  · cases read

theorem parse_spelled {line : String} {command : Command} (parsed : parse line = .ok command) :
    Spelled line command := by
  obtain ⟨name,argument,found⟩ : ∃ name argument, nameAndArgument line = (name,argument) := ⟨_,_,rfl⟩
  refine ⟨name,argument,nameAndArgument_called found,?_⟩
  unfold parse at parsed
  rw [found] at parsed
  dsimp only at parsed
  split at parsed
  · cases parsed; exact .quit
  · cases parsed; exact .leave
  · cases parsed; exact .help
  · cases parsed; exact .showSettings
  · obtain ⟨mode,read,made⟩ := (bind_ok command).mp parsed
    cases made
    exact parseMode_word read
  · cases parsed
    obtain ⟨parts,⟨present,apart,joined⟩,listed⟩ := (fieldNames_exact argument _).mp rfl
    exact .fields present apart joined listed
  · cases parsed; exact .delimiter
  · obtain ⟨on,read,made⟩ := (bind_ok command).mp parsed
    cases made
    exact parseFlag_word read
  · cases parsed

theorem spelled_parse {line : String} {command : Command} (spelled : Spelled line command) :
    parse line = .ok command := by
  obtain ⟨name,argument,called,means⟩ := spelled
  unfold parse
  rw [called_nameAndArgument means.name_plain.1 called]
  cases means with
  | quit | leave | help | showSettings | delimiter => rfl
  | keyValue word | valueOnly word => simp [parseMode,(Text.trim_exact _ _).mpr word]
  | merging word | grouping word => simp [parseFlag,(Text.trim_exact _ _).mpr word]
  | fields present apart joined listed =>
    simp [(fieldNames_exact argument _).mpr ⟨_,⟨present,apart,joined⟩,listed⟩]

theorem parse_exact (line : String) (command : Command) : parse line = .ok command ↔ Spelled line command :=
  ⟨parse_spelled,spelled_parse⟩

theorem spelled_colon {line : String} {command : Command} (spelled : Spelled line command) :
    line.toList.head? = some ':' := by
  obtain ⟨name,argument,called,means⟩ := spelled
  rcases called with rfl | ⟨rfl,rfl⟩
  · rw [String.toList_append,List.head?_append,means.name_plain.2]
    rfl
  · exact means.name_plain.2

end Command
end FilterQuery
