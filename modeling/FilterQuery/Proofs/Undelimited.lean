import FilterQuery.Proofs.FirstFault
import FilterQuery.Proofs.Nesting
import FilterQuery.Proofs.Tokenizing

namespace FilterQuery
open Outcome

namespace Lexeme

-- The bracket that a character is, if it is one.
def bracket? (c : Char) : Option Lexeme :=
  (Family.ofOpener? c).map .opener <|> (Family.ofCloser? c).map .closer

theorem bracket_cases {c : Char} {lexeme : Lexeme} (found : bracket? c = some lexeme) :
    lexeme.isBracket = true ∧ String.ofList [c] = lexeme.text ∧ ofText lexeme.text = lexeme := by
  unfold bracket? at found
  cases opens : Family.ofOpener? c with
  | some family =>
    rw [opens] at found
    cases found
    obtain rfl := (Family.ofOpener_exact c family).mp opens
    exact ⟨rfl,rfl,ofText_opener family⟩
  | none =>
    rw [opens] at found
    obtain ⟨family,closes,rfl⟩ := Option.map_eq_some_iff.mp found
    obtain rfl := (Family.ofCloser_exact c family).mp closes
    exact ⟨rfl,rfl,ofText_closer family⟩

theorem bracket_none {c : Char} (absent : bracket? c = none) : Plain (String.ofList [c]) := by
  intro listed
  obtain ⟨lexeme,member,same⟩ := List.mem_map.mp listed
  have characters : lexeme.text.toList = [c] := by rw [same,String.toList_ofList]
  cases lexeme with
  | opener family =>
    obtain rfl : family.opener = c := by simpa [text] using characters
    cases family <;> cases absent
  | closer family =>
    obtain rfl : family.closer = c := by simpa [text] using characters
    cases family <;> cases absent
  | connective op => cases op <;> cases characters
  | leaf word => exact leaf_unlisted word member

theorem ofText_character (c : Char) : ofText (String.ofList [c]) = (bracket? c).getD (.leaf (String.ofList [c])) := by
  cases found : bracket? c with
  | none => exact (ofText_leaf _).mpr (bracket_none found)
  | some lexeme =>
    obtain ⟨_,same,read⟩ := bracket_cases found
    rw [same,read,Option.getD_some]

theorem characters_brackets (characters : List Char) :
    (characters.map fun c => ofText (String.ofList [c])).filter isBracket = characters.filterMap bracket? := by
  induction characters with
  | nil => rfl
  | cons c rest ih =>
    rw [List.map_cons,List.filter_cons,List.filterMap_cons,ofText_character,ih]
    cases found : bracket? c with
    | none => rfl
    | some lexeme => simp [(bracket_cases found).1]

end Lexeme

namespace Token
open Lexeme

theorem characters_leaves (characters : List Char) :
    (leafWords (characters.map fun c => String.ofList [c])).length =
      (characters.filter fun c => (bracket? c).isNone).length := by
  induction characters with
  | nil => rfl
  | cons c rest ih =>
    rw [List.map_cons]
    cases found : bracket? c with
    | none =>
      rw [leafWords_leaf _ (bracket_none found),List.filter_cons_of_pos (by rw [found]; rfl),List.length_cons,ih,
        List.length_cons]
    | some lexeme =>
      have listed : ¬ Plain (String.ofList [c]) := by
        intro plain
        obtain ⟨bracket,same,read⟩ := bracket_cases found
        rw [← same,(ofText_leaf _).mpr plain] at read
        cases read
        cases bracket
      rw [leafWords_structural _ listed,List.filter_cons_of_neg (by rw [found]; exact Bool.false_ne_true),ih]

-- The tokens of a text that is not delimited: an empty leaf at both ends, and
-- between them one token for each character.
def undelimited (input : String) : List Token := tokenize "" input

theorem undelimited_words (input : String) :
    Text.split "" input = "" :: (input.toList.map (fun c => String.ofList [c]) ++ [""]) := by
  rw [Text.split_pieces]
  simp [Text.pieces,List.map_map,Function.comp_def]

theorem undelimited_lexemes (input : String) : (undelimited input).map lexeme =
    .leaf "" :: ((input.toList.map fun c => ofText (String.ofList [c])) ++ [.leaf ""]) := by
  have empty : ofText "" = .leaf "" := rfl
  rw [undelimited,tokenize,ofWords_numbered,numbered_lexemes,undelimited_words]
  simp [empty,List.map_map,Function.comp_def]

theorem undelimited_balanced (input : String) :
    Grouping.check (undelimited input) = .ok () ↔ Nested (input.toList.filterMap bracket?) := by
  rw [Grouping.check_nested,Grouping.Nested,undelimited_lexemes,List.filter_cons_of_neg (Bool.false_ne_true),
    List.filter_append,characters_brackets]
  simp [isBracket]

theorem undelimited_connectives (input : String) : connectives (undelimited input) = [] := by
  apply List.filterMap_eq_nil_iff.mpr
  intro token member
  have listed := List.mem_map_of_mem (f := lexeme) member
  rw [undelimited_lexemes] at listed
  obtain ⟨position,lexeme⟩ := token
  cases lexeme with
  | opener | closer | leaf => rfl
  | connective op =>
    rcases List.mem_cons.mp listed with first | listed
    · cases first
    · rcases List.mem_append.mp listed with inside | last
      · obtain ⟨c,_,read⟩ := List.mem_map.mp inside
        rw [ofText_character] at read
        cases found : bracket? c with
        | none => rw [found] at read; cases read
        | some lexeme =>
          rw [found,Option.getD_some] at read
          subst read
          cases (bracket_cases found).1
      · cases List.mem_singleton.mp last

theorem undelimited_leaves (input : String) :
    (leaves (undelimited input)).length = 2 + (input.toList.filter fun c => (bracket? c).isNone).length := by
  have words := congrArg List.length (leaves_words 0 (Text.split "" input))
  have empty : Plain "" := by decide
  rw [List.length_map,undelimited_words,leafWords_leaf _ empty,leafWords,List.filter_append,List.length_cons,
    List.length_append] at words
  have last : ([""].filter fun word => Plain word).length = 1 := by decide
  have between := characters_leaves input.toList
  rw [leafWords] at between
  rw [between,last] at words
  rw [undelimited,tokenize,ofWords_numbered,undelimited_words,words]
  omega

theorem undelimited_first (input : String) : ∃ rest, Postfix.order (undelimited input) = ⟨0,.leaf ""⟩ :: rest := by
  rw [undelimited,tokenize,ofWords_numbered,undelimited_words]
  exact ⟨_,rfl⟩

theorem undelimited_ordered {input : String} {token : Token} (member : token ∈ Postfix.order (undelimited input)) :
    ∃ position text, token = ⟨position,.leaf text⟩ := by
  have bare := Postfix.order_unbracketed _ token member
  have idle : connectives (Postfix.order (undelimited input)) = [] :=
    (Postfix.order_connectives _).trans (.of_eq (undelimited_connectives input)) |>.eq_nil
  have quiet := List.filterMap_eq_nil_iff.mp idle token member
  obtain ⟨position,lexeme⟩ := token
  cases lexeme with
  | leaf text => exact ⟨position,text,rfl⟩
  | connective op => cases quiet
  | opener | closer => cases bare

end Token

open Evaluate

theorem evaluate_undelimited {reading : Reading} (given : reading.hasFields = true) (input : String)
    (meant : ∀ text, ∃ query, reading.leaf text = .ok query) :
    evaluate reading (Postfix.order (Token.undelimited input)) =
      .error (.incomplete (Token.leaves (Token.undelimited input)).length) := by
  have act : AllAct reading (Postfix.order (Token.undelimited input)) := by
    intro before token after split
    have member : token ∈ Postfix.order (Token.undelimited input) := by simp [split]
    obtain ⟨position,text,rfl⟩ := Token.undelimited_ordered member
    exact meant text
  obtain ⟨remaining,counted,_,several⟩ := evaluate_remaining _ given act
  have idle := (Postfix.order_connectives (Token.undelimited input)).length_eq
  rw [Token.undelimited_connectives,List.length_nil] at idle
  rw [surplus,Postfix.order_leaves,idle] at counted
  have ends := Token.undelimited_leaves input
  obtain rfl : remaining = (Token.leaves (Token.undelimited input)).length := by omega
  exact several (by omega)

namespace Settings
variable {settings : Settings} (undelimited : settings.delimiter = "") (input : String)
include undelimited

theorem undelimited_parts (reading : Reading) :
    settings.compile reading input = (FilterQuery.compile reading (Token.undelimited input)).map settings.finish := by
  rw [compile_words,undelimited]
  rfl

theorem undelimited_unbalanced {reading : Reading} (given : reading.hasFields = true) {misplaced : Grouping.Misplaced}
    (failed : Grouping.check (Token.undelimited input) = .error misplaced) :
    settings.compile reading input = .error (.grouping misplaced) := by
  rw [undelimited_parts undelimited,compile_unbalanced reading _ given failed]
  rfl

theorem undelimited_keyValue (checked : Grouping.check (Token.undelimited input) = .ok ()) :
    settings.compile .keyValue input = .error (.expression 0 "" .noOperator) := by
  obtain ⟨rest,first⟩ := Token.undelimited_first input
  rw [undelimited_parts undelimited,compile_ordered _ _ rfl checked,first]
  rfl

theorem undelimited_valueOnly (checked : Grouping.check (Token.undelimited input) = .ok ()) {fields : List String}
    (present : fields ≠ []) : settings.compile (.valueOnly fields) input =
      .error (.incomplete (2 + (input.toList.filter fun c => (Lexeme.bracket? c).isNone).length)) := by
  have given := (Reading.hasFields_valueOnly fields).mpr present
  rw [undelimited_parts undelimited,compile_ordered _ _ given checked,
    evaluate_undelimited given input fun text => ⟨_,Reading.leaf_valueOnly fields text⟩,Token.undelimited_leaves]
  rfl

theorem undelimited_uncompiled (reading : Reading) (query : Query) : settings.compile reading input ≠ .ok query := by
  intro compiled
  cases given : reading.hasFields with
  | false =>
    rw [undelimited_parts undelimited,FilterQuery.compile,given] at compiled
    cases compiled
  | true =>
    cases checked : Grouping.check (Token.undelimited input) with
    | error misplaced =>
      rw [undelimited_unbalanced undelimited input given checked] at compiled
      cases compiled
    | ok _ =>
      cases reading with
      | keyValue =>
        rw [undelimited_keyValue undelimited input checked] at compiled
        cases compiled
      | valueOnly fields =>
        rw [undelimited_valueOnly undelimited input checked ((Reading.hasFields_valueOnly fields).mp given)] at compiled
        cases compiled

end Settings

theorem compile_undelimited (settings : Settings) (undelimited : settings.delimiter = "") (input : String) :
    (¬ Lexeme.Nested (input.toList.filterMap Lexeme.bracket?) → ∃ misplaced,
      settings.compile .keyValue input = .error (.grouping misplaced) ∧
      ∀ fields, fields ≠ [] → settings.compile (.valueOnly fields) input = .error (.grouping misplaced)) ∧
    (Lexeme.Nested (input.toList.filterMap Lexeme.bracket?) →
      settings.compile .keyValue input = .error (.expression 0 "" .noOperator) ∧
      ∀ fields, fields ≠ [] → settings.compile (.valueOnly fields) input =
        .error (.incomplete (2 + (input.toList.filter fun c => (Lexeme.bracket? c).isNone).length))) ∧
    ∀ reading query, settings.compile reading input ≠ .ok query := by
  rw [← Token.undelimited_balanced]
  refine ⟨?_,?_,Settings.undelimited_uncompiled undelimited input⟩
  · intro unbalanced
    cases checked : Grouping.check (Token.undelimited input) with
    | ok _ => exact absurd checked unbalanced
    | error misplaced =>
      refine ⟨misplaced,Settings.undelimited_unbalanced undelimited input rfl checked,?_⟩
      intro fields present
      exact Settings.undelimited_unbalanced undelimited input ((Reading.hasFields_valueOnly fields).mpr present) checked
  · intro checked
    refine ⟨Settings.undelimited_keyValue undelimited input checked,?_⟩
    intro fields present
    exact Settings.undelimited_valueOnly undelimited input checked present

-- Characters are no words: `and` is three leaves here, and its brackets alone count.
theorem undelimited_connective :
    (Settings.mk "" ["f"] true).compile .keyValue "(a=1)and[b=2]" = .error (.expression 0 "" .noOperator) ∧
    (Settings.mk "" ["f"] true).compile (.valueOnly ["f","g"]) "(a=1)and[b=2]" = .error (.incomplete 11) ∧
    ∃ misplaced, (Settings.mk "" ["f"] true).compile .keyValue "(a]" = .error (.grouping misplaced) := by
  have nested : Lexeme.Nested ("(a=1)and[b=2]".toList.filterMap Lexeme.bracket?) :=
    @Lexeme.Nested.group [] _ .round .empty (@Lexeme.Nested.group [] _ .square .empty .empty)
  have crossed : ¬ Lexeme.Nested ("(a]".toList.filterMap Lexeme.bracket?) := by
    intro nested
    have balanced := (Token.undelimited_balanced "(a]").mpr nested
    cases balanced
  obtain ⟨keyed,bare⟩ := (compile_undelimited (Settings.mk "" ["f"] true) rfl "(a=1)and[b=2]").2.1 nested
  obtain ⟨misplaced,found,_⟩ := (compile_undelimited (Settings.mk "" ["f"] true) rfl "(a]").1 crossed
  exact ⟨keyed,bare ["f","g"] (List.cons_ne_nil _ _),misplaced,found⟩

end FilterQuery
