import Mathlib.Data.List.Infix
import Mathlib.Data.Nat.Find
import FilterQuery.Proofs.Numbering
import FilterQuery.Settings
import FilterQuery.Text

namespace FilterQuery.Text

section
variable {c : Char} {between : List Char}

theorem mem_intercalate {parts : List (List Char)} (member : c ∈ between.intercalate parts) :
    c ∈ between ∨ ∃ part ∈ parts, c ∈ part := by
  induction parts with
  | nil => cases member
  | cons part rest ih =>
    cases rest with
    | nil =>
      rw [List.intercalate_singleton] at member
      exact .inr ⟨part,List.mem_cons_self,member⟩
    | cons next more =>
      rw [List.intercalate_cons_cons] at member
      rcases List.mem_append.mp member with here | later
      · rcases List.mem_append.mp here with inside | beside
        · exact .inr ⟨part,List.mem_cons_self,inside⟩
        · exact .inl beside
      · rcases ih later with beside | ⟨found,listed,inside⟩
        · exact .inl beside
        · exact .inr ⟨found,List.mem_cons_of_mem _ listed,inside⟩

theorem intercalate_mem (between : List Char) {parts : List (List Char)} {part : List Char}
    (listed : part ∈ parts) (inside : c ∈ part) : c ∈ between.intercalate parts := by
  induction parts with
  | nil => cases listed
  | cons first rest ih =>
    cases rest with
    | nil =>
      obtain rfl := List.mem_singleton.mp listed
      rwa [List.intercalate_singleton]
    | cons next more =>
      rw [List.intercalate_cons_cons]
      rcases List.mem_cons.mp listed with rfl | later
      · exact List.mem_append_left _ (List.mem_append_left _ inside)
      · exact List.mem_append_right _ (ih later)

theorem extendFirst_intercalate (c : Char) (between : List Char) (parts : List (List Char)) :
    between.intercalate (extendFirst c parts) = c :: between.intercalate parts := by
  rcases parts with _ | ⟨first,_ | ⟨second,rest⟩⟩
  · rfl
  · simp [extendFirst]
  · simp [extendFirst,List.intercalate_cons_cons]

end

theorem piecesAfter_join (delimiter text : List Char) (skip : Nat) (present : delimiter ≠ []) :
    delimiter.intercalate (piecesAfter delimiter skip text) = text.drop skip := by
  induction text generalizing skip with
  | nil => rw [piecesAfter,List.intercalate_singleton,List.drop_nil]
  | cons c rest ih =>
    cases skip with
    | succ skip => exact ih skip
    | zero =>
      rw [piecesAfter]
      split
      · rename_i found
        obtain ⟨after,whole⟩ := List.isPrefixOf_iff_prefix.mp found
        obtain ⟨head,tail,rfl⟩ := List.exists_cons_of_ne_nil present
        obtain ⟨rfl,rfl⟩ := List.cons.inj whole
        rw [List.intercalate_cons_of_ne_nil (piecesAfter_ne_nil _ _ _),ih]
        simp
      · rw [extendFirst_intercalate,ih]
        rfl

theorem intercalate_nothing (parts : List (List Char)) : List.intercalate [] parts = parts.flatten := by
  induction parts with
  | nil => rfl
  | cons part rest ih =>
    cases rest with
    | nil => rw [List.intercalate_singleton,List.flatten_singleton]
    | cons next more => simp [List.intercalate_cons_cons,ih]

theorem pieces_join (delimiter text : List Char) : delimiter.intercalate (pieces delimiter text) = text := by
  unfold pieces
  split
  · rename_i empty
    obtain rfl := List.isEmpty_iff.mp empty
    simp [intercalate_nothing,← List.flatMap_def]
  · rename_i present
    exact piecesAfter_join delimiter text 0 (by simpa using present)

-- The delimiter stands at a place of the text, or there for the first time.
def StandsAt (delimiter text : List Char) (place : Nat) : Prop := delimiter <+: text.drop place

instance : DecidablePred (StandsAt delimiter text) :=
  fun place => inferInstanceAs (Decidable (delimiter <+: text.drop place))

def FirstAt (delimiter text : List Char) (place : Nat) : Prop :=
  StandsAt delimiter text place ∧ ∀ earlier, earlier < place → ¬ StandsAt delimiter text earlier

section
variable {delimiter text : List Char} {place : Nat}

theorem stands_first (stands : StandsAt delimiter text place) : ∃ first, first ≤ place ∧ FirstAt delimiter text first := by
  have found : ∃ place, StandsAt delimiter text place := ⟨place,stands⟩
  exact ⟨Nat.find found,Nat.find_min' found stands,Nat.find_spec found,fun _ => Nat.find_min found⟩

theorem stands_somewhere : (∃ place, StandsAt delimiter text place) ↔ delimiter <:+: text := by
  constructor
  · intro found
    obtain ⟨place,stands⟩ := found
    exact stands.isInfix.trans (List.drop_suffix place text).isInfix
  · intro inside
    obtain ⟨rest,begins,ends⟩ := List.infix_iff_prefix_suffix.mp inside
    exact ⟨text.length - rest.length,by rwa [StandsAt,← List.suffix_iff_eq_drop.mp ends]⟩

theorem stands_within (after : List Char) (within : place + delimiter.length ≤ text.length) :
    StandsAt delimiter (text ++ after) place ↔ StandsAt delimiter text place := by
  unfold StandsAt
  rw [List.drop_append_of_le_length (by omega)]
  constructor
  · intro stands
    apply List.prefix_of_prefix_length_le stands (List.prefix_append _ _)
    rw [List.length_drop]
    omega
  · exact List.prefix_append_of_prefix

theorem first_within (after : List Char) (within : place + delimiter.length ≤ text.length) :
    FirstAt delimiter (text ++ after) place ↔ FirstAt delimiter text place := by
  have alike : ∀ earlier, earlier < place →
      (StandsAt delimiter (text ++ after) earlier ↔ StandsAt delimiter text earlier) :=
    fun earlier before => stands_within after (by omega)
  constructor
  · intro first
    refine ⟨(stands_within after within).mp first.1,?_⟩
    intro earlier before stands
    exact first.2 earlier before ((alike earlier before).mpr stands)
  · intro first
    refine ⟨(stands_within after within).mpr first.1,?_⟩
    intro earlier before stands
    exact first.2 earlier before ((alike earlier before).mp stands)

theorem piecesAfter_first (present : delimiter ≠ []) (first : FirstAt delimiter text place) :
    piecesAfter delimiter 0 text = text.take place :: piecesAfter delimiter 0 (text.drop (place + delimiter.length)) := by
  obtain ⟨stands,absent⟩ := first
  induction text generalizing place with
  | nil => exact absurd (List.prefix_nil.mp (by simpa [StandsAt] using stands)) present
  | cons c rest ih =>
    cases place with
    | zero =>
      have here : delimiter.isPrefixOf (c :: rest) = true := List.isPrefixOf_iff_prefix.mpr stands
      obtain ⟨d,more,rfl⟩ := List.exists_cons_of_ne_nil present
      rw [piecesAfter,if_pos here,piecesAfter_skip]
      simp
    | succ place =>
      have elsewhere : ¬ delimiter.isPrefixOf (c :: rest) = true := by
        intro here
        exact absent 0 (Nat.zero_lt_succ place) (List.isPrefixOf_iff_prefix.mp here)
      have later := ih stands fun earlier before => absent (earlier + 1) (Nat.succ_lt_succ before)
      rw [piecesAfter,if_neg elsewhere,later,Nat.add_right_comm]
      rfl

theorem piecesAfter_absent (absent : ¬ delimiter <:+: text) : piecesAfter delimiter 0 text = [text] := by
  induction text with
  | nil => rfl
  | cons c rest ih =>
    have elsewhere : ¬ delimiter.isPrefixOf (c :: rest) = true :=
      fun here => absent (List.isPrefixOf_iff_prefix.mp here).isInfix
    rw [piecesAfter,if_neg elsewhere,ih fun inside => absent (List.infix_cons inside)]
    rfl

theorem piecesAfter_single (present : delimiter ≠ []) :
    piecesAfter delimiter 0 text = [text] ↔ ¬ delimiter <:+: text := by
  constructor
  · intro single inside
    obtain ⟨place,stands⟩ := stands_somewhere.mpr inside
    obtain ⟨first,_,found⟩ := stands_first stands
    rw [piecesAfter_first present found] at single
    exact piecesAfter_ne_nil _ _ _ (List.cons.inj single).2
  · exact piecesAfter_absent

theorem piecesAfter_part (present : delimiter ≠ []) (part after : List Char) (rest : List (List Char)) :
    piecesAfter delimiter 0 (part ++ delimiter ++ after) = part :: rest ↔
      FirstAt delimiter (part ++ delimiter) part.length ∧ piecesAfter delimiter 0 after = rest := by
  have bounded : part.length + delimiter.length ≤ (part ++ delimiter).length := by rw [List.length_append]
  rw [← first_within after bounded]
  constructor
  · intro cut
    have behind : StandsAt delimiter (part ++ delimiter ++ after) part.length := by
      rw [StandsAt,List.append_assoc,List.drop_left]
      exact List.prefix_append _ _
    obtain ⟨place,before,first⟩ := stands_first behind
    rw [piecesAfter_first present first] at cut
    obtain ⟨head,tail⟩ := List.cons.inj cut
    obtain rfl : place = part.length := by
      have counted := congrArg List.length head
      rw [List.length_take,List.length_append,List.length_append] at counted
      omega
    rw [← List.length_append,List.drop_left] at tail
    exact ⟨first,tail⟩
  · intro found
    obtain ⟨first,later⟩ := found
    rw [piecesAfter_first present first,← List.length_append,List.drop_left,List.append_assoc,List.take_left,later]

theorem piecesAfter_intercalate (present : delimiter ≠ []) (earlier : List (List Char)) (last : List Char) :
    piecesAfter delimiter 0 (delimiter.intercalate (earlier ++ [last])) = earlier ++ [last] ↔
      ¬ delimiter <:+: last ∧ ∀ part ∈ earlier, FirstAt delimiter (part ++ delimiter) part.length := by
  induction earlier with
  | nil => simp [piecesAfter_single present]
  | cons part rest ih =>
    rw [List.cons_append,List.intercalate_cons_of_ne_nil (List.append_ne_nil_of_right_ne_nil _ (List.cons_ne_nil _ _)),
      piecesAfter_part present,ih,List.forall_mem_cons]
    exact and_left_comm

theorem piecesAfter_exact (present : delimiter ≠ []) (text : List Char) (earlier : List (List Char)) (last : List Char) :
    piecesAfter delimiter 0 text = earlier ++ [last] ↔ delimiter.intercalate (earlier ++ [last]) = text ∧
      ¬ delimiter <:+: last ∧ ∀ part ∈ earlier, FirstAt delimiter (part ++ delimiter) part.length := by
  constructor
  · intro split
    have joined := piecesAfter_join delimiter text 0 present
    rw [split,List.drop_zero] at joined
    refine ⟨joined,(piecesAfter_intercalate present earlier last).mp ?_⟩
    rw [joined,split]
  · intro whole
    obtain ⟨rfl,apart⟩ := whole
    exact (piecesAfter_intercalate present earlier last).mpr apart

-- A delimiter that begins before the end of a part either stands in it, or goes
-- over the end: then a beginning of the delimiter ends the part, and the rest of
-- the delimiter is a beginning of it again.
theorem first_end (present : delimiter ≠ []) (part : List Char) :
    FirstAt delimiter (part ++ delimiter) part.length ↔ ¬ delimiter <:+: part ∧
      ∀ count, 0 < count → count < delimiter.length → delimiter.drop count <+: delimiter →
        ¬ delimiter.take count <:+ part := by
  constructor
  · intro first
    constructor
    · intro inside
      obtain ⟨place,stands⟩ := stands_somewhere.mpr inside
      have room := stands.length_le
      have some := List.length_pos_iff.mpr present
      rw [List.length_drop] at room
      exact first.2 place (by omega) ((stands_within delimiter (by omega)).mpr stands)
    · intro count positive small border ends
      have room := ends.length_le
      have start := List.suffix_iff_eq_drop.mp ends
      rw [List.length_take_of_le small.le] at room start
      apply first.2 (part.length - count) (by omega)
      rw [StandsAt,List.drop_append_of_le_length (by omega),← start]
      calc delimiter
        _ = delimiter.take count ++ delimiter.drop count := (List.take_append_drop count delimiter).symm
        _ <+: delimiter.take count ++ delimiter := (List.prefix_append_right_inj _).mpr border
  · intro apart
    obtain ⟨outside,borders⟩ := apart
    refine ⟨by rw [StandsAt,List.drop_left],?_⟩
    intro place before stands
    by_cases within : place + delimiter.length ≤ part.length
    · exact outside (stands_somewhere.mp ⟨place,(stands_within delimiter within).mp stands⟩)
    · rw [StandsAt,List.drop_append_of_le_length before.le] at stands
      have counted : (part.drop place).length = part.length - place := List.length_drop
      have begins : part.drop place <+: delimiter :=
        List.prefix_of_prefix_length_le (List.prefix_append _ _) stands (by omega)
      have start := List.prefix_iff_eq_take.mp begins
      rw [counted] at start
      apply borders (part.length - place) (by omega) (by omega)
      · rw [start] at stands
        nth_rewrite 1 [← List.take_append_drop (part.length - place) delimiter] at stands
        exact (List.prefix_append_right_inj _).mp stands
      · rw [← start]
        exact List.drop_suffix place part

end

theorem split_pieces (delimiter text : String) (parts : List String) :
    split delimiter text = parts ↔ pieces delimiter.toList text.toList = parts.map String.toList := by
  unfold split
  constructor
  · intro same
    rw [← same]
    simp [List.map_map,Function.comp_def]
  · intro same
    rw [same]
    simp [List.map_map,Function.comp_def]

theorem split_join (delimiter text : String) : delimiter.intercalate (split delimiter text) = text := by
  rw [← String.toList_inj,String.toList_intercalate,← (split_pieces delimiter text _).mp rfl,pieces_join]

-- Parts that a delimiter can be put between and be found again.
def Separated (delimiter : String) (earlier : List String) (last : String) : Prop :=
  ¬ delimiter.toList <:+: last.toList ∧
    ∀ part ∈ earlier, FirstAt delimiter.toList (part ++ delimiter).toList part.length

theorem split_exact {delimiter : String} (present : delimiter ≠ "") (text : String) (earlier : List String) (last : String) :
    split delimiter text = earlier ++ [last] ↔
      delimiter.intercalate (earlier ++ [last]) = text ∧ Separated delimiter earlier last := by
  have characters : delimiter.toList ≠ [] := by simpa using present
  have sought : pieces delimiter.toList text.toList = piecesAfter delimiter.toList 0 text.toList := by
    rw [pieces,if_neg (by simpa using present)]
  rw [split_pieces,sought,List.map_append,List.map_singleton,piecesAfter_exact characters,← String.toList_inj,
    String.toList_intercalate,Separated]
  simp [String.length_toList]

theorem first_character (d : Char) (part : List Char) : FirstAt [d] (part ++ [d]) part.length ↔ d ∉ part := by
  rw [first_end (List.cons_ne_nil _ _),List.singleton_infix_iff]
  constructor
  · exact And.left
  · intro free
    refine ⟨free,?_⟩
    intro count positive small
    rw [List.length_singleton] at small
    omega

theorem split_comma (text : String) (parts : List String) : split "," text = parts ↔
    parts ≠ [] ∧ (∀ part ∈ parts, ',' ∉ part.toList) ∧ ",".intercalate parts = text := by
  rcases parts.eq_nil_or_concat with rfl | ⟨earlier,last,rfl⟩
  · simp [split,pieces_ne_nil]
  · have apart : Separated "," earlier last ↔ ',' ∉ last.toList ∧ ∀ part ∈ earlier, ',' ∉ part.toList := by
      simp [Separated,List.singleton_infix_iff,← String.length_toList,first_character]
    rw [List.concat_eq_append,split_exact (by decide),apart,List.forall_mem_append,List.forall_mem_singleton]
    constructor
    · intro whole
      obtain ⟨joined,free,others⟩ := whole
      exact ⟨List.append_ne_nil_of_right_ne_nil _ (List.cons_ne_nil _ _),⟨others,free⟩,joined⟩
    · intro whole
      obtain ⟨_,⟨others,free⟩,joined⟩ := whole
      exact ⟨joined,free,others⟩

end FilterQuery.Text

namespace FilterQuery

namespace Lexer

-- The tokens that are still to come.
def pending (lexer : Lexer) : List Token := Token.numbered lexer.position (lexer.remaining.map Lexeme.ofText)

theorem start_pending (delimiter input : String) : (start delimiter input).pending = tokenize delimiter input :=
  (Token.ofWords_numbered _).symm

theorem next_pending (lexer : Lexer) :
    lexer.next.1 = lexer.pending.head? ∧ lexer.next.2.pending = lexer.pending.tail := by
  obtain ⟨remaining,position⟩ := lexer
  cases remaining with
  | nil => exact ⟨rfl,rfl⟩
  | cons word rest => exact ⟨rfl,rfl⟩

theorem take_pending (lexer : Lexer) (count : Nat) :
    lexer.take count = (lexer.pending.take count).map some ++ List.replicate (count - lexer.pending.length) none := by
  induction count generalizing lexer with
  | zero => simp [take]
  | succ count ih =>
    obtain ⟨first,later⟩ := next_pending lexer
    rw [take,ih,first,later]
    cases lexer.pending with
    | nil => simp [List.replicate_succ]
    | cons token rest => simp

end Lexer

theorem tokenize_texts (delimiter input : String) :
    (tokenize delimiter input).map Token.text = Text.split delimiter input := Token.words_roundtrip _

theorem tokenize_positions (delimiter input : String) :
    (tokenize delimiter input).map Token.position = List.range (tokenize delimiter input).length := by
  have counted : (tokenize delimiter input).length = (Text.split delimiter input).length := by
    rw [← tokenize_texts,List.length_map]
  rw [counted]
  exact Token.positions_exact _

-- The default delimiter begins with the bars it ends with, so it can begin in a
-- part and end behind it in two ways.
theorem default_overlaps : ∀ count, count < 6 → 0 < count →
    (defaultDelimiter.toList.drop count <+: defaultDelimiter.toList ↔ count = 4 ∨ count = 5) := by
  decide

theorem default_first (part : String) :
    Text.FirstAt defaultDelimiter.toList (part ++ defaultDelimiter).toList part.length ↔
      ¬ defaultDelimiter.toList <:+: part.toList ∧ ¬ "||__".toList <:+ part.toList ∧
        ¬ "||__|".toList <:+ part.toList := by
  have present : defaultDelimiter.toList ≠ [] := List.cons_ne_nil _ _
  have size : defaultDelimiter.toList.length = 6 := rfl
  rw [String.toList_append,← String.length_toList,Text.first_end present,size]
  apply and_congr_right
  intro _
  constructor
  · intro apart
    have ends : ∀ count, count = 4 ∨ count = 5 → ¬ defaultDelimiter.toList.take count <:+ part.toList := by
      intro count overlaps
      exact apart count (by omega) (by omega) ((default_overlaps count (by omega) (by omega)).mpr overlaps)
    exact ⟨ends 4 (.inl rfl),ends 5 (.inr rfl)⟩
  · intro apart count positive small border
    obtain rfl | rfl := (default_overlaps count small positive).mp border
    · exact apart.1
    · exact apart.2

theorem tokenize_joined :
    (∀ delimiter input, delimiter.intercalate ((tokenize delimiter input).map Token.text) = input ∧
      (tokenize delimiter input).map Token.position = List.range (tokenize delimiter input).length ∧
      ∀ count, (Lexer.start delimiter input).take count = ((tokenize delimiter input).take count).map some ++
        List.replicate (count - (tokenize delimiter input).length) none) ∧
    (∀ delimiter earlier last, delimiter ≠ "" →
      ((tokenize delimiter (delimiter.intercalate (earlier ++ [last]))).map Token.text = earlier ++ [last] ↔
        Text.Separated delimiter earlier last) ∧
      (Text.Separated delimiter earlier last → ∀ settings : Settings, settings.delimiter = delimiter →
        settings.flattenNested = false → ∀ reading,
          settings.compile reading (delimiter.intercalate (earlier ++ [last])) =
            compileWords reading (earlier ++ [last]))) ∧
    ∀ part : String, Text.FirstAt defaultDelimiter.toList (part ++ defaultDelimiter).toList part.length ↔
      ¬ defaultDelimiter.toList <:+: part.toList ∧ ¬ "||__".toList <:+ part.toList ∧
        ¬ "||__|".toList <:+ part.toList := by
  refine ⟨?_,?_,default_first⟩
  · intro delimiter input
    refine ⟨?_,tokenize_positions delimiter input,?_⟩
    · rw [tokenize_texts]
      exact Text.split_join delimiter input
    · intro count
      rw [← Lexer.start_pending]
      exact Lexer.take_pending _ count
  · intro delimiter earlier last present
    have found : Text.split delimiter (delimiter.intercalate (earlier ++ [last])) = earlier ++ [last] ↔
        Text.Separated delimiter earlier last := by
      rw [Text.split_exact present]
      exact and_iff_right rfl
    refine ⟨by rw [tokenize_texts]; exact found,?_⟩
    intro apart settings same kept reading
    rw [settings.compile_words,settings.finish_flag,if_neg (by simp [kept]),Except.map_id,id,same,found.mpr apart]

-- The part `a||__` is not found again: a delimiter begins in it.
example : (tokenize defaultDelimiter (defaultDelimiter.intercalate ["a||__","b"])).map Token.text = ["a","__||b"] := rfl

end FilterQuery
