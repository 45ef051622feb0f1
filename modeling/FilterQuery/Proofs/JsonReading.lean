import Mathlib.Data.List.DropRight
import FilterQuery.Json
import FilterQuery.Json.Reader

namespace FilterQuery.Json

-- The grammar of JSON, from what is written to its texts: of one value there are
-- many, by blanks, escapes, and the letters and signs of numbers.
def Blank (text : List Char) : Prop := ∀ c ∈ text, c = ' ' ∨ c = '\n' ∨ c = '\r' ∨ c = '\t'

structure DigitsText (digits : List Nat) (text : List Char) : Prop where
  present : digits ≠ []
  decimal : ∀ digit ∈ digits, digit < 10
  text : text = digits.map Nat.digitChar

inductive FractionText : List Nat → List Char → Prop where
  | absent : FractionText [] []
  | given (digits : DigitsText values text) : FractionText values ('.' :: text)

inductive ExponentText : Option (Bool × List Nat) → List Char → Prop where
  | absent : ExponentText none []
  | plain (mark : c = 'e' ∨ c = 'E') (digits : DigitsText values text) :
      ExponentText (some (false,values)) (c :: text)
  | plus (mark : c = 'e' ∨ c = 'E') (digits : DigitsText values text) :
      ExponentText (some (false,values)) (c :: '+' :: text)
  | minus (mark : c = 'e' ∨ c = 'E') (digits : DigitsText values text) :
      ExponentText (some (true,values)) (c :: '-' :: text)

def signText : Bool → List Char
  | true => ['-']
  | false => []

inductive NumeralText : Numeral → List Char → Prop where
  | parts (negative : Bool) (whole : DigitsText values wholeText)
      (canonical : values.head? = some 0 → values.length = 1) (fraction : FractionText behind fractionText)
      (exponent : ExponentText power exponentText) :
      NumeralText ⟨negative,values,behind,power⟩ (signText negative ++ (wholeText ++ (fractionText ++ exponentText)))

def escapes : List (Char × Char) :=
  [('"','"'),('\\','\\'),('/','/'),('b','\x08'),('f','\x0C'),('n','\x0A'),('r','\x0D'),('t','\x09')]

def HexText (value : Nat) (c : Char) : Prop :=
  value < 16 ∧ (c = Nat.digitChar value ∨ c = (Nat.digitChar value).toUpper)

-- What stands between the quotes of a string.
inductive UnitsText : List WrittenChar → List Char → Prop where
  | nil : UnitsText [] []
  | raw (shown : 0x20 ≤ c.toNat) (unquoted : c ≠ '"') (unescaped : c ≠ '\\') (rest : UnitsText units text) :
      UnitsText (.plain c :: units) (c :: text)
  | named (listed : (mark,c) ∈ escapes) (rest : UnitsText units text) :
      UnitsText (.plain c :: units) ('\\' :: mark :: text)
  | numbered (first : HexText x a) (second : HexText y b) (third : HexText z c) (fourth : HexText w d)
      (rest : UnitsText units text) :
      UnitsText (.unit (x * 0x1000 + y * 0x100 + z * 0x10 + w) :: units) ('\\' :: 'u' :: a :: b :: c :: d :: text)

mutual
inductive ValueText : Written → List Char → Prop where
  | null : ValueText .null ['n','u','l','l']
  | yes : ValueText (.bool true) ['t','r','u','e']
  | no : ValueText (.bool false) ['f','a','l','s','e']
  | num (numeral : NumeralText value text) : ValueText (.num value) text
  | str (between : UnitsText units text) : ValueText (.str units) ('"' :: (text ++ ['"']))
  | noItems (blank : Blank text) : ValueText (.arr []) ('[' :: (text ++ [']']))
  | arr (between : ItemsText items text) : ValueText (.arr items) ('[' :: (text ++ [']']))
  | noMembers (blank : Blank text) : ValueText (.obj []) ('\x7b' :: (text ++ ['\x7d']))
  | obj (between : MembersText members text) : ValueText (.obj members) ('\x7b' :: (text ++ ['\x7d']))
-- A value with blanks around it.
inductive ElementText : Written → List Char → Prop where
  | around (before : Blank ahead) (inside : ValueText value text) (after : Blank behind) :
      ElementText value (ahead ++ (text ++ behind))
inductive ItemsText : List Written → List Char → Prop where
  | last (only : ElementText item text) : ItemsText [item] text
  | more (first : ElementText item text) (rest : ItemsText items others) :
      ItemsText (item :: items) (text ++ ',' :: others)
inductive MemberText : List WrittenChar × Written → List Char → Prop where
  | pair (before : Blank ahead) (key : UnitsText units name) (after : Blank behind) (value : ElementText item text) :
      MemberText (units,item) (ahead ++ '"' :: (name ++ '"' :: (behind ++ ':' :: text)))
inductive MembersText : List (List WrittenChar × Written) → List Char → Prop where
  | last (only : MemberText member text) : MembersText [member] text
  | more (first : MemberText member text) (rest : MembersText members others) :
      MembersText (member :: members) (text ++ ',' :: others)
end

-- What stands between the quotes means these characters: a character beyond the
-- first plane has two units.
inductive Stands : List WrittenChar → List Char → Prop where
  | nil : Stands [] []
  | plain (c : Char) (rest : Stands units text) : Stands (.plain c :: units) (c :: text)
  | single (c : Char) (small : c.toNat < 0x10000) (rest : Stands units text) :
      Stands (.unit c.toNat :: units) (c :: text)
  | double (c : Char) (large : 0x10000 ≤ c.toNat) (rest : Stands units text) :
      Stands (.unit (0xD800 + (c.toNat - 0x10000) / 0x400) :: .unit (0xDC00 + (c.toNat - 0x10000) % 0x400) :: units)
        (c :: text)

-- The value of what is written, if no number is in it. Members stay as they are.
mutual
inductive Means : Written → Json → Prop where
  | null : Means .null .null
  | bool (value : Bool) : Means (.bool value) (.bool value)
  | str (stands : Stands units text.toList) : Means (.str units) (.str text)
  | arr (items : MeansItems written values) : Means (.arr written) (.arr values)
  | obj (members : MeansMembers written values) : Means (.obj written) (.obj values)
inductive MeansItems : List Written → List Json → Prop where
  | nil : MeansItems [] []
  | cons (first : Means item value) (rest : MeansItems written values) :
      MeansItems (item :: written) (value :: values)
inductive MeansMembers : List (List WrittenChar × Written) → List (String × Json) → Prop where
  | nil : MeansMembers [] []
  | cons (name : Stands units key.toList) (first : Means item value) (rest : MeansMembers written values) :
      MeansMembers ((units,item) :: written) ((key,value) :: values)
end

namespace Written

theorem skipSpace_blank {gap : List Char} (blank : Blank gap) (text : List Char) :
    skipSpace (gap ++ text) = skipSpace text := by
  apply List.dropWhile_append_of_pos
  intro c member
  rcases blank c member with rfl | rfl | rfl | rfl <;> rfl

@[simp] theorem skipSpace_shown {c : Char} (shown : isSpace c = false) (text : List Char) :
    skipSpace (c :: text) = c :: text := by simp [skipSpace,shown]

-- A text in which a number cannot go on.
def Ended (rest : List Char) : Prop := ∀ c ∈ rest.head?, c.isDigit = false ∧ c ≠ '.' ∧ c ≠ 'e' ∧ c ≠ 'E'

def Undigited (rest : List Char) : Prop := ∀ c ∈ rest.head?, c.isDigit = false

theorem Ended.undigited {rest : List Char} (ended : Ended rest) : Undigited rest := fun c ahead => (ended c ahead).1

theorem digitChar_exact : ∀ digit, digit < 10 →
    (Nat.digitChar digit).isDigit = true ∧ digitValue (Nat.digitChar digit) = digit := by decide

theorem readDigits_text {digits : List Nat} {text rest : List Char} (digitsText : DigitsText digits text)
    (ended : Undigited rest) : readDigits (text ++ rest) = some (digits,rest) := by
  obtain ⟨present,decimal,rfl⟩ := digitsText
  have inside : ∀ c ∈ digits.map Nat.digitChar, c.isDigit = true := by
    intro c member
    obtain ⟨digit,listed,rfl⟩ := List.mem_map.mp member
    exact (digitChar_exact digit (decimal digit listed)).1
  have values : (digits.map Nat.digitChar).map digitValue = digits := by
    rw [List.map_map]
    exact (List.map_congr_left fun digit listed => (digitChar_exact digit (decimal digit listed)).2).trans (List.map_id digits)
  have stops : rest.takeWhile Char.isDigit = [] ∧ rest.dropWhile Char.isDigit = rest := by
    cases rest with
    | nil => exact ⟨rfl,rfl⟩
    | cons c rest => simp [ended c rfl]
  rw [readDigits,List.takeWhile_append_of_pos inside,List.dropWhile_append_of_pos inside,stops.1,stops.2,List.append_nil]
  cases digits with
  | nil => exact absurd rfl present
  | cons digit digits =>
    simp only [List.map_cons] at values ⊢
    rw [values]

theorem digits_head {digits : List Nat} {text : List Char} (digitsText : DigitsText digits text) :
    ∃ c rest, text = c :: rest ∧ c.isDigit = true := by
  obtain ⟨present,decimal,rfl⟩ := digitsText
  cases digits with
  | nil => exact absurd rfl present
  | cons digit digits => exact ⟨_,_,rfl,(digitChar_exact digit (decimal digit List.mem_cons_self)).1⟩

theorem digit_unsigned {c : Char} (digit : c.isDigit = true) : c ≠ '-' ∧ c ≠ '+' := by
  constructor
  · rintro rfl
    cases digit
  · rintro rfl
    cases digit

theorem readSign_other {mark c : Char} (other : c ≠ mark) (rest : List Char) :
    readSign mark (c :: rest) = (false,c :: rest) := if_neg other

theorem readFraction_text {values : List Nat} {text rest : List Char} (fraction : FractionText values text)
    (ended : Undigited rest) (unpointed : ∀ c ∈ rest.head?, c ≠ '.') :
    readFraction (text ++ rest) = some (values,rest) := by
  cases fraction with
  | given digits => exact readDigits_text digits ended
  | absent =>
    rw [List.nil_append]
    unfold readFraction
    split
    · exact absurd rfl (unpointed '.' rfl)
    · rfl

theorem exponent_undigited {power : Option (Bool × List Nat)} {text rest : List Char} (exponent : ExponentText power text)
    (ended : Ended rest) : ∀ c ∈ (text ++ rest).head?, c.isDigit = false ∧ c ≠ '.' := by
  intro c ahead
  cases exponent with
  | absent => exact ⟨(ended c ahead).1,(ended c ahead).2.1⟩
  | plain mark | plus mark | minus mark =>
    cases ahead
    rcases mark with rfl | rfl
    · decide
    · decide

theorem readExponent_text {power : Option (Bool × List Nat)} {text rest : List Char} (exponent : ExponentText power text)
    (ended : Ended rest) : readExponent (text ++ rest) = some (power,rest) := by
  cases exponent with
  | absent =>
    cases rest with
    | nil => rfl
    | cons c rest =>
      obtain ⟨_,_,lower,upper⟩ := ended c rfl
      rw [List.nil_append,readExponent,if_neg (by simp [lower,upper])]
  | plain mark digits =>
    obtain ⟨d,more,rfl,digit⟩ := digits_head digits
    have read := readDigits_text digits ended.undigited
    simp only [List.cons_append] at read ⊢
    simp [readExponent,mark,readSign_other (digit_unsigned digit).1,readSign_other (digit_unsigned digit).2,read]
  | plus mark digits =>
    have read := readDigits_text digits ended.undigited
    simp only [List.cons_append]
    simp [readExponent,mark,readSign,read]
  | minus mark digits =>
    have read := readDigits_text digits ended.undigited
    simp only [List.cons_append]
    simp [readExponent,mark,readSign,read]

theorem fraction_undigited {values : List Nat} {text rest : List Char} (fraction : FractionText values text)
    (ended : Undigited rest) : Undigited (text ++ rest) := by
  cases fraction with
  | absent => exact ended
  | given digits =>
    intro c ahead
    cases ahead
    rfl

theorem readNumeral_text {numeral : Numeral} {text rest : List Char} (written : NumeralText numeral text)
    (ended : Ended rest) : readNumeral (text ++ rest) = some (numeral,rest) := by
  cases written with
  | @parts values wholeText behind fractionText power exponentText negative whole canonical fraction exponent =>
    have later := exponent_undigited exponent ended
    have undigited : Undigited (exponentText ++ rest) := fun c ahead => (later c ahead).1
    have sign : readSign '-' (signText negative ++ (wholeText ++ (fractionText ++ (exponentText ++ rest)))) =
        (negative,wholeText ++ (fractionText ++ (exponentText ++ rest))) := by
      cases negative with
      | true => rfl
      | false =>
        obtain ⟨c,more,rfl,digit⟩ := digits_head whole
        exact readSign_other (digit_unsigned digit).1 _
    have digits := readDigits_text whole (fraction_undigited fraction undigited)
    have fractional := readFraction_text fraction undigited fun c ahead => (later c ahead).2
    have exponential := readExponent_text exponent ended
    have allowed : ¬ (values.head? = some 0 ∧ values.length ≠ 1) := fun zero => zero.2 (canonical zero.1)
    simp only [List.append_assoc]
    simp only [readNumeral,sign,digits,fractional,exponential,Option.bind_eq_bind,Option.bind_some,if_neg allowed]
    rfl

theorem hexValue_text {value : Nat} {c : Char} (hex : HexText value c) : hexValue? c = some value := by
  obtain ⟨small,shown⟩ := hex
  have known : ∀ value, value < 16 → hexValue? (Nat.digitChar value) = some value ∧
      hexValue? (Nat.digitChar value).toUpper = some value := by decide
  rcases shown with rfl | rfl
  · exact (known value small).1
  · exact (known value small).2

theorem namedEscape_listed {mark c : Char} (listed : (mark,c) ∈ escapes) : namedEscape? mark = some c ∧ mark ≠ 'u' := by
  simp only [escapes,List.mem_cons,Prod.mk.injEq,List.not_mem_nil,or_false] at listed
  rcases listed with ⟨rfl,rfl⟩ | ⟨rfl,rfl⟩ | ⟨rfl,rfl⟩ | ⟨rfl,rfl⟩ | ⟨rfl,rfl⟩ | ⟨rfl,rfl⟩ | ⟨rfl,rfl⟩ | ⟨rfl,rfl⟩ <;> decide

theorem readUnits_text {units : List WrittenChar} {text : List Char} (written : UnitsText units text) (rest : List Char) :
    readUnits (text ++ '"' :: rest) = some (units,rest) := by
  induction written with
  | nil => rfl
  | raw shown unquoted unescaped _ ih =>
    rw [List.cons_append,readUnits]
    · simp [unescaped,Nat.not_lt.mpr shown,ih]
    · exact unquoted
    · exact fun _ _ _ _ _ same => absurd same unescaped
    · exact fun _ _ same => absurd same unescaped
  | named listed _ ih =>
    obtain ⟨escape,numberless⟩ := namedEscape_listed listed
    simp [readUnits,escape,numberless,ih]
  | numbered first second third fourth _ ih =>
    simp only [List.cons_append,readUnits,hexValue_text first,hexValue_text second,hexValue_text third,
      hexValue_text fourth,ih]
    rfl

-- A value begins with no blank, and not as a list ends.
abbrev Begins (c : Char) : Prop := isSpace c = false ∧ c ≠ ']'

theorem digit_begins {c : Char} (digit : c.isDigit = true) : Begins c := by
  constructor
  · cases space : isSpace c with
    | false => rfl
    | true =>
      simp only [isSpace,Bool.or_eq_true,beq_iff_eq] at space
      rcases space with ((rfl | rfl) | rfl) | rfl <;> cases digit
  · rintro rfl
    cases digit

theorem numeral_head {numeral : Numeral} {text : List Char} (written : NumeralText numeral text) :
    ∃ c more, text = c :: more ∧ (c = '-' ∨ c.isDigit = true) := by
  cases written with
  | parts negative whole canonical fraction exponent =>
    obtain ⟨c,more,rfl,digit⟩ := digits_head whole
    cases negative with
    | true => exact ⟨_,_,rfl,.inl rfl⟩
    | false => exact ⟨_,_,rfl,.inr digit⟩

theorem value_head {value : Written} {text : List Char} (written : ValueText value text) :
    ∃ c more, text = c :: more ∧ Begins c := by
  cases written with
  | null | yes | no | str | noItems | arr | noMembers | obj => exact ⟨_,_,rfl,by decide⟩
  | num numeral =>
    obtain ⟨c,more,rfl,begins⟩ := numeral_head numeral
    refine ⟨c,more,rfl,?_⟩
    rcases begins with rfl | digit
    · decide
    · exact digit_begins digit

theorem element_head {value : Written} {text : List Char} (written : ElementText value text) (rest : List Char) :
    ∃ c more, skipSpace (text ++ rest) = c :: more ∧ Begins c := by
  cases written with
  | around before inside after =>
    obtain ⟨c,more,rfl,begins⟩ := value_head inside
    rw [List.append_assoc,skipSpace_blank before,List.append_assoc,List.cons_append,skipSpace_shown begins.1]
    exact ⟨c,_,rfl,begins⟩

theorem skipSpace_twice (text : List Char) : skipSpace (skipSpace text) = skipSpace text :=
  List.dropWhile_idempotent isSpace text

theorem readValue_skip (fuel : Nat) (text : List Char) : readValue fuel (skipSpace text) = readValue fuel text := by
  cases fuel with
  | zero => rfl
  | succ fuel => rw [readValue,readValue,skipSpace_twice]

theorem readItems_skip (fuel : Nat) (text : List Char) : readItems fuel (skipSpace text) = readItems fuel text := by
  cases fuel with
  | zero => rfl
  | succ fuel => rw [readItems,readItems,readValue_skip]

theorem readMembers_skip (fuel : Nat) (text : List Char) : readMembers fuel (skipSpace text) = readMembers fuel text := by
  cases fuel with
  | zero => rfl
  | succ fuel => rw [readMembers,readMembers,skipSpace_twice]

theorem readValue_numeral {numeral : Numeral} {text rest : List Char} (written : NumeralText numeral text)
    (ended : Ended rest) (fuel : Nat) : readValue (fuel+1) (text ++ rest) = some (.num numeral,rest) := by
  have read := readNumeral_text written ended
  obtain ⟨c,more,rfl,begins⟩ := numeral_head written
  have shown : isSpace c = false := by
    rcases begins with rfl | digit
    · rfl
    · exact (digit_begins digit).1
  rw [List.cons_append] at read ⊢
  have numberless : ∀ mark ∈ ['"','[','\x7b','n','t','f'], mark ≠ '-' ∧ mark.isDigit = false := by simp
  have numeric : ∀ mark ∈ ['"','[','\x7b','n','t','f'], c ≠ mark := by
    rintro mark listed rfl
    obtain ⟨unsigned,undigited⟩ := numberless c listed
    rcases begins with signed | digit
    · exact unsigned signed
    · exact absurd digit (by rw [undigited]; decide)
  rw [readValue,skipSpace_shown shown]
  split
  case h_7 =>
    rw [read]
    rfl
  all_goals
    rename_i same
    cases same
    exact absurd rfl (numeric _ (by decide))

theorem ended_blank {gap rest : List Char} (blank : Blank gap) (ended : Ended rest) : Ended (gap ++ rest) := by
  cases gap with
  | nil => exact ended
  | cons c gap =>
    rintro d ahead
    cases ahead
    rcases blank c List.mem_cons_self with rfl | rfl | rfl | rfl <;> decide

theorem ended_mark {mark : Char} (listed : mark ∈ [',',']','\x7d']) (rest : List Char) : Ended (mark :: rest) := by
  rintro c ahead
  cases ahead
  revert listed
  simp only [List.mem_cons,List.not_mem_nil,or_false]
  rintro (rfl | rfl | rfl) <;> decide

theorem readMembers_pair {units : List WrittenChar} {ahead name behind : List Char} (before : Blank ahead)
    (key : UnitsText units name) (after : Blank behind) (fuel : Nat) (tail : List Char) :
    readMembers (fuel+1) (ahead ++ '"' :: (name ++ '"' :: (behind ++ ':' :: tail))) = (do
      let (first,rest) ← readValue fuel tail
      match skipSpace rest with
      | '\x7d' :: rest => some ([(units,first)],rest)
      | ',' :: rest => do
        let (others,rest) ← readMembers fuel rest
        return ((units,first) :: others,rest)
      | _ => none) := by
  have read := readMembers.eq_2 (ahead ++ '"' :: (name ++ '"' :: (behind ++ ':' :: tail))) fuel
  simp only [skipSpace_blank before,skipSpace_shown (c := '"') rfl,readUnits_text key,Option.bind_eq_bind,
    Option.bind_some,skipSpace_blank after,skipSpace_shown (c := ':') rfl] at read
  exact read

theorem readValue_items {fuel : Nat} {text rest more : List Char} {items : List Written} {c : Char}
    (skip : skipSpace text = c :: more) (begins : Begins c) (read : readItems fuel text = some (items,rest)) :
    readValue (fuel+1) ('[' :: text) = some (.arr items,rest) := by
  rw [← readItems_skip,skip] at read
  rw [readValue,skipSpace_shown rfl]
  simp only [skip]
  split
  · rename_i same
    cases same
    exact absurd rfl begins.2
  · simp [read]

theorem readValue_members {fuel : Nat} {text rest more : List Char} {members : List (List WrittenChar × Written)}
    (skip : skipSpace text = '"' :: more) (read : readMembers fuel text = some (members,rest)) :
    readValue (fuel+1) ('\x7b' :: text) = some (.obj members,rest) := by
  rw [← readMembers_skip,skip] at read
  rw [readValue,skipSpace_shown rfl]
  simp [skip,read]

theorem items_head {items : List Written} {text : List Char} (written : ItemsText items text) (rest : List Char) :
    ∃ c more, skipSpace (text ++ rest) = c :: more ∧ Begins c := by
  cases written with
  | last only => exact element_head only rest
  | more first others => rw [List.append_assoc]; exact element_head first _

theorem member_head {member : List WrittenChar × Written} {text : List Char} (written : MemberText member text)
    (rest : List Char) : ∃ more, skipSpace (text ++ rest) = '"' :: more := by
  cases written with
  | pair before key after value =>
    rw [List.append_assoc,skipSpace_blank before]
    exact ⟨_,rfl⟩

theorem members_head {members : List (List WrittenChar × Written)} {text : List Char}
    (written : MembersText members text) (rest : List Char) : ∃ more, skipSpace (text ++ rest) = '"' :: more := by
  cases written with
  | last only => exact member_head only rest
  | more first others => rw [List.append_assoc]; exact member_head first _

mutual
theorem readValue_text {value : Written} {text : List Char} : ValueText value text → ∀ fuel rest,
    2 * text.length ≤ fuel → Ended rest → readValue fuel (text ++ rest) = some (value,rest)
  | .null,fuel+1,rest,_,_ => rfl
  | .yes,fuel+1,rest,_,_ => rfl
  | .no,fuel+1,rest,_,_ => rfl
  | .num numeral,fuel+1,rest,_,ended => readValue_numeral numeral ended fuel
  | .str between,fuel+1,rest,_,_ => by
    simp [readValue,isSpace,readUnits_text between]
  | .noItems blank,fuel+1,rest,_,_ => by
    simp [readValue,isSpace,skipSpace_blank blank]
  | .noMembers blank,fuel+1,rest,_,_ => by
    simp [readValue,isSpace,skipSpace_blank blank]
  | .arr between,fuel+1,rest,enough,_ => by
    obtain ⟨c,more,skip,begins⟩ := items_head between (']' :: rest)
    simp only [List.length_cons,List.length_append] at enough
    have read := readItems_text between fuel rest (by omega)
    rw [List.cons_append,List.append_assoc]
    exact readValue_items skip begins read
  | .obj between,fuel+1,rest,enough,_ => by
    obtain ⟨more,skip⟩ := members_head between ('\x7d' :: rest)
    simp only [List.length_cons,List.length_append] at enough
    have read := readMembers_text between fuel rest (by omega)
    rw [List.cons_append,List.append_assoc]
    exact readValue_members skip read
  | inside,0,rest,enough,_ => by
    obtain ⟨c,more,rfl,_⟩ := value_head inside
    simp at enough
theorem readElement_text {value : Written} {text : List Char} : ElementText value text → ∀ fuel rest,
    2 * text.length ≤ fuel → Ended rest →
    ∃ gap, Blank gap ∧ readValue fuel (text ++ rest) = some (value,gap ++ rest)
  | .around before inside after,fuel,rest,enough,ended => by
    simp only [List.length_append] at enough
    have read := readValue_text inside fuel _ (by omega) (ended_blank after ended)
    refine ⟨_,after,?_⟩
    rw [← readValue_skip,List.append_assoc,skipSpace_blank before,readValue_skip,List.append_assoc]
    exact read
theorem readItems_text {items : List Written} {text : List Char} : ItemsText items text → ∀ fuel rest,
    2 * text.length + 1 ≤ fuel → readItems fuel (text ++ ']' :: rest) = some (items,rest)
  | .last only,fuel+1,rest,enough => by
    obtain ⟨gap,blank,read⟩ := readElement_text only fuel (']' :: rest) (by omega) (ended_mark (by decide) _)
    simp [readItems,isSpace,read,skipSpace_blank blank]
  | @ItemsText.more _ _ _ others first more,fuel+1,rest,enough => by
    simp only [List.length_cons,List.length_append] at enough
    obtain ⟨gap,blank,read⟩ := readElement_text first fuel (',' :: (others ++ ']' :: rest)) (by omega) (ended_mark (by decide) _)
    have later := readItems_text more fuel rest (by omega)
    rw [List.append_assoc,List.cons_append]
    simp [readItems,isSpace,read,skipSpace_blank blank,later]
theorem readMembers_text {members : List (List WrittenChar × Written)} {text : List Char} :
    MembersText members text → ∀ fuel rest,
    2 * text.length + 1 ≤ fuel → readMembers fuel (text ++ '\x7d' :: rest) = some (members,rest)
  | .last (.pair before key after value),fuel+1,rest,enough => by
    simp only [List.length_cons,List.length_append] at enough
    obtain ⟨gap,blank,read⟩ := readElement_text value fuel ('\x7d' :: rest) (by omega) (ended_mark (by decide) _)
    simp only [List.append_assoc,List.cons_append]
    rw [readMembers_pair before key after,read]
    simp [isSpace,skipSpace_blank blank]
  | @MembersText.more _ _ _ others (.pair before key after value) more,fuel+1,rest,enough => by
    simp only [List.length_cons,List.length_append] at enough
    obtain ⟨gap,blank,read⟩ := readElement_text value fuel (',' :: (others ++ '\x7d' :: rest)) (by omega) (ended_mark (by decide) _)
    have later := readMembers_text more fuel rest (by omega)
    simp only [List.append_assoc,List.cons_append]
    rw [readMembers_pair before key after,read]
    simp [isSpace,skipSpace_blank blank,later]
end

theorem ofText_element {value : Written} {text : String} (written : ElementText value text.toList) :
    ofText? text = some value := by
  obtain ⟨gap,blank,read⟩ := readElement_text written (2 * text.toList.length + 1) [] (by omega) nofun
  have ended : skipSpace (gap ++ []) = [] := skipSpace_blank blank []
  rw [List.append_nil] at read
  rw [ofText?,read]
  simp only [ended]
  rfl

end Written
end FilterQuery.Json
