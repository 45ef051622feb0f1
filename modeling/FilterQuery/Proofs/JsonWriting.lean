import FilterQuery.Json
import FilterQuery.Proofs.JsonReading

namespace FilterQuery.Json

namespace WrittenChar

theorem decodeText_unit {code : Nat} (whole : code < 0xD800 ∨ 0xE000 ≤ code) (units : List WrittenChar) :
    decodeText? (.unit code :: units) = (decodeText? units).map (Char.ofNat code :: ·) := by
  have unpaired : ¬ (0xD800 ≤ code ∧ code < 0xE000) := by omega
  cases units with
  | nil => simp [decodeText?,unpaired]
  | cons next rest =>
    cases next with
    | plain c => simp [decodeText?,unpaired]
    | unit low =>
      have first : ¬ (0xD800 ≤ code ∧ code < 0xDC00) := by omega
      have second : ¬ (0xDC00 ≤ code ∧ code < 0xE000) := by omega
      simp [decodeText?,first,second]

theorem decodeText_stands {units : List WrittenChar} {text : List Char} (stands : Stands units text) :
    decodeText? units = some text := by
  induction stands with
  | nil => rfl
  | plain c _ ih => simp [decodeText?,ih]
  | single c small _ ih =>
    have valid : c.toNat.isValidChar := c.valid
    rw [decodeText_unit (by rcases valid with low | high <;> omega),ih,Char.ofNat_toNat]
    rfl
  | double c large _ ih =>
    have valid : c.toNat.isValidChar := c.valid
    have bounded : c.toNat < 0x110000 := by rcases valid with low | high <;> omega
    have high : 0xD800 ≤ 0xD800 + (c.toNat - 0x10000) / 0x400 ∧ 0xD800 + (c.toNat - 0x10000) / 0x400 < 0xDC00 := by omega
    have low : 0xDC00 ≤ 0xDC00 + (c.toNat - 0x10000) % 0x400 ∧ 0xDC00 + (c.toNat - 0x10000) % 0x400 < 0xE000 := by omega
    have whole : 0x10000 + (0xD800 + (c.toNat - 0x10000) / 0x400 - 0xD800) * 0x400 +
        (0xDC00 + (c.toNat - 0x10000) % 0x400 - 0xDC00) = c.toNat := by omega
    rw [decodeText?,if_pos high,if_pos low,ih,whole,Char.ofNat_toNat]
    rfl

theorem decode_stands {units : List WrittenChar} {text : String} (stands : Stands units text.toList) :
    decode? units = some text := by
  rw [decode?,decodeText_stands stands,Option.map_some,String.ofList_toList]

end WrittenChar

-- What is written has one value at most.
mutual
theorem Means.unique {written : Written} {value other : Json} : Means written value → Means written other → value = other
  | .null,.null => rfl
  | .bool _,.bool _ => rfl
  | .str one,.str two => by
    have same := (WrittenChar.decode_stands one).symm.trans (WrittenChar.decode_stands two)
    rw [Option.some.inj same]
  | .arr one,.arr two => by rw [one.unique two]
  | .obj one,.obj two => by rw [one.unique two]
theorem MeansItems.unique {written : List Written} {values others : List Json} :
    MeansItems written values → MeansItems written others → values = others
  | .nil,.nil => rfl
  | .cons one more,.cons two rest => by rw [one.unique two,more.unique rest]
theorem MeansMembers.unique {written : List (List WrittenChar × Written)} {values others : List (String × Json)} :
    MeansMembers written values → MeansMembers written others → values = others
  | .nil,.nil => rfl
  | .cons name one more,.cons other two rest => by
    have same := (WrittenChar.decode_stands name).symm.trans (WrittenChar.decode_stands other)
    rw [Option.some.inj same,one.unique two,more.unique rest]
end

theorem hexDigit_text : ∀ value, value < 16 → HexText value (hexDigit value) := by
  have digits : ∀ value, value < 16 → hexDigit value = Nat.digitChar value := by decide
  intro value small
  exact ⟨small,.inl (digits value small)⟩

theorem escaped_text (c : Char) : ∃ unit : WrittenChar,
    (∀ units text, Stands units text → Stands (unit :: units) (c :: text)) ∧
    ∀ units text, UnitsText units text → UnitsText (unit :: units) (escaped c ++ text) := by
  unfold escaped
  split
  · exact ⟨.plain '"',fun _ _ => .plain _,fun _ _ => .named (by decide)⟩
  · exact ⟨.plain _,fun _ _ => .plain _,fun _ _ => .named (by decide)⟩
  · exact ⟨.plain _,fun _ _ => .plain _,fun _ _ => .named (by decide)⟩
  · exact ⟨.plain _,fun _ _ => .plain _,fun _ _ => .named (by decide)⟩
  · exact ⟨.plain _,fun _ _ => .plain _,fun _ _ => .named (by decide)⟩
  · exact ⟨.plain _,fun _ _ => .plain _,fun _ _ => .named (by decide)⟩
  · exact ⟨.plain _,fun _ _ => .plain _,fun _ _ => .named (by decide)⟩
  · rename_i quote escape _ _ _ _ _
    split
    · rename_i control
      have parts : c.toNat = 0 * 0x1000 + 0 * 0x100 + c.toNat / 16 * 0x10 + c.toNat % 16 := by omega
      refine ⟨.unit c.toNat,fun _ _ => .single c (by omega),?_⟩
      intro units text rest
      have first := hexDigit_text (c.toNat / 16) (by omega)
      have second := hexDigit_text (c.toNat % 16) (by omega)
      have zero : HexText 0 '0' := ⟨by decide,.inl rfl⟩
      have numbered := UnitsText.numbered zero zero first second rest
      rw [← parts] at numbered
      exact numbered
    · rename_i shown
      exact ⟨.plain c,fun _ _ => .plain c,fun _ _ => .raw (Nat.not_lt.mp shown) quote escape⟩

theorem escaped_units (text : List Char) :
    ∃ units, Stands units text ∧ UnitsText units (text.flatMap escaped) := by
  induction text with
  | nil => exact ⟨[],.nil,.nil⟩
  | cons c rest ih =>
    obtain ⟨units,stands,written⟩ := ih
    obtain ⟨unit,means,spelled⟩ := escaped_text c
    exact ⟨unit :: units,means _ _ stands,spelled _ _ written⟩

theorem plain_units (text : List Char) (raw : ∀ c ∈ text, 0x20 ≤ c.toNat ∧ c ≠ '"' ∧ c ≠ '\\') :
    Stands (text.map .plain) text ∧ UnitsText (text.map .plain) text := by
  induction text with
  | nil => exact ⟨.nil,.nil⟩
  | cons c rest ih =>
    obtain ⟨stands,written⟩ := ih fun c member => raw c (List.mem_cons_of_mem _ member)
    obtain ⟨shown,unquoted,unescaped⟩ := raw c List.mem_cons_self
    exact ⟨.plain c stands,.raw shown unquoted unescaped written⟩

-- Where a character of a text stands: outside of all strings, within one, or
-- within one behind a backslash.
inductive Place where
  | outside | inside | escaped
  deriving DecidableEq,Repr

def Place.next : Place → Char → Place
  | .outside,c => if c = '"' then .inside else .outside
  | .inside,c => if c = '"' then .outside else if c = '\\' then .escaped else .inside
  | .escaped,_ => .inside

-- The spaces and line ends outside of all strings are left out.
def squeeze : Place → List Char → List Char
  | _,[] => []
  | place,c :: rest =>
    if place = .outside ∧ (c = ' ' ∨ c = '\n') then squeeze place rest else c :: squeeze (place.next c) rest

def squeezed (text : String) : String := .ofList (squeeze .outside text.toList)

@[simp] theorem squeeze_mark {c : Char} (quote : c ≠ '"') (space : c ≠ ' ') (line : c ≠ '\n') (rest : List Char) :
    squeeze .outside (c :: rest) = c :: squeeze .outside rest := by simp [squeeze,Place.next,quote,space,line]

theorem squeeze_kept {c : Char} (stays : Place.next .inside c = .inside) (rest : List Char) :
    squeeze .inside (c :: rest) = c :: squeeze .inside rest := by
  have kept : squeeze .inside (c :: rest) = c :: squeeze (Place.next .inside c) rest := rfl
  rw [kept,stays]

theorem squeeze_escaped (c : Char) (rest : List Char) :
    squeeze .inside (escaped c ++ rest) = escaped c ++ squeeze .inside rest := by
  unfold escaped
  split
  · rfl
  · rfl
  · rfl
  · rfl
  · rfl
  · rfl
  · rfl
  · rename_i quote escape _ _ _ _ _
    split
    · have digits : ∀ value, value < 16 → Place.next .inside (hexDigit value) = .inside := by decide
      have numbered : ∀ tail, squeeze .inside ('\\' :: 'u' :: '0' :: '0' :: tail) =
          '\\' :: 'u' :: '0' :: '0' :: squeeze .inside tail := fun _ => rfl
      simp only [List.cons_append,List.nil_append]
      rw [numbered,squeeze_kept (digits _ (by omega)),squeeze_kept (digits _ (by omega))]
    · exact squeeze_kept ((if_neg quote).trans (if_neg escape)) rest

theorem squeeze_string (text : String) (after : List Char) :
    squeeze .outside (stringOnto text after) = stringOnto text (squeeze .outside after) := by
  have between : ∀ characters : List Char, squeeze .inside (characters.flatMap escaped ++ '"' :: after) =
      characters.flatMap escaped ++ '"' :: squeeze .outside after := by
    intro characters
    induction characters with
    | nil => rfl
    | cons c rest ih => rw [List.flatMap_cons,List.append_assoc,squeeze_escaped,ih,List.append_assoc]
  have opened : ∀ rest, squeeze .outside ('"' :: rest) = '"' :: squeeze .inside rest := fun _ => rfl
  rw [stringOnto,List.cons_append,opened,between]
  rfl

theorem squeeze_newline (depth : Nat) (after : List Char) :
    squeeze .outside (newline depth ++ after) = squeeze .outside after := by
  have spaces : ∀ count, squeeze .outside (List.replicate count ' ' ++ after) = squeeze .outside after := by
    intro count
    induction count with
    | zero => rfl
    | succ count ih => exact ih
  exact spaces _

-- Both writers give texts of one written value, and these differ by spaces and
-- line ends only.
structure Writes (json : Json) (written : Written) : Prop where
  means : Means written json
  compact : ∃ text, ValueText written text ∧ ∀ after, compactOnto json after = text ++ after
  pretty : ∀ depth, ∃ text, ValueText written text ∧ ∀ after, prettyOnto depth json after = text ++ after
  squeezed : ∀ depth after, squeeze .outside (prettyOnto depth json after) = compactOnto json (squeeze .outside after)

structure WritesItems (items : List Json) (written : List Written) : Prop where
  means : MeansItems written items
  compact : ∃ text, ItemsText written text ∧ ∀ after, compactItemsOnto items after = text ++ after
  pretty : ∀ depth, ∃ text, (∀ gap, Blank gap → ItemsText written (text ++ gap)) ∧
    ∀ after, prettyItemsOnto depth items after = text ++ after
  squeezed : ∀ depth after,
    squeeze .outside (prettyItemsOnto depth items after) = compactItemsOnto items (squeeze .outside after)

structure WritesMember (key : String) (item : Json) (units : List WrittenChar) (written : Written) : Prop where
  name : Stands units key.toList
  means : Means written item
  compact : ∃ text, MemberText (units,written) text ∧
    ∀ after, stringOnto key (':' :: compactOnto item after) = text ++ after
  pretty : ∀ depth, ∃ text, (∀ gap, Blank gap → MemberText (units,written) (text ++ gap)) ∧
    ∀ after, newline depth ++ stringOnto key (':' :: ' ' :: prettyOnto depth item after) = text ++ after
  squeezed : ∀ depth after, squeeze .outside (newline depth ++ stringOnto key (':' :: ' ' :: prettyOnto depth item after)) =
    stringOnto key (':' :: compactOnto item (squeeze .outside after))

structure WritesMembers (members : List (String × Json)) (written : List (List WrittenChar × Written)) : Prop where
  means : MeansMembers written members
  compact : ∃ text, MembersText written text ∧ ∀ after, compactMembersOnto members after = text ++ after
  pretty : ∀ depth, ∃ text, (∀ gap, Blank gap → MembersText written (text ++ gap)) ∧
    ∀ after, prettyMembersOnto depth members after = text ++ after
  squeezed : ∀ depth after,
    squeeze .outside (prettyMembersOnto depth members after) = compactMembersOnto members (squeeze .outside after)

theorem nothing_blank : Blank [] := nofun

theorem newline_blank (depth : Nat) : Blank (newline depth) := by
  intro c member
  rcases List.mem_cons.mp member with rfl | spaces
  · exact .inr (.inl rfl)
  · exact .inl (List.eq_of_mem_replicate spaces)

section
variable {item : Json} {written : Written} {text : List Char}

theorem ValueText.behind (spelled : ValueText written text) {ahead : List Char} (blank : Blank ahead) :
    ElementText written (ahead ++ text) := by
  have element := ElementText.around blank spelled nothing_blank
  rwa [List.append_nil] at element

theorem Writes.bool (value : Bool) : Writes (.bool value) (.bool value) := by
  cases value with
  | true => exact ⟨.bool true,⟨_,.yes,fun _ => rfl⟩,fun _ => ⟨_,.yes,fun _ => rfl⟩,fun _ _ => rfl⟩
  | false => exact ⟨.bool false,⟨_,.no,fun _ => rfl⟩,fun _ => ⟨_,.no,fun _ => rfl⟩,fun _ _ => rfl⟩

theorem Writes.str (text : String) : ∃ written, Writes (.str text) written := by
  obtain ⟨units,stands,spelled⟩ := escaped_units text.toList
  have onto : ∀ after, stringOnto text after = '"' :: (text.toList.flatMap escaped ++ ['"']) ++ after := by
    intro after
    simp [stringOnto]
  exact ⟨.str units,.str stands,⟨_,.str spelled,onto⟩,fun _ => ⟨_,.str spelled,onto⟩,fun _ => squeeze_string text⟩

theorem WritesItems.last (writes : Writes item written) : WritesItems [item] [written] := by
  obtain ⟨text,spelled,onto⟩ := writes.compact
  refine ⟨.cons writes.means .nil,⟨text,.last (spelled.behind nothing_blank),onto⟩,?_,?_⟩
  · intro depth
    obtain ⟨text,spelled,onto⟩ := writes.pretty depth
    refine ⟨newline depth ++ text,?_,?_⟩
    · intro gap blank
      rw [List.append_assoc]
      exact .last (.around (newline_blank depth) spelled blank)
    · intro after
      rw [prettyItemsOnto,onto,List.append_assoc]
  · intro depth after
    rw [prettyItemsOnto,squeeze_newline,writes.squeezed,compactItemsOnto]

theorem WritesItems.more {items : List Json} {others : List Written} (writes : Writes item written)
    (rest : WritesItems items others) (present : items ≠ []) : WritesItems (item :: items) (written :: others) := by
  obtain ⟨next,items,rfl⟩ := List.exists_cons_of_ne_nil present
  obtain ⟨text,spelled,onto⟩ := writes.compact
  obtain ⟨later,more,ontoMore⟩ := rest.compact
  refine ⟨.cons writes.means rest.means,⟨_,.more (spelled.behind nothing_blank) more,?_⟩,?_,?_⟩
  · intro after
    simp [compactItemsOnto,onto,ontoMore]
  · intro depth
    obtain ⟨text,spelled,onto⟩ := writes.pretty depth
    obtain ⟨later,more,ontoMore⟩ := rest.pretty depth
    refine ⟨newline depth ++ text ++ ',' :: later,?_,?_⟩
    · intro gap blank
      rw [List.append_assoc,List.cons_append]
      exact .more (spelled.behind (newline_blank depth)) (more gap blank)
    · intro after
      simp [prettyItemsOnto,onto,ontoMore]
  · intro depth after
    simp [prettyItemsOnto,squeeze_newline,writes.squeezed,rest.squeezed,compactItemsOnto]

theorem WritesItems.arr {items : List Json} {others : List Written} (writes : WritesItems items others)
    (present : items ≠ []) : Writes (.arr items) (.arr others) := by
  obtain ⟨first,items,rfl⟩ := List.exists_cons_of_ne_nil present
  obtain ⟨text,spelled,onto⟩ := writes.compact
  refine ⟨.arr writes.means,⟨_,.arr spelled,?_⟩,?_,?_⟩
  · intro after
    simp [compactOnto,onto]
  · intro depth
    obtain ⟨text,spelled,onto⟩ := writes.pretty (depth+1)
    refine ⟨_,.arr (spelled _ (newline_blank depth)),?_⟩
    intro after
    simp [prettyOnto,onto]
  · intro depth after
    simp [prettyOnto,writes.squeezed,squeeze_newline,compactOnto]

theorem Writes.arr (items : List Json) (writes : ∀ item ∈ items, ∃ written, Writes item written) :
    ∃ written, Writes (.arr items) written := by
  have listed : items ≠ [] → ∃ written, WritesItems items written := by
    induction items with
    | nil => exact fun present => absurd rfl present
    | cons first rest ih =>
      intro _
      obtain ⟨written,here⟩ := writes first List.mem_cons_self
      cases rest with
      | nil => exact ⟨_,.last here⟩
      | cons next rest =>
        obtain ⟨others,later⟩ := ih (fun item member => writes item (List.mem_cons_of_mem _ member)) (List.cons_ne_nil _ _)
        exact ⟨_,.more here later (List.cons_ne_nil _ _)⟩
  cases items with
  | nil =>
    exact ⟨.arr [],.arr .nil,⟨_,.noItems nothing_blank,fun _ => rfl⟩,fun _ => ⟨_,.noItems nothing_blank,fun _ => rfl⟩,
      fun _ _ => rfl⟩
  | cons first rest =>
    obtain ⟨written,all⟩ := listed (List.cons_ne_nil _ _)
    exact ⟨_,all.arr (List.cons_ne_nil _ _)⟩

theorem Writes.texts (texts : List String) : ∃ written, Writes (.arr (texts.map .str)) written := by
  apply Writes.arr
  intro item member
  obtain ⟨text,_,rfl⟩ := List.mem_map.mp member
  exact Writes.str text

theorem Writes.member (key : String) (writes : Writes item written) : ∃ units, WritesMember key item units written := by
  obtain ⟨units,stands,name⟩ := escaped_units key.toList
  obtain ⟨text,spelled,onto⟩ := writes.compact
  refine ⟨units,stands,writes.means,?_,?_,?_⟩
  · refine ⟨_,.pair nothing_blank name nothing_blank (spelled.behind nothing_blank),?_⟩
    intro after
    simp [stringOnto,onto]
  · intro depth
    obtain ⟨text,spelled,onto⟩ := writes.pretty depth
    refine ⟨newline depth ++ '"' :: (key.toList.flatMap escaped ++ '"' :: ':' :: ' ' :: text),?_,?_⟩
    · intro gap blank
      have space : Blank [' '] := by simp [Blank]
      simp only [List.append_assoc,List.cons_append]
      exact .pair (newline_blank depth) name nothing_blank (.around space spelled blank)
    · intro after
      simp [stringOnto,onto]
  · intro depth after
    have colon : ∀ tail, squeeze .outside (':' :: ' ' :: tail) = ':' :: squeeze .outside tail := fun _ => rfl
    rw [squeeze_newline,squeeze_string,colon,writes.squeezed]

theorem WritesMembers.last {key : String} {units : List WrittenChar} (writes : WritesMember key item units written) :
    WritesMembers [(key,item)] [(units,written)] := by
  obtain ⟨text,spelled,onto⟩ := writes.compact
  refine ⟨.cons writes.name writes.means .nil,⟨text,.last spelled,onto⟩,?_,writes.squeezed⟩
  intro depth
  obtain ⟨text,spelled,onto⟩ := writes.pretty depth
  exact ⟨text,fun gap blank => .last (spelled gap blank),onto⟩

theorem WritesMembers.more {key : String} {units : List WrittenChar} {members : List (String × Json)}
    {others : List (List WrittenChar × Written)} (writes : WritesMember key item units written)
    (rest : WritesMembers members others) (present : members ≠ []) :
    WritesMembers ((key,item) :: members) ((units,written) :: others) := by
  obtain ⟨next,members,rfl⟩ := List.exists_cons_of_ne_nil present
  obtain ⟨text,spelled,onto⟩ := writes.compact
  obtain ⟨later,more,ontoMore⟩ := rest.compact
  refine ⟨.cons writes.name writes.means rest.means,⟨_,.more spelled more,?_⟩,?_,?_⟩
  · intro after
    rw [compactMembersOnto,onto,ontoMore,List.append_assoc,List.cons_append]
    exact nofun
  · intro depth
    obtain ⟨text,spelled,onto⟩ := writes.pretty depth
    obtain ⟨later,more,ontoMore⟩ := rest.pretty depth
    refine ⟨text ++ ',' :: later,?_,?_⟩
    · intro gap blank
      have alone := spelled [] nothing_blank
      rw [List.append_nil] at alone
      rw [List.append_assoc,List.cons_append]
      exact .more alone (more gap blank)
    · intro after
      rw [prettyMembersOnto,onto,ontoMore,List.append_assoc,List.cons_append]
      exact nofun
  · intro depth after
    rw [prettyMembersOnto,writes.squeezed,compactMembersOnto]
    · simp [rest.squeezed]
    · exact nofun
    · exact nofun

theorem WritesMembers.obj {members : List (String × Json)} {others : List (List WrittenChar × Written)}
    (writes : WritesMembers members others) (present : members ≠ []) : Writes (.obj members) (.obj others) := by
  obtain ⟨first,members,rfl⟩ := List.exists_cons_of_ne_nil present
  obtain ⟨text,spelled,onto⟩ := writes.compact
  refine ⟨.obj writes.means,⟨_,.obj spelled,?_⟩,?_,?_⟩
  · intro after
    simp [compactOnto,onto]
  · intro depth
    obtain ⟨text,spelled,onto⟩ := writes.pretty (depth+1)
    refine ⟨_,.obj (spelled _ (newline_blank depth)),?_⟩
    intro after
    simp [prettyOnto,onto]
  · intro depth after
    simp [prettyOnto,writes.squeezed,squeeze_newline,compactOnto]

end

namespace Writes
variable {json : Json} {written : Written} (writes : Writes json written)
include writes

theorem compact_element : ElementText written json.compact.toList := by
  obtain ⟨text,spelled,onto⟩ := writes.compact
  rw [Json.compact,String.toList_ofList,onto,List.append_nil]
  exact spelled.behind nothing_blank

theorem pretty_element : ElementText written json.pretty.toList := by
  obtain ⟨text,spelled,onto⟩ := writes.pretty 0
  rw [Json.pretty,String.toList_ofList,onto,List.append_nil]
  exact spelled.behind nothing_blank

theorem pretty_squeezed : Json.squeezed json.pretty = json.compact := by
  rw [Json.squeezed,Json.pretty,String.toList_ofList,writes.squeezed]
  rfl

theorem text_unique {other : Json} {others : Written} (differently : Writes other others) {text : String}
    (one : ElementText written text.toList) (two : ElementText others text.toList) : json = other := by
  have same := (Written.ofText_element one).symm.trans (Written.ofText_element two)
  rw [← Option.some.inj same] at differently
  exact writes.means.unique differently.means

end Writes

end FilterQuery.Json
