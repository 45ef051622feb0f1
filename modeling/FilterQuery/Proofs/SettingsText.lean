import Mathlib.Data.List.Forall2
import Mathlib.Data.List.Nodup
import FilterQuery.Proofs.JsonWriting
import FilterQuery.Settings

namespace FilterQuery.Settings
open Json (Written WrittenChar Blank UnitsText Stands Means MeansItems ElementText Writes WritesMembers)

-- What a file may hold: a setting under its key, or anything under a key that is
-- none of theirs.
inductive Entry where
  | delimiter (text : String)
  | defaultFields (names : List String)
  | flattenNested (on : Bool)
  | foreign (key : String) (unknown : key ∉ keys) (value : Written)

namespace Entry

def key : Entry → String
  | .delimiter _ => "delimiter"
  | .defaultFields _ => "default_fields"
  | .flattenNested _ => "flatten_nested"
  | .foreign key _ _ => key

-- What is written for an entry. A setting may be written in many ways.
def Gives : Entry → Written → Prop
  | .delimiter text,item => Means item (.str text)
  | .defaultFields names,item => Means item (.arr (names.map .str))
  | .flattenNested on,item => Means item (.bool on)
  | .foreign _ _ value,item => item = value

def onto : Entry → Settings → Settings
  | .delimiter text,settings => { settings with delimiter := text }
  | .defaultFields names,settings => { settings with defaultFields := names }
  | .flattenNested on,settings => { settings with flattenNested := on }
  | .foreign _ _ _,settings => settings

def Member (entry : Entry) (member : List WrittenChar × Written) : Prop :=
  Stands member.1 entry.key.toList ∧ entry.Gives member.2

-- The same when the key is decoded.
def Named (entry : Entry) (member : String × Written) : Prop :=
  member.1 = entry.key ∧ entry.Gives member.2

end Entry

def ObjectText (entries : List Entry) (text : String) : Prop :=
  ∃ members, List.Forall₂ Entry.Member entries members ∧ ElementText (.obj members) text.toList

def ArrayText (entries : List Entry) (text : String) : Prop :=
  ∃ values, List.Forall₂ Entry.Gives entries values ∧ ElementText (.arr values) text.toList

-- No setting is given twice. Of foreign keys nothing is asked.
def GivenOnce (entries : List Entry) : Prop := ∀ key ∈ keys, (entries.map Entry.key).count key ≤ 1

instance (entries : List Entry) : Decidable (GivenOnce entries) :=
  inferInstanceAs (Decidable (∀ key ∈ keys, (entries.map Entry.key).count key ≤ 1))

-- The settings that hold without any, each entry put in its place.
def overlaid (entries : List Entry) : Settings := entries.foldr Entry.onto {}

def accepted (settings : Settings) : Except LoadError Settings :=
  if settings.delimiter = "" then .error .emptyDelimiter else .ok settings

def entries (settings : Settings) : List Entry :=
  [.delimiter settings.delimiter,.defaultFields settings.defaultFields,.flattenNested settings.flattenNested]

theorem Entry.onto_comm {one other : Entry} (apart : one.key = other.key → one.key ∉ keys) (settings : Settings) :
    one.onto (other.onto settings) = other.onto (one.onto settings) := by
  have listed : "delimiter" ∈ keys ∧ "default_fields" ∈ keys ∧ "flatten_nested" ∈ keys := by decide
  cases one with
  | delimiter =>
    cases other with
    | delimiter => exact absurd listed.1 (apart rfl)
    | defaultFields | flattenNested | foreign => rfl
  | defaultFields =>
    cases other with
    | defaultFields => exact absurd listed.2.1 (apart rfl)
    | delimiter | flattenNested | foreign => rfl
  | flattenNested =>
    cases other with
    | flattenNested => exact absurd listed.2.2 (apart rfl)
    | delimiter | defaultFields | foreign => rfl
  | foreign => rfl

theorem GivenOnce.perm {entries others : List Entry} (once : GivenOnce entries) (moved : entries.Perm others) :
    GivenOnce others := by
  intro key listed
  rw [← (moved.map Entry.key).count_eq key]
  exact once key listed

theorem overlaid_perm {entries others : List Entry} (once : GivenOnce entries) (moved : entries.Perm others) :
    overlaid entries = overlaid others := by
  induction moved with
  | nil => rfl
  | cons entry moved ih =>
    have within : GivenOnce _ := fun key listed => List.count_le_count_cons.trans (once key listed)
    exact congrArg entry.onto (ih within)
  | swap one other rest =>
    apply Entry.onto_comm
    intro same listed
    have twice := once _ listed
    simp only [List.map_cons,same,List.count_cons_self] at twice
    omega
  | trans first _ ihFirst ihSecond =>
    exact (ihFirst once).trans (ihSecond (once.perm first))

theorem text_means {item : Written} {text : String} (gives : Means item (.str text)) : text? item = some text := by
  cases gives with
  | str stands => exact WrittenChar.decode_stands stands

theorem textsFrom_means {items : List Written} {names : List String} (gives : MeansItems items (names.map .str)) :
    textsFrom? items = some names := by
  induction names generalizing items with
  | nil =>
    cases gives
    rfl
  | cons name rest ih =>
    obtain _ | ⟨first,later⟩ := gives
    rw [textsFrom?,text_means first,ih later]
    rfl

theorem texts_means {item : Written} {names : List String} (gives : Means item (.arr (names.map .str))) :
    texts? item = some names := by
  cases gives with
  | arr items => exact textsFrom_means items

theorem flag_means {item : Written} {on : Bool} (gives : Means item (.bool on)) : flag? item = some on := by
  cases gives with
  | bool => rfl

theorem Entry.onto_given (entry : Entry) (settings : Settings) {item : Written} (gives : entry.Gives item) :
    (entry.key = "delimiter" → text? item = some (entry.onto settings).delimiter) ∧
    (entry.key = "default_fields" → texts? item = some (entry.onto settings).defaultFields) ∧
    (entry.key = "flatten_nested" → flag? item = some (entry.onto settings).flattenNested) := by
  cases entry with
  | delimiter => exact ⟨fun _ => text_means gives,by simp [key],by simp [key]⟩
  | defaultFields => exact ⟨by simp [key],fun _ => texts_means gives,by simp [key]⟩
  | flattenNested => exact ⟨by simp [key],by simp [key],fun _ => flag_means gives⟩
  | foreign name unknown =>
    have apart : ∀ other ∈ keys, name ≠ other := fun other listed same => unknown (same ▸ listed)
    exact ⟨fun same => absurd same (apart _ (by decide)),fun same => absurd same (apart _ (by decide)),
      fun same => absurd same (apart _ (by decide))⟩

theorem Entry.onto_kept (entry : Entry) (settings : Settings) :
    (entry.key ≠ "delimiter" → (entry.onto settings).delimiter = settings.delimiter) ∧
    (entry.key ≠ "default_fields" → (entry.onto settings).defaultFields = settings.defaultFields) ∧
    (entry.key ≠ "flatten_nested" → (entry.onto settings).flattenNested = settings.flattenNested) := by
  cases entry <;> simp [key,onto]

section
variable {entries : List Entry}

theorem named_decoded {members : List (List WrittenChar × Written)} (spelled : List.Forall₂ Entry.Member entries members) :
    ∃ named, decodeKeys? members = some named ∧ List.Forall₂ Entry.Named entries named := by
  induction spelled with
  | nil => exact ⟨[],rfl,.nil⟩
  | @cons entry member _ _ here _ ih =>
    obtain ⟨named,decoded,all⟩ := ih
    refine ⟨(entry.key,member.2) :: named,?_,.cons ⟨rfl,here.2⟩ all⟩
    rw [decodeKeys?,WrittenChar.decode_stands here.1,decoded]
    rfl

variable {members : List (String × Written)}

theorem named_keys (named : List.Forall₂ Entry.Named entries members) :
    members.map Prod.fst = entries.map Entry.key := by
  induction named with
  | nil => rfl
  | cons here _ ih => rw [List.map_cons,List.map_cons,here.1,ih]

theorem given_overlaid {key : String} {read : Written → Option α} (field : Settings → α)
    (here : ∀ (entry : Entry) item settings, entry.key = key → entry.Gives item →
      read item = some (field (entry.onto settings)))
    (elsewhere : ∀ (entry : Entry) settings, entry.key ≠ key → field (entry.onto settings) = field settings)
    (named : List.Forall₂ Entry.Named entries members) (once : (entries.map Entry.key).count key ≤ 1) :
    given? key (field {}) read members = some (field (overlaid entries)) := by
  induction named with
  | nil => rfl
  | @cons entry member rest others first later ih =>
    rw [List.map_cons,List.count_cons] at once
    by_cases same : entry.key = key
    · -- Given here, it is not given again, so the reader sees one member.
      have absent : key ∉ others.map Prod.fst := by
        rw [named_keys later,← List.count_eq_zero]
        simp only [same,BEq.rfl,if_true] at once
        omega
      have alone : others.filter (·.1 == key) = [] := by
        rw [List.filter_eq_nil_iff]
        intro other among found
        exact absent (List.mem_map.mpr ⟨other,among,eq_of_beq found⟩)
      rw [given?,List.filter_cons_of_pos (by simp [first.1,same]),alone]
      exact here entry member.2 (overlaid rest) same first.2
    · have passed : given? key (field {}) read (member :: others) = given? key (field {}) read others := by
        rw [given?,List.filter_cons_of_neg (by simp [first.1,same]),given?]
      rw [passed,ih (by omega)]
      exact congrArg some (elsewhere entry (overlaid rest) same).symm

theorem overlay_named (once : GivenOnce entries) (named : List.Forall₂ Entry.Named entries members) :
    overlay? members = some (overlaid entries) := by
  have delimiter : given? "delimiter" defaultDelimiter text? members = some (overlaid entries).delimiter :=
    given_overlaid Settings.delimiter
      (fun entry _ settings same gives => (entry.onto_given settings gives).1 same)
      (fun entry settings other => (entry.onto_kept settings).1 other) named (once _ (by decide))
  have fields : given? "default_fields" [] texts? members = some (overlaid entries).defaultFields :=
    given_overlaid Settings.defaultFields
      (fun entry _ settings same gives => (entry.onto_given settings gives).2.1 same)
      (fun entry settings other => (entry.onto_kept settings).2.1 other) named (once _ (by decide))
  have flatten : given? "flatten_nested" false flag? members = some (overlaid entries).flattenNested :=
    given_overlaid Settings.flattenNested
      (fun entry _ settings same gives => (entry.onto_given settings gives).2.2 same)
      (fun entry settings other => (entry.onto_kept settings).2.2 other) named (once _ (by decide))
  simp only [overlay?,delimiter,fields,flatten]
  rfl

theorem object_read {members : List (List WrittenChar × Written)} (once : GivenOnce entries)
    (spelled : List.Forall₂ Entry.Member entries members) : ofWritten? (.obj members) = some (overlaid entries) := by
  obtain ⟨named,decoded,all⟩ := named_decoded spelled
  rw [ofWritten?,decoded]
  exact overlay_named once all

theorem named_zip {names : List String} {values : List Written} (first : entries.map Entry.key <+: names)
    (given : List.Forall₂ Entry.Gives entries values) : List.Forall₂ Entry.Named entries (names.zip values) := by
  induction given generalizing names with
  | nil =>
    rw [List.zip_nil_right]
    exact .nil
  | @cons entry item rest values here later ih =>
    obtain _ | ⟨name,names⟩ := names
    · exact absurd (List.prefix_nil.mp first) (List.cons_ne_nil _ _)
    · obtain ⟨same,behind⟩ := List.cons_prefix_cons.mp first
      exact .cons ⟨same.symm,here⟩ (ih behind)

theorem GivenOnce.first (first : entries.map Entry.key <+: keys) : GivenOnce entries := by
  intro key _
  have distinct : keys.Nodup := by decide
  exact (first.sublist.count_le key).trans (List.nodup_iff_count_le_one.mp distinct key)

theorem array_read {values : List Written} (first : entries.map Entry.key <+: keys)
    (given : List.Forall₂ Entry.Gives entries values) : ofWritten? (.arr values) = some (overlaid entries) := by
  have short := first.length_le
  rw [List.length_map,given.length_eq] at short
  rw [ofWritten?,if_pos short]
  exact overlay_named (GivenOnce.first first) (named_zip first given)

theorem load_read {written : Written} {text : String} {settings : Settings} (spelled : ElementText written text.toList)
    (read : ofWritten? written = some settings) : load (.file text.toUTF8) = accepted settings := by
  have parsed : (Written.ofText? text).bind ofWritten? = some settings := by
    rw [Written.ofText_element spelled]
    exact read
  rw [load_text]
  simp only [parse,parsed]
  unfold check usable accepted
  by_cases empty : settings.delimiter = ""
  · rw [if_pos empty,empty]
    rfl
  · rw [if_neg empty,String.isEmpty_eq_false_iff.mpr empty]
    rfl

theorem load_object (once : GivenOnce entries) {text : String} (spelled : ObjectText entries text) :
    load (.file text.toUTF8) = accepted (overlaid entries) := by
  obtain ⟨members,all,element⟩ := spelled
  exact load_read element (object_read once all)

theorem load_array (first : entries.map Entry.key <+: keys) {text : String} (spelled : ArrayText entries text) :
    load (.file text.toUTF8) = accepted (overlaid entries) := by
  obtain ⟨values,all,element⟩ := spelled
  exact load_read element (array_read first all)

end

theorem shown_object (settings : Settings) : ObjectText settings.entries settings.toJson.pretty := by
  obtain ⟨delimiter,first⟩ := Writes.str settings.delimiter
  obtain ⟨fields,second⟩ := Writes.texts settings.defaultFields
  have third := Writes.bool settings.flattenNested
  obtain ⟨_,one⟩ := first.member "delimiter"
  obtain ⟨_,two⟩ := second.member "default_fields"
  obtain ⟨_,three⟩ := third.member "flatten_nested"
  have members := WritesMembers.more one (.more two (.last three) (List.cons_ne_nil _ _)) (List.cons_ne_nil _ _)
  refine ⟨_,?_,(members.obj (List.cons_ne_nil _ _)).pretty_element⟩
  exact .cons ⟨one.name,one.means⟩ (.cons ⟨two.name,two.means⟩ (.cons ⟨three.name,three.means⟩ .nil))

theorem load_overlays :
    (∀ settings : Settings, load (.file settings.toJson.pretty.toUTF8) = accepted settings) ∧
    (∀ entries text, GivenOnce entries → ObjectText entries text →
      load (.file text.toUTF8) = accepted (overlaid entries) ∧
      ∀ others moved, entries.Perm others → ObjectText others moved →
        load (.file moved.toUTF8) = load (.file text.toUTF8)) ∧
    ∀ entries array, entries.map Entry.key <+: keys → ArrayText entries array →
      load (.file array.toUTF8) = accepted (overlaid entries) ∧
      ∀ object, ObjectText entries object → load (.file array.toUTF8) = load (.file object.toUTF8) := by
  refine ⟨?_,?_,?_⟩
  · intro settings
    have first : settings.entries.map Entry.key <+: keys := List.prefix_rfl
    exact load_object (.first first) settings.shown_object
  · intro entries text once members
    have loaded := load_object once members
    refine ⟨loaded,?_⟩
    intro others moved order reordered
    rw [loaded,overlaid_perm once order]
    exact load_object (once.perm order) reordered
  · intro entries array first values
    have loaded := load_array first values
    refine ⟨loaded,?_⟩
    intro object members
    exact loaded.trans (load_object (.first first) members).symm

theorem overlays_bar :
    load (.file "\x7b\"x\": null,\"delimiter\":\"\\u007c\",\"x\":[]\x7d".toUTF8) = .ok ⟨"|",[],false⟩ ∧
    load (.file "\x7b\"delimiter\":\"|\",\"x\":null,\"x\":[]\x7d".toUTF8) =
      load (.file "\x7b\"x\": null,\"delimiter\":\"\\u007c\",\"x\":[]\x7d".toUTF8) ∧
    load (.file "[\"|\"]".toUTF8) = .ok ⟨"|",[],false⟩ ∧
    load (.file "[\"|\"]".toUTF8) = load (.file "\x7b\"delimiter\":\"|\"\x7d".toUTF8) := by
  have nothing : Blank [] := nofun
  have space : Blank [' '] := by simp [Blank]
  have x := Json.plain_units "x".toList (by simp)
  have name := Json.plain_units "delimiter".toList (by simp)
  have bar := Json.plain_units "|".toList (by simp)
  have numbered : UnitsText [.unit 0x7c] ['\\','u','0','0','7','c'] :=
    .numbered (x := 0) (y := 0) (z := 7) (w := 12) ⟨by decide,.inl rfl⟩ ⟨by decide,.inl rfl⟩ ⟨by decide,.inl rfl⟩
      ⟨by decide,.inl rfl⟩ .nil
  have once : GivenOnce [.foreign "x" (by decide) .null,.delimiter "|",.foreign "x" (by decide) (.arr [])] := by
    decide
  have scattered : ObjectText [.foreign "x" (by decide) .null,.delimiter "|",.foreign "x" (by decide) (.arr [])]
      "\x7b\"x\": null,\"delimiter\":\"\\u007c\",\"x\":[]\x7d" := by
    refine ⟨[("x".toList.map .plain,.null),("delimiter".toList.map .plain,.str [.unit 0x7c]),
      ("x".toList.map .plain,.arr [])],
      .cons ⟨x.1,rfl⟩ (.cons ⟨name.1,.str (.single '|' (by decide) .nil)⟩ (.cons ⟨x.1,rfl⟩ .nil)),?_⟩
    exact .around nothing (.obj (.more (.pair nothing x.2 nothing (.around space .null nothing))
      (.more (.pair nothing name.2 nothing (.around nothing (.str numbered) nothing))
        (.last (.pair nothing x.2 nothing (.around nothing (.noItems nothing) nothing)))))) nothing
  have moved : ObjectText [.delimiter "|",.foreign "x" (by decide) .null,.foreign "x" (by decide) (.arr [])]
      "\x7b\"delimiter\":\"|\",\"x\":null,\"x\":[]\x7d" := by
    refine ⟨[("delimiter".toList.map .plain,.str ("|".toList.map .plain)),("x".toList.map .plain,.null),
      ("x".toList.map .plain,.arr [])],.cons ⟨name.1,.str bar.1⟩ (.cons ⟨x.1,rfl⟩ (.cons ⟨x.1,rfl⟩ .nil)),?_⟩
    exact .around nothing (.obj (.more (.pair nothing name.2 nothing (.around nothing (.str bar.2) nothing))
      (.more (.pair nothing x.2 nothing (.around nothing .null nothing))
        (.last (.pair nothing x.2 nothing (.around nothing (.noItems nothing) nothing)))))) nothing
  have first : [Entry.delimiter "|"].map Entry.key <+: keys := by decide
  have array : ArrayText [.delimiter "|"] "[\"|\"]" := by
    refine ⟨[.str ("|".toList.map .plain)],.cons (.str bar.1) .nil,?_⟩
    exact .around nothing (.arr (.last (.around nothing (.str bar.2) nothing))) nothing
  have object : ObjectText [.delimiter "|"] "\x7b\"delimiter\":\"|\"\x7d" := by
    refine ⟨[("delimiter".toList.map .plain,.str ("|".toList.map .plain))],.cons ⟨name.1,.str bar.1⟩ .nil,?_⟩
    exact .around nothing (.obj (.last (.pair nothing name.2 nothing (.around nothing (.str bar.2) nothing)))) nothing
  obtain ⟨_,objects,arrays⟩ := load_overlays
  obtain ⟨loaded,alike⟩ := arrays _ _ first array
  obtain ⟨overlaid,reordered⟩ := objects _ _ once scattered
  exact ⟨overlaid,reordered _ _ (.swap _ _ _) moved,loaded,alike _ object⟩

end FilterQuery.Settings
