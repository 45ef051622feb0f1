import FilterQuery.Proofs.CommandLine
import FilterQuery.Session

namespace FilterQuery
open Outcome

namespace Settings

theorem check_exact (settings : Settings) : settings.check = .ok () ↔ settings.delimiter ≠ "" := by
  unfold check
  split
  · rename_i usable
    simpa [Settings.usable] using usable
  · rename_i useless
    simpa [Settings.usable] using useless

theorem parse_filled {text : String} {settings : Settings} (parsed : parse text = .ok settings) :
    settings.delimiter ≠ "" := by
  unfold parse at parsed
  split at parsed
  · cases parsed
  · obtain ⟨_,checked,made⟩ := (bind_ok settings).mp parsed
    cases made
    exact (check_exact _).mp checked

theorem load_filled {source : Source} {settings : Settings} (loaded : load source = .ok settings) :
    settings.delimiter ≠ "" := by
  unfold load at loaded
  split at loaded
  · cases loaded
  · cases loaded
  · split at loaded
    · cases loaded
    · exact parse_filled loaded

-- The settings that a session begins with: what is loaded, or else what holds
-- without any settings.
inductive Opening (source : Source) : Settings → Prop where
  | loaded (found : load source = .ok settings) : Opening source settings
  | standard (failed : load source = .error fault) : Opening source ⟨"||__||",[],false⟩

theorem standing_opening (source : Source) : Opening source (standing source) := by
  unfold standing
  split
  · rename_i settings found
    exact .loaded found
  · rename_i fault failed
    exact .standard failed

theorem Opening.unique {source : Source} {one other : Settings} (first : Opening source one)
    (second : Opening source other) : one = other := by
  cases first with
  | loaded found =>
    cases second with
    | loaded again => exact Except.ok.inj (found.symm.trans again)
    | standard failed => cases found.symm.trans failed
  | standard failed =>
    cases second with
    | loaded found => cases found.symm.trans failed
    | standard => rfl

theorem Opening.filled {source : Source} {settings : Settings} (opening : Opening source settings) :
    settings.delimiter ≠ "" := by
  cases opening with
  | loaded found => exact load_filled found
  | standard => decide

end Settings

namespace Command

-- A command that a session carries out. An empty delimiter is refused.
def Accepted (line : String) (command : Command) : Prop :=
  ∃ text, Text.LineText line text ∧ Spelled text command ∧ command ≠ .delimiter ""

theorem accepted_exact (line : String) (command : Command) :
    Accepted line command ↔ parse (Text.withoutLineEnd line) = .ok command ∧ command ≠ .delimiter "" := by
  simp only [Accepted,← Text.withoutLineEnd_exact,exists_eq_left',parse_exact]

instance (line : String) (command : Command) : Decidable (Accepted line command) :=
  decidable_of_iff _ (accepted_exact line command).symm

theorem accepted_unique {line : String} {command other : Command} (accepted : Accepted line command)
    (also : Accepted line other) : other = command := by
  have parsed := ((accepted_exact line command).mp accepted).1
  rw [((accepted_exact line other).mp also).1] at parsed
  exact Except.ok.inj parsed

def mode? : Command → Option Mode
  | .mode chosen => some chosen
  | _ => none

def delimiter? : Command → Option String
  | .delimiter text => some text
  | _ => none

def fields? : Command → Option (List String)
  | .fields names => some names
  | _ => none

def flatten? : Command → Option Bool
  | .flatten on => some on
  | _ => none

-- Each command asks for one setting at most; the others stay.
def applied (command : Command) (settings : Settings) : Settings :=
  ⟨command.delimiter?.getD settings.delimiter,command.fields?.getD settings.defaultFields,
    command.flatten?.getD settings.flattenNested⟩

theorem applied_filled {command : Command} {settings : Settings} (given : command ≠ .delimiter "")
    (filled : settings.delimiter ≠ "") : (command.applied settings).delimiter ≠ "" := by
  cases command with
  | quit | help | showSettings | mode | fields | flatten => exact filled
  | delimiter text => exact fun empty => given (congrArg Command.delimiter empty)

-- What `lines` leave of one setting: what the last accepted command that asks for
-- it has set, or else what it was at first.
inductive LastSet (asked : Command → Option α) (first : α) : List String → α → Prop where
  | never (quiet : ∀ line ∈ lines, ∀ command, Accepted line command → asked command = none) :
      LastSet asked first lines first
  | last (accepted : Accepted line command) (asks : asked command = some value)
      (quiet : ∀ later ∈ after, ∀ other, Accepted later other → asked other = none) :
      LastSet asked first (before ++ line :: after) value

variable {asked : Command → Option α} {first value : α} {lines : List String} {line : String} {command : Command}

theorem LastSet.kept (found : LastSet asked first lines value)
    (quiet : ∀ command, Accepted line command → asked command = none) :
    LastSet asked first (lines ++ [line]) value := by
  cases found with
  | never before => exact .never (List.forall_mem_append.mpr ⟨before,List.forall_mem_singleton.mpr quiet⟩)
  | last accepted asks silent =>
    rw [List.append_assoc,List.cons_append]
    exact .last accepted asks (List.forall_mem_append.mpr ⟨silent,List.forall_mem_singleton.mpr quiet⟩)

theorem LastSet.accepted (found : LastSet asked first lines value) (accepted : Accepted line command) :
    LastSet asked first (lines ++ [line]) ((asked command).getD value) := by
  cases asks : asked command with
  | none =>
    refine found.kept ?_
    intro other also
    rw [accepted_unique accepted also,asks]
  | some next => exact .last accepted asks (by simp)

end Command

namespace Session
open Command

-- A line that is to be compiled.
def Asking (line : String) : Prop := ¬ Text.Blank line ∧ line.toList.head? ≠ some ':'

instance (line : String) : Decidable (Asking line) := inferInstanceAs (Decidable (_ ∧ _))

-- What is shown of a query that is asked for.
inductive Tells (outcome : Except CompileError Query) : List String → Prop where
  | query (made : outcome = .ok query) : Tells outcome [query.toJson.pretty]
  | fault (made : outcome = .error fault) : Tells outcome ["✗ " ++ fault.message]

-- What is shown of a text in each mode.
inductive Answers (settings : Settings) (text : String) : Mode → List String → Prop where
  | keyValue (tells : Tells (settings.compile .keyValue text) told) : Answers settings text .keyValue told
  | valueOnly (tells : Tells (settings.compile (.valueOnly settings.defaultFields) text) told) :
      Answers settings text .valueOnly told

theorem shown_tells (outcome : Except CompileError Query) : Tells outcome (shown outcome) := by
  cases outcome with
  | ok query => exact .query rfl
  | error fault => exact .fault rfl

theorem Tells.unique {outcome : Except CompileError Query} {one other : List String} (first : Tells outcome one)
    (second : Tells outcome other) : one = other := by
  cases first with
  | query made =>
    cases second with
    | query again => cases made.symm.trans again; rfl
    | fault again => cases made.symm.trans again
  | fault made =>
    cases second with
    | query again => cases made.symm.trans again
    | fault again => cases made.symm.trans again; rfl

theorem Answers.unique {settings : Settings} {text : String} {mode : Mode} {one other : List String}
    (first : Answers settings text mode one) (second : Answers settings text mode other) : one = other := by
  cases first with
  | keyValue tells => cases second with | keyValue others => exact tells.unique others
  | valueOnly tells => cases second with | valueOnly others => exact tells.unique others

theorem answer_answers (session : Session) (text : String) :
    Answers session.compiling text session.mode (session.answer text) := by
  obtain ⟨mode,settings,compiling⟩ := session
  cases mode with
  | keyValue => exact .keyValue (shown_tells _)
  | valueOnly => exact .valueOnly (shown_tells _)

theorem update_sets {session next : Session} {command : Command} (updated : session.update command = .ok next) :
    next.mode = command.mode?.getD session.mode ∧ next.settings = command.applied session.settings ∧
      (session.compiling = session.settings → next.compiling = next.settings) := by
  cases command with
  | quit | help | showSettings | mode | fields | flatten =>
    cases updated
    simp [rebuilt,applied,mode?,delimiter?,fields?,flatten?]
  | delimiter text =>
    simp only [update] at updated
    split at updated
    · cases updated
      simp [rebuilt,applied,mode?,delimiter?,fields?,flatten?]
    · cases updated

theorem update_exact (session : Session) (command : Command) :
    (∃ next, session.update command = .ok next) ↔ command ≠ .delimiter "" := by
  cases command with
  | quit | help | showSettings | mode | fields | flatten => simp [update]
  | delimiter text =>
    have checked := Settings.check_exact { session.settings with delimiter := text }
    simp only [update,ne_eq,Command.delimiter.injEq]
    split
    · rename_i fine
      exact iff_of_true ⟨_,rfl⟩ (checked.mp fine)
    · rename_i fault refused
      refine iff_of_false (by simp) ?_
      intro filled
      rw [checked.mpr filled] at refused
      cases refused

-- All that a line can do.
inductive Does (session : Session) (line : String) : List String × Option Session → Prop where
  | passes (nothing : Text.Blank line) : Does session line ([],some session)
  | answers (asking : Asking line) : Does session line (session.answer (Text.withoutLineEnd line),some session)
  | quits (accepted : Accepted line .quit) : Does session line ([],none)
  | sets (accepted : Accepted line command) (goes : command ≠ .quit) (updated : session.update command = .ok next) :
      Does session line (next.report command,some next)
  | refuses (fault : CommandError) (colon : line.toList.head? = some ':')
      (refused : ∀ command, ¬ Accepted line command) : Does session line (refusal fault.message,some session)

theorem perform_quit {session : Session} {line : String} (parsed : parse line = .ok .quit) :
    session.perform line = .ok ([],none) := by
  simp [perform,parsed]

theorem perform_other {session : Session} {line : String} {command : Command} (parsed : parse line = .ok command)
    (goes : command ≠ .quit) :
    session.perform line = (session.update command).map fun next => (next.report command,some next) := by
  cases command with
  | quit => exact absurd rfl goes
  | help | showSettings | mode | fields | delimiter | flatten =>
    simp only [perform,parsed,ok_bind]
    rfl

theorem step_does (session : Session) (line : String) : Does session line (session.step line) := by
  unfold step
  dsimp only
  split
  · rename_i nothing
    exact .passes ((Text.withoutLineEnd_blank line).mp (String.isEmpty_iff.mp nothing))
  · rename_i filled
    split
    · rename_i colon
      cases parsed : parse (Text.withoutLineEnd line) with
      | error fault =>
        simp only [perform,parsed,error_bind]
        refine .refuses fault ((Text.withoutLineEnd_colon line).mp colon) ?_
        intro command accepted
        rw [((accepted_exact line command).mp accepted).1] at parsed
        cases parsed
      | ok command =>
        by_cases leaving : command = .quit
        · subst leaving
          rw [perform_quit parsed]
          exact .quits ((accepted_exact line .quit).mpr ⟨parsed,by simp⟩)
        · rw [perform_other parsed leaving]
          cases updated : session.update command with
          | ok next =>
            have given := (update_exact session command).mp ⟨next,updated⟩
            exact .sets ((accepted_exact line command).mpr ⟨parsed,given⟩) leaving updated
          | error fault =>
            refine .refuses fault ((Text.withoutLineEnd_colon line).mp colon) ?_
            intro other accepted
            obtain ⟨read,given⟩ := (accepted_exact line other).mp accepted
            rw [parsed] at read
            cases read
            obtain ⟨next,made⟩ := (update_exact session command).mpr given
            rw [updated] at made
            cases made
    · rename_i plain
      refine .answers ⟨fun blank => filled ?_,fun colon => plain ((Text.withoutLineEnd_colon line).mpr colon)⟩
      exact String.isEmpty_iff.mpr ((Text.withoutLineEnd_blank line).mpr blank)

theorem accepted_colon {line : String} {command : Command} (accepted : Accepted line command) :
    line.toList.head? = some ':' := by
  obtain ⟨text,ends,spelled,_⟩ := accepted
  obtain rfl := (Text.withoutLineEnd_exact line text).mpr ends
  exact (Text.withoutLineEnd_colon line).mp (spelled_colon spelled)

theorem asking_unaccepted {line : String} (asking : Asking line) (command : Command) : ¬ Accepted line command :=
  fun accepted => asking.2 (accepted_colon accepted)

theorem blank_unaccepted {line : String} (nothing : Text.Blank line) (command : Command) : ¬ Accepted line command := by
  intro accepted
  have blank := nothing ':' (List.mem_of_head? (accepted_colon accepted))
  simp [Text.isBlank] at blank

theorem step_answers {session : Session} {line : String} (asking : Asking line) :
    session.step line = (session.answer (Text.withoutLineEnd line),some session) := by
  have does := step_does session line
  generalize session.step line = outcome at does ⊢
  cases does with
  | passes nothing => exact absurd nothing asking.1
  | answers => rfl
  | quits accepted => exact absurd accepted (asking_unaccepted asking _)
  | sets accepted goes updated => exact absurd accepted (asking_unaccepted asking _)
  | refuses fault colon refused => exact absurd colon asking.2

theorem step_quits (session : Session) (line : String) :
    (session.step line).2 = none ↔ Accepted line .quit := by
  have does := step_does session line
  generalize session.step line = outcome at does ⊢
  cases does with
  | passes nothing => simp [blank_unaccepted nothing]
  | answers asking => simp [asking_unaccepted asking]
  | quits accepted => simp [accepted]
  | sets accepted goes updated =>
    refine iff_of_false (by simp) ?_
    intro quits
    exact goes (accepted_unique quits accepted)
  | refuses fault colon refused => simp [refused]

theorem step_sets {session next : Session} {line : String} {command : Command} (accepted : Accepted line command)
    (goes : (session.step line).2 = some next) : session.update command = .ok next := by
  have does := step_does session line
  generalize session.step line = outcome at does goes
  cases does with
  | passes nothing => exact absurd accepted (blank_unaccepted nothing command)
  | answers asking => exact absurd accepted (asking_unaccepted asking command)
  | quits => cases goes
  | sets also leaves updated =>
    cases goes
    rw [accepted_unique also accepted]
    exact updated
  | refuses fault colon refused => exact absurd accepted (refused command)

theorem step_keeps {session next : Session} {line : String} (unaccepted : ∀ command, ¬ Accepted line command)
    (goes : (session.step line).2 = some next) : next = session := by
  have does := step_does session line
  generalize session.step line = outcome at does goes
  cases does with
  | passes | answers | refuses =>
    cases goes
    rfl
  | quits => cases goes
  | sets accepted => exact absurd accepted (unaccepted _)

-- The state that `lines` lead to, if none of them ends the session.
def after (session : Session) : List String → Option Session
  | [] => some session
  | line :: rest => (session.step line).2.bind fun next => next.after rest

theorem run_append (session : Session) (lines more : List String) :
    session.run (lines ++ more) =
      session.run lines ++ match session.after lines with
        | some next => next.run more
        | none => [] := by
  induction lines generalizing session with
  | nil => rfl
  | cons line rest ih =>
    rw [List.cons_append,run,run,after]
    obtain ⟨told,next⟩ := session.step line
    cases next with
    | none => simp
    | some next => simp [ih next]

theorem transcript_append (source : Settings.Source) (lines more : List String) :
    transcript source (lines ++ more) =
      transcript source lines ++ match (start (Settings.standing source)).after lines with
        | some next => next.run more
        | none => [] := by
  simp only [transcript]
  rw [run_append,List.append_assoc]

-- What is in use after `lines`.
structure Settled (first : Settings) (lines : List String) (session : Session) : Prop where
  mode : LastSet Command.mode? .keyValue lines session.mode
  delimiter : LastSet delimiter? first.delimiter lines session.settings.delimiter
  fields : LastSet fields? first.defaultFields lines session.settings.defaultFields
  flatten : LastSet flatten? first.flattenNested lines session.settings.flattenNested
  compiling : session.compiling = session.settings
  filled : session.settings.delimiter ≠ ""

theorem start_settled {first : Settings} (filled : first.delimiter ≠ "") : Settled first [] (start first) :=
  ⟨.never (by simp),.never (by simp),.never (by simp),.never (by simp),rfl,filled⟩

theorem step_settled {first : Settings} {done : List String} {session next : Session} {line : String}
    (settled : Settled first done session) (goes : (session.step line).2 = some next) :
    Settled first (done ++ [line]) next := by
  -- An accepted command sets what it asks for; any other line leaves all as it is.
  by_cases accepts : ∃ command, Accepted line command
  · obtain ⟨command,accepted⟩ := accepts
    obtain ⟨mode,settings,compiling⟩ := update_sets (step_sets accepted goes)
    refine ⟨?_,?_,?_,?_,compiling settled.compiling,?_⟩
    · rw [mode]
      exact settled.mode.accepted accepted
    · rw [settings]
      exact settled.delimiter.accepted accepted
    · rw [settings]
      exact settled.fields.accepted accepted
    · rw [settings]
      exact settled.flatten.accepted accepted
    · rw [settings]
      obtain ⟨_,_,_,given⟩ := accepted
      exact applied_filled given settled.filled
  · have unaccepted : ∀ command, ¬ Accepted line command := fun command accepted => accepts ⟨command,accepted⟩
    have quiet {α : Type} (asked : Command → Option α) (command : Command) (accepted : Accepted line command) :
        asked command = none := absurd accepted (unaccepted command)
    rw [step_keeps unaccepted goes]
    exact ⟨settled.mode.kept (quiet _),settled.delimiter.kept (quiet _),settled.fields.kept (quiet _),
      settled.flatten.kept (quiet _),settled.compiling,settled.filled⟩

theorem after_settled {first : Settings} {done lines : List String} {session next : Session}
    (settled : Settled first done session) (reached : session.after lines = some next) :
    Settled first (done ++ lines) next := by
  induction lines generalizing done session with
  | nil =>
    cases reached
    rwa [List.append_nil]
  | cons line rest ih =>
    obtain ⟨between,goes,follows⟩ := Option.bind_eq_some_iff.mp reached
    have later := ih (step_settled settled goes) follows
    rwa [List.append_assoc] at later

theorem after_none (session : Session) (lines : List String) :
    session.after lines = none ↔ ∃ line ∈ lines, Accepted line .quit := by
  induction lines generalizing session with
  | nil => simp [after]
  | cons line rest ih =>
    simp only [after,List.mem_cons,exists_eq_or_imp]
    rw [← step_quits session]
    cases (session.step line).2 with
    | none => simp
    | some next => simp [ih next]

theorem transcript_last_accepted (source : Settings.Source) (lines : List String) :
    ∃ first, Settings.Opening source first ∧
      ((∀ line ∈ lines, ¬ Accepted line .quit) →
        ∃ session, (start first).after lines = some session ∧ Settled first lines session ∧
          ∀ line text, Asking line → Text.LineText line text →
            ∃ told, Answers session.settings text session.mode told ∧
              ∀ more, transcript source (lines ++ line :: more) =
                transcript source lines ++ told ++ session.run more) ∧
      ((∃ line ∈ lines, Accepted line .quit) → ∀ more, transcript source (lines ++ more) = transcript source lines) ∧
      ∀ (session next : Session) (line : String), (session.step line).2 = some next →
        (Text.Blank line ∨ Asking line ∨ (∀ command, ¬ Accepted line command) → next = session) ∧
        ∀ command, Accepted line command →
          next.mode = command.mode?.getD session.mode ∧ next.settings = command.applied session.settings := by
  have opening := Settings.standing_opening source
  refine ⟨Settings.standing source,opening,?_,?_,?_⟩
  · intro going
    cases reached : (start (Settings.standing source)).after lines with
    | none =>
      obtain ⟨line,member,quits⟩ := (after_none _ lines).mp reached
      exact absurd quits (going line member)
    | some session =>
      have settled := after_settled (start_settled opening.filled) reached
      refine ⟨session,rfl,settled,?_⟩
      intro line text asking ends
      obtain rfl := (Text.withoutLineEnd_exact line text).mpr ends
      refine ⟨_,settled.compiling ▸ session.answer_answers _,?_⟩
      intro more
      rw [transcript_append,reached]
      simp only [run,step_answers asking,List.append_assoc]
  · intro quits more
    rw [transcript_append,(after_none _ lines).mpr quits,List.append_nil]
  · intro session next line goes
    constructor
    · intro idle
      rcases idle with nothing | asking | refused
      · exact step_keeps (blank_unaccepted nothing) goes
      · exact step_keeps (asking_unaccepted asking) goes
      · exact step_keeps refused goes
    · intro command accepted
      obtain ⟨mode,settings,_⟩ := update_sets (step_sets accepted goes)
      exact ⟨mode,settings⟩

theorem transcript_kept_settings :
    Settings.load (.file "\x7b\"delimiter\":\" \",\"flatten_nested\":true\x7d".toUTF8) = .ok ⟨" ",[],true⟩ ∧
    transcript (.file "\x7b\"delimiter\":\" \",\"flatten_nested\":true\x7d".toUTF8)
        [":mode kw",":delim","a=1 b=2 c=3 or or\r"] =
      transcript (.file "\x7b\"delimiter\":\" \",\"flatten_nested\":true\x7d".toUTF8) [":mode kw",":delim"] ++
        [(Query.joined .or [.text "a" "1",.text "b" "2",.text "c" "3"]).toJson.pretty] ∧
    transcript (.file "\x7b\"delimiter\":\" \",\"flatten_nested\":true\x7d".toUTF8)
        [":mode kw",":delim","a=1 and"] =
      transcript (.file "\x7b\"delimiter\":\" \",\"flatten_nested\":true\x7d".toUTF8) [":mode kw",":delim"] ++
        ["✗ operator 'and' at token 1 needs two operands, found 1"] ∧
    transcript (.missing "absent.json")
        [":mode \tvalue\u3000",":fields  f,\u2003,g",":flatten maybe",":delim  ","\"y\" x and"] =
      transcript (.missing "absent.json") [":mode \tvalue\u3000",":fields  f,\u2003,g",":flatten maybe",":delim  "] ++
        [(Query.joined .and [.joined .or [.term "f" "y",.term "g" "y"],
          .joined .or [.text "f" "x",.text "g" "x"]]).toJson.pretty] ∧
    Accepted ":q now" .quit ∧ ∀ more, transcript .unreadable (":q now" :: more) = transcript .unreadable [":q now"] := by
  have quits : Accepted ":q now" .quit := by decide +kernel
  have loaded : Settings.load (.file "\x7b\"delimiter\":\" \",\"flatten_nested\":true\x7d".toUTF8) =
      .ok ⟨" ",[],true⟩ := by
    rw [Settings.load_text]
    decide +kernel
  obtain ⟨_,opening,going,_⟩ := transcript_last_accepted
    (.file "\x7b\"delimiter\":\" \",\"flatten_nested\":true\x7d".toUTF8) [":mode kw",":delim"]
  obtain rfl := opening.unique (.loaded loaded)
  obtain ⟨session,reached,_,told⟩ := going (by decide +kernel)
  have refused : (start ⟨" ",[],true⟩).after [":mode kw",":delim"] = some (start ⟨" ",[],true⟩) := by decide +kernel
  obtain rfl := Option.some.inj (reached.symm.trans refused)
  refine ⟨loaded,?_,?_,?_,quits,?_⟩
  · obtain ⟨shows,answers,more⟩ := told "a=1 b=2 c=3 or or\r" "a=1 b=2 c=3 or or" (by decide +kernel)
      ((Text.withoutLineEnd_exact _ _).mp rfl)
    have merged : Settings.compile ⟨" ",[],true⟩ .keyValue "a=1 b=2 c=3 or or" =
        .ok (.joined .or [.text "a" "1",.text "b" "2",.text "c" "3"]) := by decide +kernel
    obtain rfl := answers.unique (.keyValue (.query merged))
    exact (more []).trans (List.append_nil _)
  · obtain ⟨shows,answers,more⟩ := told "a=1 and" "a=1 and" (by decide +kernel)
      ((Text.withoutLineEnd_exact _ _).mp rfl)
    have failed : Settings.compile ⟨" ",[],true⟩ .keyValue "a=1 and" = .error (.underflow 1 .and 1) := by
      decide +kernel
    obtain rfl := answers.unique (.keyValue (.fault failed))
    exact (more []).trans (List.append_nil _)
  · obtain ⟨_,opening,going,_⟩ := transcript_last_accepted (.missing "absent.json")
      [":mode \tvalue\u3000",":fields  f,\u2003,g",":flatten maybe",":delim  "]
    obtain rfl := opening.unique (.standard rfl)
    obtain ⟨session,reached,_,told⟩ := going (by decide +kernel)
    have changed : (start ⟨"||__||",[],false⟩).after
        [":mode \tvalue\u3000",":fields  f,\u2003,g",":flatten maybe",":delim  "] =
        some ⟨.valueOnly,⟨" ",["f","g"],false⟩,⟨" ",["f","g"],false⟩⟩ := by decide +kernel
    obtain rfl := Option.some.inj (reached.symm.trans changed)
    obtain ⟨shows,answers,more⟩ := told "\"y\" x and" "\"y\" x and" (by decide +kernel)
      ((Text.withoutLineEnd_exact _ _).mp rfl)
    have found : Settings.compile ⟨" ",["f","g"],false⟩ (.valueOnly ["f","g"]) "\"y\" x and" =
        .ok (.joined .and [.joined .or [.term "f" "y",.term "g" "y"],.joined .or [.text "f" "x",.text "g" "x"]]) := by
      decide +kernel
    obtain rfl := answers.unique (.valueOnly (.query found))
    exact (more []).trans (List.append_nil _)
  · obtain ⟨_,_,_,ended,_⟩ := transcript_last_accepted .unreadable [":q now"]
    exact ended ⟨":q now",List.mem_singleton_self _,quits⟩

end Session
end FilterQuery
