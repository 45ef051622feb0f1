import FilterQuery.Proofs.Acceptance

namespace FilterQuery
open Outcome

namespace Grouping

theorem checkFrom_blames {held : List (Nat × Family)} {tokens : List Token} {misplaced : Misplaced}
    (failed : checkFrom held tokens = .error misplaced) :
    (∃ opener ∈ held, opener.1 = misplaced.position) ∨
      ∃ token ∈ tokens, token.position = misplaced.position ∧ token.lexeme.isBracket = true := by
  induction tokens generalizing held with
  | nil =>
    cases held with
    | nil => cases failed
    | cons opener held => cases failed; exact .inl ⟨opener,List.mem_cons_self,rfl⟩
  | cons token rest ih =>
    rw [checkFrom_cons] at failed
    cases met : meet held token with
    | error found =>
      rw [met] at failed
      cases failed
      obtain ⟨family,rfl⟩ := meet_fault met
      exact .inr ⟨_,List.mem_cons_self,rfl,rfl⟩
    | ok after =>
      rw [met] at failed
      rcases ih failed with ⟨opener,member,place⟩ | ⟨found,member,blamed⟩
      · rcases meet_cases met with ⟨_,rfl⟩ | ⟨position,family,rfl,rfl⟩ | ⟨position,openedAt,family,rfl,rfl⟩
        · exact .inl ⟨opener,member,place⟩
        · rcases List.mem_cons.mp member with rfl | before
          · exact .inr ⟨_,List.mem_cons_self,place,rfl⟩
          · exact .inl ⟨opener,before,place⟩
        · exact .inl ⟨opener,List.mem_cons_of_mem _ member,place⟩
      · exact .inr ⟨found,List.mem_cons_of_mem _ member,blamed⟩

end Grouping

namespace Evaluate

theorem steps_read {reading : Reading} {made next : List Query} {tokens : List Token}
    (ran : steps reading made tokens = .ok next) :
    ∀ leaf ∈ Token.leaves tokens, ∃ query, reading.leaf leaf.2 = .ok query := by
  induction tokens generalizing made with
  | nil => intro leaf member; cases member
  | cons token rest ih =>
    obtain ⟨middle,first,later⟩ := (bind_ok _).mp ran
    intro leaf member
    rw [Token.leaves_cons] at member
    rcases List.mem_append.mp member with here | after
    · rcases step_cases first with ⟨position,text,query,rfl,read,_⟩ | ⟨_,_,_,_,_,rfl,_,_⟩
      · cases List.mem_singleton.mp here
        exact ⟨query,read⟩
      · cases here
    · exact ih later leaf after

theorem steps_made {reading : Reading} {made : List Query} {tokens : List Token}
    (ran : steps reading made tokens = .ok []) : tokens = [] := by
  induction tokens generalizing made with
  | nil => rfl
  | cons token rest ih =>
    obtain ⟨middle,first,later⟩ := (bind_ok _).mp ran
    obtain rfl := ih later
    cases later
    rcases step_cases first with ⟨_,_,_,_,_,made⟩ | ⟨_,_,_,_,_,_,_,made⟩
    · cases made
    · cases made

-- The step of a connective with each query taken from the stack by itself, as if
-- the stack could run out in between.
def pop : List Query → Except CompileError (Query × List Query)
  | [] => .error (.incomplete 0)
  | top :: below => .ok (top,below)

def joinPopped (position : Nat) (op : Connective) (made : List Query) : Except CompileError (List Query) :=
  if made.length < 2 then .error (.underflow position op made.length)
  else do
    let (right,rest) ← pop made
    let (left,below) ← pop rest
    return .joined op [left,right] :: below

theorem joinPopped_exact (reading : Reading) (position : Nat) (op : Connective) (made : List Query) :
    joinPopped position op made = step reading made ⟨position,.connective op⟩ := by
  rcases made with _ | ⟨right,_ | ⟨left,below⟩⟩
  · rfl
  · rfl
  · simp [joinPopped,pop,step]

theorem joinPopped_complete (position : Nat) (op : Connective) (made : List Query) (remaining : Nat) :
    joinPopped position op made ≠ .error (.incomplete remaining) := by
  rw [joinPopped_exact .keyValue]
  intro stopped
  rcases step_fault stopped with ⟨_,_,_,_,_,fault⟩ | ⟨_,_,_,_,fault⟩ | ⟨_,_,fault⟩
  · cases fault
  · cases fault
  · cases fault

end Evaluate

-- What an error says about the filter that it is given for.
def CompileError.Fits (words : List String) : CompileError → Prop
  | .grouping misplaced =>
    (¬ ∃ forest : Forest, forest.tokens = Token.ofWords words) ∧
    ∃ word, words[misplaced.position]? = some word ∧ (Lexeme.ofText word).isBracket = true
  | .expression position leaf fault =>
    ∃ before after, words = before ++ leaf :: after ∧ before.length = position ∧ Lexeme.Plain leaf ∧
      (∀ earlier ∈ before, Lexeme.Plain earlier → ∃ query, Leaf.read earlier = .ok query) ∧
      Leaf.read leaf = .error fault ∧ compileWords .keyValue [leaf] = .error (.expression 0 leaf fault)
  | .underflow position op available => words[position]? = some op.word ∧ available < 2
  | .incomplete remaining =>
    (∀ word ∈ words, Lexeme.Plain word → ∃ query, Leaf.read word = .ok query) ∧
    remaining + words.count "and" + words.count "or" = (Token.leafWords words).length ∧ remaining ≠ 1 ∧
    (remaining = 0 → Token.leafWords words = [] ∧ "and" ∉ words ∧ "or" ∉ words)
  | .stray .. | .noFields => False

theorem compile_leaf {leaf : String} {fault : Leaf.Fault} (plain : Lexeme.Plain leaf)
    (unread : Leaf.read leaf = .error fault) : compileWords .keyValue [leaf] = .error (.expression 0 leaf fault) := by
  have single : Token.ofWords [leaf] = (Forest.leaf 0 leaf .empty).tokens := by
    rw [Token.ofWords_numbered,List.map_cons,(Lexeme.ofText_leaf leaf).mpr plain]
    rfl
  rw [compileWords,single,Forest.compile_forest _ _ rfl]
  simp [Forest.settled,Evaluate.steps_cons,Evaluate.step,Reading.leaf,unread]

theorem grouping_fits {words : List String} {misplaced : Grouping.Misplaced}
    (failed : Grouping.check (Token.ofWords words) = .error misplaced) :
    (CompileError.grouping misplaced).Fits words := by
  rcases Grouping.checkFrom_blames failed with ⟨opener,member,_⟩ | ⟨token,member,place,bracket⟩
  · cases member
  · obtain ⟨word,found,read⟩ := Token.ofWords_placed words token member
    refine ⟨?_,word,place ▸ found,read ▸ bracket⟩
    rw [← Forest.check_forest,failed]
    exact fun checked => nomatch checked

theorem expression_fits {words : List String} {earlier later : List (Nat × String)} {position : Nat} {leaf : String}
    {fault : Leaf.Fault} (split : Token.leaves (Token.ofWords words) = earlier ++ (position,leaf) :: later)
    (read : ∀ leaf ∈ earlier, ∃ query, Leaf.read leaf.2 = .ok query) (unread : Leaf.read leaf = .error fault) :
    (CompileError.expression position leaf fault).Fits words := by
  have member : (position,leaf) ∈ Token.leaves (Token.ofWords words) := by rw [split]; simp
  rw [Token.ofWords_numbered] at split member
  obtain ⟨_,plain⟩ := Token.leaves_plain 0 words _ member
  obtain ⟨before,after,rfl,place,leaves⟩ := Token.leaves_split split
  refine ⟨before,after,rfl,by simpa using place,plain,?_,unread,compile_leaf plain unread⟩
  intro word listed wordPlain
  have known : word ∈ Token.leafWords before := List.mem_filter.mpr ⟨listed,decide_eq_true wordPlain⟩
  rw [← Token.leaves_words 0,leaves] at known
  obtain ⟨found,foundMember,rfl⟩ := List.mem_map.mp known
  exact read found foundMember

theorem counted_connectives (ops : List Connective) : ops.length = ops.count .and + ops.count .or := by
  induction ops with
  | nil => rfl
  | cons op rest ih =>
    rw [List.length_cons,ih,List.count_cons,List.count_cons]
    cases op with
    | and => simp only [beq_self_eq_true,reduceCtorEq,beq_iff_eq,if_true,if_false]; omega
    | or => simp only [beq_self_eq_true,reduceCtorEq,beq_iff_eq,if_true,if_false]; omega

theorem underflow_fits {words : List String} {position : Nat} {op : Connective} {available : Nat}
    (member : ⟨position,.connective op⟩ ∈ Postfix.order (Token.ofWords words)) (few : available < 2) :
    (CompileError.underflow position op available).Fits words := by
  have ordered : (position,op) ∈ Token.connectives (Postfix.order (Token.ofWords words)) :=
    List.mem_filterMap.mpr ⟨_,member,rfl⟩
  obtain ⟨token,written,same⟩ := List.mem_filterMap.mp ((Postfix.order_connectives _).subset ordered)
  obtain ⟨place,lexeme⟩ := token
  cases lexeme with
  | connective other =>
    cases same
    obtain ⟨word,found,read⟩ := Token.ofWords_placed words _ written
    have text : word = op.word := by simpa [read,Lexeme.text] using (Lexeme.text_roundtrip word).symm
    exact ⟨text ▸ found,few⟩
  | opener | closer | leaf => cases same

theorem incomplete_fits {words : List String} {made : List Query}
    (ran : Evaluate.steps .keyValue [] (Postfix.order (Token.ofWords words)) = .ok made) (several : made.length ≠ 1) :
    (CompileError.incomplete made.length).Fits words := by
  have connectives := Postfix.order_connectives (Token.ofWords words)
  have asked : (Token.leaves (Postfix.order (Token.ofWords words))).map Prod.snd = Token.leafWords words := by
    rw [Postfix.order_leaves,Token.ofWords_numbered,Token.leaves_words]
  have total : (Token.connectives (Postfix.order (Token.ofWords words))).length =
      words.count "and" + words.count "or" := by
    rw [← List.length_map Prod.snd,counted_connectives,(connectives.map Prod.snd).count_eq,
      (connectives.map Prod.snd).count_eq,Token.ofWords_numbered,Token.connectives_words,Token.connectives_words]
    rfl
  have depth := Evaluate.steps_length ran
  have read := Evaluate.steps_read ran
  refine ⟨?_,?_,several,?_⟩
  · intro word listed plain
    have known : word ∈ Token.leafWords words := List.mem_filter.mpr ⟨listed,decide_eq_true plain⟩
    rw [← asked] at known
    obtain ⟨leaf,member,rfl⟩ := List.mem_map.mp known
    exact read leaf member
  · rw [← asked,List.length_map]
    simp only [List.length_nil] at depth
    omega
  · intro nothing
    obtain rfl := List.length_eq_zero_iff.mp nothing
    have bare := Evaluate.steps_made ran
    rw [bare] at asked total
    refine ⟨asked.symm,?_,?_⟩
    · intro listed
      have counted := List.count_pos_iff.mpr listed
      simp at total
      omega
    · intro listed
      have counted := List.count_pos_iff.mpr listed
      simp at total
      omega

theorem compile_fits (words : List String) (fault : CompileError)
    (failed : compileWords .keyValue words = .error fault) : fault.Fits words := by
  rcases compile_fault .keyValue (Token.ofWords words) rfl failed with
    ⟨misplaced,checked,rfl⟩ | ⟨before,token,after,made,checked,split,first,stopped⟩ | ⟨made,checked,ran,several,rfl⟩
  · exact grouping_fits checked
  · have member : token ∈ Postfix.order (Token.ofWords words) := by rw [split]; simp
    rcases Evaluate.step_fault stopped with
      ⟨position,text,cause,rfl,unread,rfl⟩ | ⟨position,op,rfl,few,rfl⟩ | ⟨bracket,_⟩
    · have leaves := Postfix.order_leaves (Token.ofWords words)
      rw [split,Token.leaves_append,Token.leaves_cons] at leaves
      exact expression_fits leaves.symm (Evaluate.steps_read first) unread
    · exact underflow_fits member few
    · have unbracketed := Postfix.order_unbracketed _ token member
      rw [bracket] at unbracketed
      cases unbracketed
  · exact incomplete_fits ran several

theorem compile_blames (words : List String) :
    ((∃ misplaced, compileWords .keyValue words = .error (.grouping misplaced)) ↔
      ¬ ∃ forest : Forest, forest.tokens = Token.ofWords words) ∧
    (∀ fault, compileWords .keyValue words = .error fault → fault.Fits words) ∧
    (∀ token ∈ Postfix.order (Token.ofWords words), token.lexeme.isBracket = false) ∧
    ∀ position op made remaining,
      Evaluate.joinPopped position op made = Evaluate.step .keyValue made ⟨position,.connective op⟩ ∧
      Evaluate.joinPopped position op made ≠ .error (.incomplete remaining) := by
  refine ⟨?_,compile_fits words,?_,?_⟩
  · constructor
    · rintro ⟨misplaced,failed⟩
      exact (compile_fits words _ failed).1
    · rw [← Forest.check_forest]
      intro unbalanced
      cases checked : Grouping.check (Token.ofWords words) with
      | ok _ => exact absurd checked unbalanced
      | error misplaced => exact ⟨misplaced,compile_unbalanced _ _ rfl checked⟩
  · exact Postfix.order_unbracketed _
  · intro position op made remaining
    exact ⟨Evaluate.joinPopped_exact .keyValue position op made,Evaluate.joinPopped_complete position op made remaining⟩

-- Each filter has a second fault, which is not the one that is named.
theorem blamed_among_others :
    (CompileError.grouping ⟨3,.mismatched .round 0 .square⟩).Fits ["(","a==1","and","]"] ∧
    (CompileError.expression 2 "b==2" .severalOperators).Fits ["a=1","(","b==2",")","c","or","and","or"] ∧
    (CompileError.underflow 2 .or 1).Fits ["(","a=1","or",")","b==2"] ∧
    (CompileError.incomplete 2).Fits ["a=1","and","b=2","c=3"] ∧
    (CompileError.incomplete 0).Fits ["(","[","]",")"] := by
  refine ⟨?_,?_,?_,?_,?_⟩
  · exact (compile_blames ["(","a==1","and","]"]).2.1 _ rfl
  · exact (compile_blames ["a=1","(","b==2",")","c","or","and","or"]).2.1 _ rfl
  · exact (compile_blames ["(","a=1","or",")","b==2"]).2.1 _ rfl
  · exact (compile_blames ["a=1","and","b=2","c=3"]).2.1 _ rfl
  · exact (compile_blames ["(","[","]",")"]).2.1 _ rfl

end FilterQuery
