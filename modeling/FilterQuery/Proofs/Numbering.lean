import FilterQuery.Token

namespace FilterQuery

namespace Lexeme

abbrev Plain (word : String) : Prop := word ∉ structural.map text

def isBracket : Lexeme → Bool
  | .opener _ | .closer _ => true
  | .connective _ | .leaf _ => false

theorem opener_bracket {lexeme : Lexeme} (opens : lexeme.isOpener = true) : lexeme.isBracket = true := by
  cases lexeme with
  | opener family => rfl
  | closer | connective | leaf => cases opens

theorem leaf_unlisted (word : String) : .leaf word ∉ structural := by simp [structural,Family.all]

theorem ofText_leaf (word : String) : ofText word = .leaf word ↔ Plain word := by
  unfold ofText
  constructor
  · intro plain listed
    obtain ⟨lexeme,member,same⟩ := List.mem_map.mp listed
    cases found : structural.find? (·.text == word) with
    | none => exact List.find?_eq_none.mp found lexeme member (by simpa using same)
    | some other =>
      simp only [found,Option.getD_some] at plain
      exact leaf_unlisted word (plain ▸ List.mem_of_find?_eq_some found)
  · intro plain
    have missing : structural.find? (·.text == word) = none := by
      apply List.find?_eq_none.mpr
      intro lexeme member same
      exact plain (List.mem_map.mpr ⟨lexeme,member,by simpa using same⟩)
    simp [missing]

theorem ofText_opener (family : Family) : ofText (opener family).text = .opener family := by
  cases family <;> decide
theorem ofText_closer (family : Family) : ofText (closer family).text = .closer family := by
  cases family <;> decide
theorem ofText_connective (op : Connective) : ofText (connective op).text = .connective op := by
  cases op <;> decide

theorem ofText_text (word text : String) (read : ofText word = .leaf text) : word = text := by
  simpa [read,Lexeme.text] using (text_roundtrip word).symm

end Lexeme

namespace Token

-- Lexemes at places that are counted from `start`.
def numbered (start : Nat) : List Lexeme → List Token
  | [] => []
  | lexeme :: rest => ⟨start,lexeme⟩ :: numbered (start+1) rest

theorem numbered_append (start : Nat) (first second : List Lexeme) :
    numbered start (first ++ second) = numbered start first ++ numbered (start + first.length) second := by
  induction first generalizing start with
  | nil => rfl
  | cons lexeme rest ih => simp [numbered,ih,Nat.add_assoc,Nat.add_comm 1]

theorem numbered_zipIdx (start : Nat) (lexemes : List Lexeme) :
    numbered start lexemes = (lexemes.zipIdx start).map fun (lexeme,position) => ⟨position,lexeme⟩ := by
  induction lexemes generalizing start with
  | nil => rfl
  | cons lexeme rest ih => simp [numbered,ih]

theorem ofLexemes_numbered (lexemes : List Lexeme) : ofLexemes lexemes = numbered 0 lexemes :=
  (numbered_zipIdx 0 lexemes).symm

theorem numbered_lexemes (start : Nat) (lexemes : List Lexeme) :
    (numbered start lexemes).map lexeme = lexemes := by
  induction lexemes generalizing start with
  | nil => rfl
  | cons lexeme rest ih => simp [numbered,ih]

def leaf? : Token → Option (Nat × String)
  | ⟨position,.leaf text⟩ => some (position,text)
  | _ => none

theorem leaf_cases (token : Token) : (∃ position text, token = ⟨position,.leaf text⟩) ∨ leaf? token = none := by
  obtain ⟨position,lexeme⟩ := token
  cases lexeme with
  | leaf text => exact .inl ⟨position,text,rfl⟩
  | opener | closer | connective => exact .inr rfl

def connective? : Token → Option (Nat × Connective)
  | ⟨position,.connective op⟩ => some (position,op)
  | _ => none

-- The leaves of a sequence in its order, each with its place, and so its
-- connectives.
def leaves (tokens : List Token) : List (Nat × String) := tokens.filterMap leaf?
def connectives (tokens : List Token) : List (Nat × Connective) := tokens.filterMap connective?

@[simp] theorem leaves_nil : leaves [] = [] := rfl
@[simp] theorem connectives_nil : connectives [] = [] := rfl

theorem leaves_cons (token : Token) (rest : List Token) :
    leaves (token :: rest) = (leaf? token).toList ++ leaves rest := by
  cases leaf : leaf? token <;> simp [leaves,leaf]
theorem connectives_cons (token : Token) (rest : List Token) :
    connectives (token :: rest) = (connective? token).toList ++ connectives rest := by
  cases connective : connective? token <;> simp [connectives,connective]

@[simp] theorem leaves_append (first second : List Token) : leaves (first ++ second) = leaves first ++ leaves second :=
  List.filterMap_append
@[simp] theorem connectives_append (first second : List Token) :
    connectives (first ++ second) = connectives first ++ connectives second := List.filterMap_append

theorem connectives_unbracketed (tokens : List Token) :
    connectives (tokens.filter (!·.lexeme.isBracket)) = connectives tokens := by
  induction tokens with
  | nil => rfl
  | cons token rest ih =>
    obtain ⟨position,lexeme⟩ := token
    cases lexeme with
    | opener | closer => exact ih
    | connective | leaf =>
      rw [List.filter_cons_of_pos rfl,connectives_cons,connectives_cons,ih]

theorem leaf_structural (start : Nat) {word : String} (listed : ¬ Lexeme.Plain word) :
    leaf? ⟨start,Lexeme.ofText word⟩ = none := by
  cases read : Lexeme.ofText word with
  | leaf text =>
    obtain rfl := Lexeme.ofText_text word text read
    exact absurd ((Lexeme.ofText_leaf word).mp read) listed
  | opener | closer | connective => rfl

theorem leaves_plain (start : Nat) (words : List String) (leaf : Nat × String)
    (member : leaf ∈ leaves (numbered start (words.map Lexeme.ofText))) : leaf.2 ∈ words ∧ Lexeme.Plain leaf.2 := by
  induction words generalizing start with
  | nil => cases member
  | cons word rest ih =>
    simp only [List.map_cons,numbered,leaves_cons,List.mem_append] at member
    rcases member with here | later
    · by_cases plain : Lexeme.Plain word
      · rw [(Lexeme.ofText_leaf word).mpr plain] at here
        cases List.mem_singleton.mp here
        exact ⟨List.mem_cons_self,plain⟩
      · rw [leaf_structural start plain] at here
        cases here
    · obtain ⟨listed,plain⟩ := ih (start + 1) later
      exact ⟨List.mem_cons_of_mem _ listed,plain⟩

-- The words of a filter that are leaves, in their order.
def leafWords (words : List String) : List String := words.filter fun word => Lexeme.Plain word

theorem leafWords_leaf {word : String} (rest : List String) (plain : Lexeme.Plain word) :
    leafWords (word :: rest) = word :: leafWords rest :=
  List.filter_cons_of_pos (decide_eq_true plain)

theorem leafWords_structural {word : String} (rest : List String) (listed : ¬ Lexeme.Plain word) :
    leafWords (word :: rest) = leafWords rest :=
  List.filter_cons_of_neg (fun plain => listed (of_decide_eq_true plain))

theorem leaves_words (start : Nat) (words : List String) :
    (leaves (numbered start (words.map Lexeme.ofText))).map Prod.snd = leafWords words := by
  induction words generalizing start with
  | nil => rfl
  | cons word rest ih =>
    simp only [List.map_cons,numbered,leaves_cons,List.map_append,ih]
    by_cases plain : Lexeme.Plain word
    · rw [(Lexeme.ofText_leaf word).mpr plain,leafWords_leaf rest plain]
      rfl
    · rw [leaf_structural start plain,leafWords_structural rest plain]
      rfl

theorem connectives_words (start : Nat) (words : List String) (op : Connective) :
    ((connectives (numbered start (words.map Lexeme.ofText))).map Prod.snd).count op = words.count op.word := by
  induction words generalizing start with
  | nil => rfl
  | cons word rest ih =>
    simp only [List.map_cons,numbered,connectives_cons,List.map_append,List.count_append,ih,List.count_cons]
    by_cases same : word = op.word
    · subst same
      have read : Lexeme.ofText op.word = .connective op := Lexeme.ofText_connective op
      simp [read,connective?,Nat.add_comm]
    · cases read : Lexeme.ofText word with
      | connective found =>
        have differ : found ≠ op := by
          rintro rfl
          exact same (by simpa [read,Lexeme.text] using (Lexeme.text_roundtrip word).symm)
        simp [same,connective?,differ]
      | leaf | opener | closer => simp [same,connective?]

theorem ofWords_numbered (words : List String) : ofWords words = numbered 0 (words.map Lexeme.ofText) :=
  ofLexemes_numbered _

theorem placed_at {tokens : List Token} {count place : Nat} {token : Token}
    (placed : tokens.map position = List.range count) (found : tokens[place]? = some token) :
    token.position = place := by
  have listed : (tokens.map position)[place]? = some token.position := by rw [List.getElem?_map,found]; rfl
  rw [placed] at listed
  obtain ⟨bound,same⟩ := List.getElem?_eq_some_iff.mp listed
  rw [List.getElem_range] at same
  exact same.symm

theorem ofWords_placed (words : List String) (token : Token) (member : token ∈ ofWords words) :
    ∃ word, words[token.position]? = some word ∧ Lexeme.ofText word = token.lexeme := by
  obtain ⟨⟨lexeme,position⟩,placed,rfl⟩ := List.mem_map.mp member
  have found := List.mem_zipIdx_iff_getElem?.mp placed
  rw [List.getElem?_map] at found
  exact Option.map_eq_some_iff.mp found

theorem leaves_split {start : Nat} {words : List String} {earlier later : List (Nat × String)} {leaf : Nat × String}
    (split : leaves (numbered start (words.map Lexeme.ofText)) = earlier ++ leaf :: later) :
    ∃ before after, words = before ++ leaf.2 :: after ∧ start + before.length = leaf.1 ∧
      leaves (numbered start (before.map Lexeme.ofText)) = earlier := by
  induction words generalizing start earlier with
  | nil => cases earlier <;> cases split
  | cons word rest ih =>
    rw [List.map_cons,numbered,leaves_cons] at split
    by_cases plain : Lexeme.Plain word
    · rw [(Lexeme.ofText_leaf word).mpr plain] at split
      cases earlier with
      | nil =>
        obtain ⟨rfl,_⟩ := List.cons.inj split
        exact ⟨[],rest,rfl,rfl,rfl⟩
      | cons first earlier =>
        obtain ⟨rfl,tail⟩ := List.cons.inj split
        obtain ⟨before,after,rfl,place,leaves⟩ := ih tail
        refine ⟨word :: before,after,rfl,by rw [← place,List.length_cons]; omega,?_⟩
        rw [List.map_cons,numbered,leaves_cons,leaves,(Lexeme.ofText_leaf word).mpr plain]
        rfl
    · rw [leaf_structural start plain] at split
      obtain ⟨before,after,rfl,place,leaves⟩ := ih split
      refine ⟨word :: before,after,rfl,by rw [← place,List.length_cons]; omega,?_⟩
      rw [List.map_cons,numbered,leaves_cons,leaves,leaf_structural start plain]
      rfl

end Token
end FilterQuery
