import Mathlib.Data.List.InsertIdx
import FilterQuery.Proofs.Enclosure
import FilterQuery.Proofs.Placement

namespace FilterQuery
open Outcome Grouping

-- A bracket of another family where one stood, an opener for an opener and a
-- closer for a closer.
def Lexeme.painted (family : Family) : Lexeme → Lexeme
  | .opener _ => .opener family
  | .closer _ => .closer family
  | lexeme => lexeme

def Token.painted (paint : Nat → Family) (token : Token) : Token :=
  {token with lexeme := token.lexeme.painted (paint token.position)}

-- The words of a filter with each bracket in the family that its place is given.
def Token.repainted (paint : Nat → Family) (words : List String) : List String :=
  ((ofWords words).map (painted paint)).map text

-- A place once the token at another is gone: what stood behind it moves up by one.
def Token.closedUp (gone place : Nat) : Nat := if gone < place then place - 1 else place

theorem Lexeme.painted_word (family : Family) (word : String) :
    ofText ((ofText word).painted family).text = (ofText word).painted family := by
  cases read : ofText word with
  | opener old => exact ofText_opener family
  | closer old => exact ofText_closer family
  | connective op => exact ofText_connective op
  | leaf text =>
    obtain rfl := ofText_text word text read
    exact read

theorem Token.numbered_painted (paint : Nat → Family) (start : Nat) (words : List String) :
    numbered start ((((numbered start (words.map Lexeme.ofText)).map (painted paint)).map text).map Lexeme.ofText) =
      (numbered start (words.map Lexeme.ofText)).map (painted paint) := by
  induction words generalizing start with
  | nil => rfl
  | cons word rest ih =>
    simp only [List.map_cons,numbered,ih]
    rw [text,painted,Lexeme.painted_word]

theorem Token.ofWords_repainted (paint : Nat → Family) (words : List String) :
    ofWords (repainted paint words) = (ofWords words).map (painted paint) := by
  rw [repainted,ofWords_numbered,ofWords_numbered,numbered_painted]

theorem Token.numbered_behind {gone start : Nat} (behind : gone ≤ start) (lexemes : List Lexeme) :
    (numbered (start+1) lexemes).map (moved (closedUp gone)) = numbered start lexemes := by
  induction lexemes generalizing start with
  | nil => rfl
  | cons lexeme rest ih =>
    rw [numbered,numbered,List.map_cons,ih (Nat.le_succ_of_le behind),moved,closedUp,if_pos (Nat.lt_succ_of_le behind),
      Nat.add_sub_cancel]

theorem Token.numbered_erased (start gone : Nat) (lexemes : List Lexeme) :
    numbered start (lexemes.eraseIdx gone) =
      ((numbered start lexemes).eraseIdx gone).map (moved (closedUp (start + gone))) := by
  induction lexemes generalizing start gone with
  | nil => rfl
  | cons lexeme rest ih =>
    cases gone with
    | zero =>
      rw [List.eraseIdx_cons_zero,numbered,List.eraseIdx_cons_zero,Nat.add_zero,numbered_behind (Nat.le_refl start)]
    | succ gone =>
      have here : ¬ start + (gone + 1) < start := by omega
      rw [List.eraseIdx_cons_succ,numbered,numbered,List.eraseIdx_cons_succ,List.map_cons,ih,moved,closedUp,
        if_neg here,Nat.add_assoc,Nat.add_comm 1]

theorem Token.ofWords_erased (gone : Nat) (words : List String) :
    ofWords (words.eraseIdx gone) = ((ofWords words).eraseIdx gone).map (moved (closedUp gone)) := by
  have erased := numbered_erased 0 gone (words.map Lexeme.ofText)
  rw [Nat.zero_add] at erased
  rw [ofWords_numbered,ofWords_numbered,← erased,List.eraseIdx_map]

theorem compile_alike_order (reading : Reading) {tokens others : List Token} (checked : check tokens = check others)
    (ordered : Postfix.order tokens = Postfix.order others) : compile reading tokens = compile reading others := by
  rw [compile,compile,checked,ordered]

namespace Forest

def painted (paint : Nat → Family) : Forest → Forest
  | empty => empty
  | leaf position text rest => .leaf position text (rest.painted paint)
  | connective position op rest => .connective position op (rest.painted paint)
  | group _ openedAt closedAt inside rest =>
    .group (paint openedAt) openedAt closedAt (inside.painted paint) (rest.painted paint)

theorem painted_gives (paint : Nat → Family) (forest : Forest) :
    (forest.painted paint).settled = forest.settled ∧ (forest.painted paint).direct = forest.direct := by
  induction forest with
  | empty => exact ⟨rfl,rfl⟩
  | leaf position text rest ih => exact ⟨by rw [painted,settled,settled,ih.1],ih.2⟩
  | connective position op rest ih => exact ⟨ih.1,by rw [painted,direct,direct,ih.2]⟩
  | group family openedAt closedAt inside rest insideIh restIh =>
    exact ⟨by rw [painted,settled,settled,insideIh.1,insideIh.2,restIh.1],restIh.2⟩

end Forest

namespace Grouping

-- Brackets that pair up are painted in one family.
def Even (paint : Nat → Family) (tokens : List Token) : Prop :=
  ∀ openedAt closedAt opener closer, pairs tokens openedAt closedAt = true → tokens[openedAt]? = some opener →
    tokens[closedAt]? = some closer → paint opener.position = paint closer.position

theorem Even.left {paint : Nat → Family} {before after : List Token} (even : Even paint (before ++ after)) :
    Even paint before := by
  intro openedAt closedAt opener closer paired opens closes
  obtain ⟨order,within⟩ := pairs_bounded paired
  apply even openedAt closedAt opener closer
  · rw [pairs_left after within order,paired]
  · rw [List.getElem?_append_left (Nat.lt_trans order within),opens]
  · rw [List.getElem?_append_left within,closes]

theorem Even.right {paint : Nat → Family} {before after : List Token} (even : Even paint (before ++ after)) :
    Even paint after := by
  intro openedAt closedAt opener closer paired opens closes
  apply even (before.length + openedAt) (before.length + closedAt) opener closer
  · rw [pairs_right,paired]
  · rw [List.getElem?_append_right (Nat.le_add_right _ _),Nat.add_sub_cancel_left,opens]
  · rw [List.getElem?_append_right (Nat.le_add_right _ _),Nat.add_sub_cancel_left,closes]

theorem Even.tail {paint : Nat → Family} {token : Token} {rest : List Token} (even : Even paint (token :: rest)) :
    Even paint rest :=
  Even.right (show Even paint ([token] ++ rest) from even)

theorem Even.group {paint : Nat → Family} {openedAt closedAt : Nat} {family : Family} {inside : Forest}
    {after : List Token}
    (even : Even paint (⟨openedAt,.opener family⟩ :: (inside.tokens ++ ⟨closedAt,.closer family⟩ :: after))) :
    paint openedAt = paint closedAt := by
  have paired := pairs_group [] openedAt family inside closedAt after
  refine even _ _ ⟨openedAt,.opener family⟩ ⟨closedAt,.closer family⟩ paired rfl ?_
  simp

end Grouping

theorem Forest.painted_tokens {paint : Nat → Family} (forest : Forest) (even : Even paint forest.tokens) :
    (forest.painted paint).tokens = forest.tokens.map (Token.painted paint) := by
  induction forest with
  | empty => rfl
  | leaf position text rest ih =>
    rw [painted,tokens,tokens,List.map_cons,ih even.tail]
    rfl
  | connective position op rest ih =>
    rw [painted,tokens,tokens,List.map_cons,ih even.tail]
    rfl
  | group family openedAt closedAt inside rest insideIh restIh =>
    have same := even.group
    have content := even.tail
    rw [painted,tokens,tokens,List.map_cons,List.map_append,List.map_cons,insideIh content.left,
      restIh content.right.tail,Token.painted,Token.painted,Lexeme.painted,Lexeme.painted,same]

theorem compile_painted {paint : Nat → Family} (reading : Reading) (forest : Forest) (even : Even paint forest.tokens) :
    compile reading (forest.tokens.map (Token.painted paint)) = compile reading forest.tokens := by
  obtain ⟨settled,direct⟩ := forest.painted_gives paint
  rw [← forest.painted_tokens even]
  apply compile_alike_order
  · rw [(Forest.check_forest _).mpr ⟨_,rfl⟩,(Forest.check_forest _).mpr ⟨_,rfl⟩]
  · rw [Forest.order_tokens,Forest.order_tokens,settled,direct]

-- The group or the filter around these tokens ends in front of them.
def Grouping.Ends (after : List Token) : Prop := ∀ next ∈ after.head?, ∃ family, next.lexeme = .closer family

theorem Postfix.orderFrom_ends {waiting after : List Token} (held : List Token)
    (waits : ∀ token ∈ waiting, (!token.lexeme.isOpener) = true) (ends : Ends after) :
    orderFrom (waiting ++ held) after = waiting ++ orderFrom held after := by
  cases after with
  | nil => rw [orderFrom,orderFrom,List.filter_append,List.filter_eq_self.mpr waits]
  | cons next rest =>
    obtain ⟨family,closes⟩ := ends next rfl
    simp only [orderFrom,closes]
    rw [List.takeWhile_append_of_pos waits,List.dropWhile_append_of_pos waits,List.append_assoc]

theorem compile_unwrapped (reading : Reading) (before : List Token) (family : Family) (openedAt closedAt : Nat)
    (inside : Forest) (after : List Token) (idle : inside.direct = [] ∨ Ends after) :
    compile reading (before ++ (inside.tokens ++ after)) =
      compile reading (before ++ ⟨openedAt,.opener family⟩ :: (inside.tokens ++ ⟨closedAt,.closer family⟩ :: after)) := by
  apply compile_alike_order
  · rw [check,check,checkFrom_row,checkFrom_group]
  · rw [Postfix.order_around,Postfix.order_group,List.append_assoc]
    rcases idle with quiet | ends
    · rw [quiet]
      rfl
    · rw [Postfix.orderFrom_ends _ inside.direct_waits ends]

namespace Grouping

theorem pairs_split {tokens : List Token} {openedAt closedAt : Nat} (paired : pairs tokens openedAt closedAt = true) :
    ∃ opened family closed, ∃ inside : Forest, inside.tokens = (tokens.take closedAt).drop (openedAt + 1) ∧
      tokens = tokens.take openedAt ++
        ⟨opened,.opener family⟩ :: (inside.tokens ++ ⟨closed,.closer family⟩ :: tokens.drop (closedAt + 1)) := by
  obtain ⟨order,opened,closed,family,opens,closes,inside,content⟩ := pairs_parts paired
  refine ⟨opened,family,closed,inside,content,?_⟩
  have front := split_at (show (tokens.take closedAt)[openedAt]? = some ⟨opened,.opener family⟩ by
    rw [List.getElem?_take_of_lt order,opens])
  rw [List.take_take,Nat.min_eq_left (Nat.le_of_lt order),← content] at front
  calc tokens
    _ = tokens.take closedAt ++ ⟨closed,.closer family⟩ :: tokens.drop (closedAt + 1) := split_at closes
    _ = _ := by rw [front,List.append_assoc,List.cons_append]

theorem pairs_erased {tokens : List Token} {openedAt closedAt : Nat} (paired : pairs tokens openedAt closedAt = true) :
    (tokens.eraseIdx closedAt).eraseIdx openedAt =
      tokens.take openedAt ++ ((tokens.take closedAt).drop (openedAt + 1) ++ tokens.drop (closedAt + 1)) := by
  obtain ⟨order,within⟩ := pairs_bounded paired
  have front : openedAt < (tokens.take closedAt).length := by
    rw [List.length_take_of_le (Nat.le_of_lt within)]
    exact order
  rw [List.eraseIdx_eq_take_drop_succ tokens,List.eraseIdx_append_of_lt_length front,
    List.eraseIdx_eq_take_drop_succ,List.take_take,Nat.min_eq_left (Nat.le_of_lt order),List.append_assoc]

-- Brackets that pair up with no connective between them but those of groups
-- inside, or that are closed together with the group or the filter around them.
def Redundant (tokens : List Token) (openedAt closedAt : Nat) : Prop :=
  pairs tokens openedAt closedAt = true ∧
    (looseConnectives ((tokens.take closedAt).drop (openedAt + 1)) = 0 ∨ Ends (tokens.drop (closedAt + 1)))

end Grouping

theorem compile_erased (reading : Reading) {tokens : List Token} {openedAt closedAt : Nat}
    (redundant : Redundant tokens openedAt closedAt) :
    compile reading ((tokens.eraseIdx closedAt).eraseIdx openedAt) = compile reading tokens := by
  obtain ⟨paired,idle⟩ := redundant
  obtain ⟨opened,family,closed,inside,content,whole⟩ := pairs_split paired
  rw [← content,inside.loose_direct,List.length_eq_zero_iff] at idle
  have unwrapped := compile_unwrapped reading (tokens.take openedAt) family opened closed inside _ idle
  rw [← whole,content] at unwrapped
  rw [pairs_erased paired,unwrapped]

theorem compile_brackets (reading : Reading) (words : List String) (balanced : check (Token.ofWords words) = .ok ()) :
    (∀ paint : Nat → Family, (∀ openedAt closedAt, pairs (Token.ofWords words) openedAt closedAt = true →
        paint openedAt = paint closedAt) →
      compileWords reading (Token.repainted paint words) = compileWords reading words) ∧
    ∀ openedAt closedAt, Redundant (Token.ofWords words) openedAt closedAt →
      compileWords reading ((words.eraseIdx closedAt).eraseIdx openedAt) =
        (compileWords reading words).mapError
          (CompileError.moved (Token.closedUp openedAt ∘ Token.closedUp closedAt)) := by
  constructor
  · intro paint alike
    obtain ⟨forest,written⟩ := (Forest.check_forest _).mp balanced
    have placed := Token.positions_exact words
    have even : Even paint (Token.ofWords words) := by
      intro openedAt closedAt opener closer paired opens closes
      rw [Token.placed_at placed opens,Token.placed_at placed closes]
      exact alike openedAt closedAt paired
    rw [← written] at even
    rw [compileWords,compileWords,Token.ofWords_repainted,← written,compile_painted reading forest even]
  · intro openedAt closedAt redundant
    rw [compileWords,compileWords,Token.ofWords_erased,Token.ofWords_erased,List.eraseIdx_map,List.map_map]
    have joined : Token.moved (Token.closedUp openedAt) ∘ Token.moved (Token.closedUp closedAt) =
        Token.moved (Token.closedUp openedAt ∘ Token.closedUp closedAt) := rfl
    rw [joined,compile_moved,compile_erased reading redundant]

theorem brackets_plain :
    compileWords .keyValue ["(","(","a=1",")","and","(","b=2","or","c==3",")",")"] =
      .error (.expression 8 "c==3" .severalOperators) ∧
    compileWords .keyValue ["\x7b","a=1","and","(","b=2","or","c==3",")","\x7d"] =
      .error (.expression 6 "c==3" .severalOperators) ∧
    compileWords .keyValue ["\x7b","[","a=1","]","and","b=2","or","c==3","\x7d"] =
      .error (.expression 7 "c==3" .severalOperators) := by
  have same := compile_brackets .keyValue ["\x7b","[","a=1","]","and","(","b=2","or","c==3",")","\x7d"] rfl
  refine ⟨?_,?_,?_⟩
  · exact same.1 (fun _ => .round) fun _ _ _ => rfl
  · exact same.2 1 3 ⟨by decide,.inl (by decide)⟩
  · refine same.2 5 9 ⟨by decide,.inr ?_⟩
    intro next member
    cases member
    exact ⟨.curly,rfl⟩

end FilterQuery
