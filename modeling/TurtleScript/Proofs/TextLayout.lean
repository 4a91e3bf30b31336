import TurtleScript.Proofs.AlikeSessions
import TurtleScript.Proofs.Lexemes
import TurtleScript.Proofs.RespannedParsing

/-!
Layout. A token is cut off again wherever blanks, a comment or the end follow its text (`cut_again`), so the tokens of a
text can be written out with any gaps between them and are the same tokens, at other places (`items_layout`). What is
made of them differs in spans only, and so does whatever a session does with it (`layout_meaningless`).
-/

namespace TurtleScript

namespace Token

/-- Text between tokens: blanks, and comments with the newlines at their ends. -/
inductive Gap : List Char → Prop where
  | none : Gap []
  | blank {c : Char} {gap : List Char} (blank : c ∈ [' ','\t','\r','\n']) (rest : Gap gap) : Gap (c :: gap)
  | comment {note gap : List Char} (line : '\n' ∉ note) (rest : Gap gap) : Gap ('#' :: (note ++ '\n' :: gap))

/-- The text has the lexemes in order and nothing else but gaps, one at least between a lexeme and the next. -/
inductive LaidOut : List String → List Char → Prop where
  | nothing {gap : List Char} (front : Gap gap) : LaidOut [] gap
  | last {lexeme : String} {gap gap' : List Char} (front : Gap gap) (back : Gap gap') :
      LaidOut [lexeme] (gap ++ (lexeme.toList ++ gap'))
  | more {lexeme next : String} {later : List String} {gap gap' text : List Char} (front : Gap gap)
      (between : Gap gap') (apart : gap' ≠ []) (rest : LaidOut (next :: later) text) :
      LaidOut (lexeme :: next :: later) (gap ++ (lexeme.toList ++ (gap' ++ text)))

theorem after_append (place : Place) (text later : List Char) :
    place.after (text ++ later) = (place.after text).after later :=
  List.foldl_append

theorem isBlank_iff {c : Char} : isBlank c = true ↔ c ∈ [' ','\t','\r','\n'] := by
  simp [isBlank,or_assoc]

theorem items_gap {gap : List Char} (skipped : Gap gap) (place : Place) (behind : List Char) :
    items place (gap ++ behind) = items (place.after gap) behind := by
  induction skipped generalizing place with
  | none => rfl
  | blank blank _ ih =>
    rw [List.cons_append,items_blank place (isBlank_iff.mpr blank),ih]
    rfl
  | @comment note gap line _ ih =>
    have all : ∀ c ∈ note, decide (c ≠ '\n') = true := by
      intro c mem
      refine decide_eq_true fun same => line ?_
      rwa [← same]
    have found : cut '#' (note ++ '\n' :: (gap ++ behind)) = ⟨.skipped,note,'\n' :: (gap ++ behind)⟩ := by
      have front : (note ++ '\n' :: (gap ++ behind)).takeWhile (· ≠ '\n') = note := by
        rw [List.takeWhile_append_of_pos all,List.takeWhile_cons_of_neg (by decide),List.append_nil]
      have back : (note ++ '\n' :: (gap ++ behind)).dropWhile (· ≠ '\n') = '\n' :: (gap ++ behind) := by
        rw [List.dropWhile_append_of_pos all,List.dropWhile_cons_of_neg (by decide)]
      unfold cut
      rw [if_neg (by decide),if_pos rfl,front,back]
    rw [List.cons_append,List.append_assoc,List.cons_append,items_cons,found]
    show items (place.after ('#' :: note)) ('\n' :: (gap ++ behind)) = _
    rw [items_blank _ (c := '\n') rfl,ih]
    show _ = items (place.after ('#' :: (note ++ '\n' :: gap))) behind
    rw [← List.cons_append,after_append]
    rfl

def Parted (behind : List Char) : Prop := ∀ c ∈ behind.head?, isBlank c ∨ c = '#'

theorem Gap.parted {gap : List Char} (skipped : Gap gap) : Parted gap := by
  intro c first
  cases skipped with
  | none => cases first
  | blank blank _ =>
    cases first
    exact .inl (isBlank_iff.mpr blank)
  | comment _ _ =>
    cases first
    exact .inr rfl

theorem Parted.before {gap : List Char} (parted : Parted gap) (some : gap ≠ []) (behind : List Char) :
    Parted (gap ++ behind) := by
  obtain ⟨c,gap,rfl⟩ := List.exists_cons_of_ne_nil some
  exact parted

section
variable {p : Char → Bool} {behind : List Char}

theorem Parted.stops (parted : Parted behind) (blank : ∀ c, isBlank c → p c = false) (hash : p '#' = false) :
    behind.takeWhile p = [] ∧ behind.dropWhile p = behind := by
  cases behind with
  | nil => exact ⟨rfl,rfl⟩
  | cons c behind =>
    have other : p c = false := by
      rcases parted c rfl with isBlank | rfl
      · exact blank c isBlank
      · exact hash
    simp [other]

theorem Parted.run (parted : Parted behind) (blank : ∀ c, isBlank c → p c = false) (hash : p '#' = false)
    {text : List Char} (all : ∀ c ∈ text, p c) :
    (text ++ behind).takeWhile p = text ∧ (text ++ behind).dropWhile p = behind := by
  obtain ⟨front,back⟩ := parted.stops blank hash
  rw [List.takeWhile_append_of_pos all,List.dropWhile_append_of_pos all,front,back]
  exact ⟨List.append_nil text,rfl⟩

theorem isDigit_blank (c : Char) (blank : isBlank c) : isDigit c = false := by
  rw [isBlank_iff] at blank
  simp only [List.mem_cons,List.not_mem_nil,or_false] at blank
  rcases blank with rfl | rfl | rfl | rfl <;> rfl

theorem isWordChar_blank (c : Char) (blank : isBlank c) : isWordChar c = false := by
  rw [isBlank_iff] at blank
  simp only [List.mem_cons,List.not_mem_nil,or_false] at blank
  rcases blank with rfl | rfl | rfl | rfl <;> rfl

theorem takeFraction_parted (parted : Parted behind) : takeFraction behind = ([],behind) := by
  rcases takeFraction_cases behind with ⟨out,_⟩ | ⟨d,rest,rfl,_,_⟩
  · exact out
  · rcases parted '.' rfl with blank | hash
    · cases blank
    · cases hash

theorem takeFraction_again (parted : Parted behind) {digits : List Char} (some : digits ≠ [])
    (all : ∀ c ∈ digits, isDigit c) : takeFraction ('.' :: (digits ++ behind)) = ('.' :: digits,behind) := by
  obtain ⟨d,digits,rfl⟩ := List.exists_cons_of_ne_nil some
  obtain ⟨front,back⟩ := parted.run isDigit_blank rfl fun c mem => all c (.tail _ mem)
  rw [List.cons_append,takeFraction,if_pos (all d (.head _)),front,back]

theorem cutNumber_again (c : Char) (cs : List Char) (parted : Parted behind) :
    cutNumber c ((cutNumber c cs).tail ++ behind) = { cutNumber c cs with rest := behind } := by
  have digits := all_takeWhile (p := isDigit) cs
  rcases takeFraction_cases (cs.dropWhile isDigit) with ⟨out,_⟩ | ⟨d,rest,_,follows,out⟩
  · obtain ⟨front,back⟩ := parted.run isDigit_blank rfl digits
    simp only [cutNumber,out,List.append_nil,front,back,takeFraction_parted parted]
  · have some : (d :: rest).takeWhile isDigit ≠ [] := by simp [List.takeWhile_cons_of_pos follows]
    have fraction := takeFraction_again parted some (all_takeWhile _)
    have tail : (cutNumber c cs).tail ++ behind =
        cs.takeWhile isDigit ++ '.' :: ((d :: rest).takeWhile isDigit ++ behind) := by
      simp only [cutNumber,out,List.append_assoc,List.cons_append]
    have front : ((cutNumber c cs).tail ++ behind).takeWhile isDigit = cs.takeWhile isDigit := by
      rw [tail,List.takeWhile_append_of_pos digits,List.takeWhile_cons_of_neg (by decide),List.append_nil]
    have back : ((cutNumber c cs).tail ++ behind).dropWhile isDigit =
        '.' :: ((d :: rest).takeWhile isDigit ++ behind) := by
      rw [tail,List.dropWhile_append_of_pos digits,List.dropWhile_cons_of_neg (by decide)]
    unfold cutNumber at front back ⊢
    simp only [out] at front back ⊢
    rw [front,back,fraction]

theorem cutWord_again (c : Char) (cs : List Char) (parted : Parted behind) :
    cutWord c ((cutWord c cs).tail ++ behind) = { cutWord c cs with rest := behind } := by
  obtain ⟨front,back⟩ := parted.run isWordChar_blank rfl (all_takeWhile (p := isWordChar) cs)
  unfold cutWord
  rw [front,back]

theorem cutString_again (cs : List Char) (closed : (cutString cs).piece ≠ .unterminated) :
    cutString ((cutString cs).tail ++ behind) = { cutString cs with rest := behind } := by
  have body := all_takeWhile (p := (· ≠ '"')) cs
  unfold cutString at closed ⊢
  cases left : cs.dropWhile (· ≠ '"') with
  | nil =>
    rw [left] at closed
    exact absurd rfl closed
  | cons quote rest =>
    have isQuote : quote = '"' := by simpa using dropWhile_stops left
    subst isQuote
    have front : (cs.takeWhile (· ≠ '"') ++ ['"'] ++ behind).takeWhile (· ≠ '"') = cs.takeWhile (· ≠ '"') := by
      rw [List.append_assoc,List.takeWhile_append_of_pos body]
      simp
    have back : (cs.takeWhile (· ≠ '"') ++ ['"'] ++ behind).dropWhile (· ≠ '"') = '"' :: behind := by
      rw [List.append_assoc,List.dropWhile_append_of_pos body]
      simp
    dsimp only
    rw [front,back]

theorem cutMark_again (alone withEq : Kind) (cs : List Char) (parted : Parted behind) :
    cutMark alone withEq ((cutMark alone withEq cs).tail ++ behind) =
      { cutMark alone withEq cs with rest := behind } := by
  by_cases equals : ∃ rest, cs = '=' :: rest
  · obtain ⟨rest,rfl⟩ := equals
    rfl
  · have short : ∀ text : List Char, (¬ ∃ rest, text = '=' :: rest) →
        cutMark alone withEq text = ⟨.token alone none,[],text⟩ := by
      intro text other
      unfold cutMark
      split
      · exact absurd ⟨_,rfl⟩ other
      · rfl
    rw [short cs equals]
    refine short behind ?_
    rintro ⟨rest,rfl⟩
    rcases parted '=' rfl with blank | hash
    · cases blank
    · cases hash

end

theorem cut_again (c : Char) (cs : List Char) {kind : Kind} {payload : Option Payload}
    (isToken : (cut c cs).piece = .token kind payload) {behind : List Char} (parted : Parted behind) :
    cut c ((cut c cs).tail ++ behind) = { cut c cs with rest := behind } := by
  unfold cut at isToken ⊢
  by_cases blank : isBlank c
  · rw [if_pos blank] at isToken
    cases isToken
  simp only [if_neg blank] at isToken ⊢
  by_cases hash : c = '#'
  · rw [if_pos hash] at isToken
    cases isToken
  simp only [if_neg hash] at isToken ⊢
  by_cases digit : isDigit c
  · simp only [if_pos digit]
    exact cutNumber_again c cs parted
  simp only [if_neg digit] at isToken ⊢
  by_cases letter : isLetter c
  · simp only [if_pos letter]
    exact cutWord_again c cs parted
  simp only [if_neg letter] at isToken ⊢
  by_cases quote : c = '"'
  · simp only [if_pos quote] at isToken ⊢
    refine cutString_again cs fun opened => ?_
    rw [opened] at isToken
    cases isToken
  simp only [if_neg quote]
  repeat' split
  all_goals first | exact cutMark_again _ _ cs parted | rfl

def IsCut (token : Token) : Prop :=
  ∃ c cs, (cut c cs).piece = .token token.kind token.payload ∧ token.lexeme.toList = c :: (cut c cs).tail

theorem items_isCut (place : Place) (cs : List Char) (token : Token) (found : .token token ∈ (items place cs).1) :
    token.IsCut := by
  match cs with
  | [] =>
    rw [items] at found
    cases found
  | c :: cs =>
    have shorter := cut_rest_length c cs
    rw [items_cons] at found
    rcases List.mem_append.mp found with here | later
    · unfold Item.ofPiece? at here
      split at here
      case h_2 kind payload piece =>
        simp only [Option.toList_some,List.mem_singleton,Item.token.injEq] at here
        rw [here]
        exact ⟨c,cs,piece,String.toList_ofList⟩
      all_goals simp at here
    · exact items_isCut _ (cut c cs).rest token later
termination_by cs.length

/-- A token that was cut off is the first item of its text with a gap or the end behind it. -/
theorem items_lexeme {token : Token} (isCut : token.IsCut) (place : Place) {behind : List Char}
    (parted : Parted behind) :
    ∃ other : Token, other.respan Span.forget = token.respan Span.forget ∧
      (items place (token.lexeme.toList ++ behind)).1 =
        .token other :: (items (place.after token.lexeme.toList) behind).1 := by
  obtain ⟨c,cs,isToken,text⟩ := isCut
  have again := cut_again c cs isToken parted
  let span : Span := ⟨place.offset,(place.after token.lexeme.toList).offset,place.line⟩
  refine ⟨{ token with span := span },rfl,?_⟩
  rw [text,List.cons_append,items_cons,again,isToken,← text]
  show Item.token ⟨token.kind,String.ofList token.lexeme.toList,token.payload,span⟩ :: _ = _
  rw [String.ofList_toList]
  rfl

theorem Gap.items {gap : List Char} (skipped : Gap gap) (place : Place) : (Token.items place gap).1 = [] := by
  have skips := items_gap skipped place []
  rw [List.append_nil] at skips
  rw [skips,Token.items]

/-- Tokens that are laid out anew are all the items there are, at other places. -/
theorem items_laidOut {tokens : List Token} (cuts : ∀ token ∈ tokens, token.IsCut) {text : List Char}
    (laidOut : LaidOut (tokens.map Token.lexeme) text) (place : Place) :
    ∃ others : List Token, (items place text).1 = others.map .token ∧
      others.map (Token.respan Span.forget) = tokens.map (Token.respan Span.forget) := by
  induction tokens generalizing text place with
  | nil =>
    cases laidOut with
    | nothing front => exact ⟨[],front.items place,rfl⟩
  | cons token tokens ih =>
    have here := cuts token (.head _)
    cases tokens with
    | nil =>
      cases laidOut with
      | @last _ gap _ front back =>
        obtain ⟨other,same,first⟩ := items_lexeme here (place.after gap) back.parted
        refine ⟨[other],?_,congrArg ([·]) same⟩
        rw [items_gap front,first,back.items]
        rfl
    | cons next tokens =>
      cases laidOut with
      | @more _ _ _ gap gap' text front between apart rest =>
        -- The gap behind the lexeme is taken off as well, so that the rest is laid out from where it begins.
        obtain ⟨other,same,first⟩ := items_lexeme here (place.after gap) (between.parted.before apart text)
        obtain ⟨others,found,alike⟩ := ih (fun other mem => cuts other (.tail _ mem)) rest
          (((place.after gap).after token.lexeme.toList).after gap')
        refine ⟨other :: others,?_,congrArg₂ List.cons same alike⟩
        rw [items_gap front,first,items_gap between,found]
        rfl

end Token

/-! ### Programs -/

namespace Program

open Token (LaidOut Item)

theorem words_isCut (source : String) : ∀ token ∈ words source, token.IsCut :=
  fun _ mem => Token.items_isCut _ _ _ (item_of_word mem)

/-- A text laid out anew has the tokens of the other, at other places, and no problems. -/
theorem words_laidOut {source text : String} (laidOut : LaidOut ((words source).map Token.lexeme) text.toList) :
    (words text).map (Token.respan Span.forget) = (words source).map (Token.respan Span.forget) ∧
      (Token.scan text).problems = [] := by
  obtain ⟨others,found,same⟩ := Token.items_laidOut (words_isCut source) laidOut {}
  have tokens : words text = others := by
    unfold words
    rw [found,List.filterMap_map]
    exact List.filterMap_some
  refine ⟨by rw [tokens,same],?_⟩
  show (Token.items {} text.toList).1.filterMap Item.problem? = []
  rw [found,List.filterMap_map]
  exact List.filterMap_eq_nil_iff.mpr fun _ _ => rfl

theorem compile_laidOut {source text : String} {program : Program} (compiles : compile source = .ok program)
    (laidOut : LaidOut ((words source).map Token.lexeme) text.toList) :
    ∃ other, compile text = .ok other ∧ other.bare = program.bare := by
  obtain ⟨parsed,_⟩ := compile_ok compiles
  obtain ⟨tokens,clean⟩ := words_laidOut laidOut
  rw [tokens_eq] at parsed
  obtain ⟨other,parsed',same⟩ := ofTokens_forget (words_marked source) (words_marked text) tokens rfl parsed
  refine ⟨other,?_,same⟩
  unfold compile
  dsimp only
  rw [tokens_eq,parsed',clean]

end Program

namespace Session

theorem compile_alike (s : Session) {source text : String}
    (compiled : Program.Compiled (Program.compile source) (Program.compile text)) :
    (s.compile source).2.Alike (s.compile text).2 := by
  unfold Session.compile
  generalize Program.compile source = result at compiled
  generalize Program.compile text = result' at compiled
  cases compiled with
  | ok same => exact ⟨rfl,.refl _,.ready same,rfl⟩
  | error problems => exact ⟨rfl,.refl _,.idle,rfl⟩

/-- Layout has no meaning. A text that is a program, laid out anew with any gaps between its lexemes, is the same
program but for the spans; and whatever a host does to a session after compiling either, the session is in the same
state, and when no run waits the lines printed, the outcome, the variables and what they lead to, and the turtle are
the same, spans aside. -/
theorem layout_meaningless (source text : String) (program : Program) (compiles : Program.compile source = .ok program)
    (laidOut : Token.LaidOut ((Program.words source).map Token.lexeme) text.toList) :
    ∃ other, Program.compile text = .ok other ∧ other.bare = program.bare ∧
      ∀ (s : Session) (calls : List HostCall),
        let t := calls.foldl Session.apply (s.compile source).2
        let u := calls.foldl Session.apply (s.compile text).2
        u.state = t.state ∧ (t.state ≠ .suspended → u.view = t.view) := by
  obtain ⟨other,compiles',same⟩ := Program.compile_laidOut compiles laidOut
  refine ⟨other,compiles',same,fun s calls => ?_⟩
  have compiled : Program.Compiled (Program.compile source) (Program.compile text) := by
    rw [compiles,compiles']
    exact .ok same
  have alike := (s.compile_alike compiled).foldl calls
  exact ⟨alike.state,alike.view ((s.compile_homed source).foldl calls) ((s.compile_homed text).foldl calls)⟩

/-- A call over several lines, with comments in it and a string that looks like one. -/
theorem layout_meaningless_comments :
    let s := [HostCall.run].foldl apply ((ofConfig {}).compile "print(\"a #b\");").2
    let t := [HostCall.run].foldl apply ((ofConfig {}).compile "# greet\nprint\t(\r\n\"a #b\" #(\n) ;").2
    s.state = .finished ∧ s.world.printed = #["a #b"] ∧ t.view = s.view := by
  intro s t
  obtain ⟨program,compiles⟩ := Program.compiled_of_isOk "print(\"a #b\");" (by decide +kernel)
  have lexemes : (Program.words "print(\"a #b\");").map Token.lexeme = ["print","(","\"a #b\"",")",";"] := by
    decide +kernel
  have greeting : Token.Gap ('#' :: (" greet".toList ++ ['\n'])) := .comment (by decide) .none
  have aside : Token.Gap ('#' :: (['('] ++ ['\n'])) := .comment (by decide) .none
  have close : Token.LaidOut [")",";"] (")".toList ++ (" ".toList ++ (";".toList ++ []))) :=
    .more .none (.blank (by decide) .none) (by decide) (.last .none .none)
  have quote : Token.LaidOut ["\"a #b\"",")",";"] ("\"a #b\"".toList ++ (" #(\n".toList ++ _)) :=
    .more .none (.blank (by decide) aside) (by decide) close
  have open' : Token.LaidOut ["(","\"a #b\"",")",";"] ("(".toList ++ ("\r\n".toList ++ _)) :=
    .more .none (.blank (by decide) (.blank (by decide) .none)) (by decide) quote
  have laidOut : Token.LaidOut ["print","(","\"a #b\"",")",";"]
      ("# greet\n".toList ++ ("print".toList ++ ("\t".toList ++ _))) :=
    .more greeting (.blank (by decide) .none) (by decide) open'
  rw [← lexemes] at laidOut
  obtain ⟨_,_,_,sessions⟩ := layout_meaningless _ "# greet\nprint\t(\r\n\"a #b\" #(\n) ;" program compiles laidOut
  have finished : s.state = .finished ∧ s.world.printed = #["a #b"] := by decide +kernel
  refine ⟨finished.1,finished.2,(sessions (ofConfig {}) [.run]).2 ?_⟩
  rw [finished.1]
  decide

end Session

end TurtleScript
