import TurtleScript.Program.Compile
import TurtleScript.Proofs.ParserSoundness
import TurtleScript.Proofs.Restarting

/-!
Programs line by line. If a text is a program, then in front of a line that does not begin with `else` it has no say in
what comes behind: the two texts together are the one program and then the other, moved, or have the problems of the
other, moved (`compile_lines`). The same holds of the tokens (`ofTokens_lines`).
-/

namespace TurtleScript.Program

open Movable (move)
open TurtleScript.Program.Parser

variable {s t : State} {statements : List Stmt}

theorem problem_of_faulty (ended : s.final.kind = .endOfFile) (out : declaration s = (none,t)) : t.problems ≠ [] := by
  have reads := reads_nested (Nested.level_reading maxNesting).declaration s ended
  obtain ⟨_,faulty | ⟨_,_,made,_⟩⟩ := reads
  · have same : (declaration s).2.problems ≠ [] := faulty
    rwa [out] at same
  · have never : (declaration s).1 = some _ := made
    rw [out] at never
    cases never

theorem clean_before (ended : s.final.kind = .endOfFile)
    (out : many State.atEnd declaration s = (some statements,t)) (clean : t.problems = []) : s.problems = [] := by
  have stops : ∀ s : State, s.atEnd = true → True := fun _ _ => trivial
  have reads := reads_manyWithin (fun _ => True) (reads_nested (Nested.level_reading maxNesting).declaration)
    (fun _ _ => Nested.sentence_ne_nil) stops trivial s.rest s ended
  obtain ⟨_,faulty | ⟨_,_,_,before,_⟩⟩ := reads
  · have same : (many State.atEnd declaration s).2.problems ≠ [] := faulty
    rw [out] at same
    exact absurd clean same
  · exact before

/-- A parse of some declarations has come to the end of its text as it began, and in the setting it makes them, moved,
in front of those that it makes of what comes behind. -/
structure Leads (c : Setting) (s : State) (statements : List Stmt) (t : State) : Prop where
  rest : t.rest = []
  depth : t.depth = s.depth
  tooDeep : t.tooDeep = s.tooDeep
  same : many State.atEnd declaration (s.within c) =
    ((many State.atEnd declaration (t.within c)).1.map (statements.map (Stmt.moved c.shift) ++ ·),
      (many State.atEnd declaration (t.within c)).2)

theorem leads_nothing (c : Setting) (empty : s.rest = []) : Leads c s [] s := ⟨empty,rfl,rfl,by simp⟩

theorem Leads.cons {c : Setting} {u : State} {a : Stmt} (leads : Leads c u statements t) (left : s.rest ≠ [])
    (passed : Passed s true u) (depth : u.depth = s.depth)
    (first : declaration (s.within c) = (some (a.moved c.shift),u.within c)) : Leads c s (a :: statements) t := by
  refine ⟨leads.rest,leads.depth.trans depth,leads.tooDeep.trans passed.tooDeep,?_⟩
  have goesOn : (s.within c).atEnd = false := by
    rw [atEnd_within (.inl left)]
    simpa [State.atEnd] using left
  rw [many_item declaration_consumes atEnd_of_nil goesOn first,leads.same,Option.map_map]
  rfl

theorem declaration_depth {a : Stmt} (out : declaration s = (some a,t)) : t.depth = s.depth := by
  have kept := nested_depth (Nested.level maxNesting).declaration s
  have same : nested (Nested.level maxNesting).declaration s = (some a,t) := out
  rwa [same] at kept

/-- Declarations that end with their text, without a problem, are the same in front of tokens that go on no
statement. -/
theorem many_leads {c : Setting} (free : c.Free) (n : Nat) :
    ∀ s statements, s.rest.length ≤ n → s.final.kind = .endOfFile →
      many State.atEnd declaration s = (some statements,t) → t.problems = [] → Leads c s statements t := by
  have stops : ∀ s statements, s.rest = [] → many State.atEnd declaration s = (some statements,t) →
      Leads c s statements t := by
    intro s statements empty out
    rw [many_stop (atEnd_of_nil s empty)] at out
    cases out
    exact leads_nothing c empty
  induction n with
  | zero =>
    intro s statements few _ out _
    exact stops s statements (List.length_eq_zero_iff.mp (Nat.le_zero.mp few)) out
  | succ n ih =>
    intro s statements few ended out clean
    by_cases empty : s.rest = []
    · exact stops s statements empty out
    have goesOn : s.atEnd = false := by simp [State.atEnd,empty]
    have moves := declaration_moves c s
    rcases first : declaration s with ⟨_ | a,u⟩
    · -- A faulty declaration would leave a problem behind.
      rw [many_fault declaration_consumes atEnd_of_nil goesOn first] at out
      split at out
      · cases out
      · have ended' : u.recover.final.kind = .endOfFile := by
          rw [first] at moves
          rw [(recover_kept u).1,moves.passed.final]
          exact ended
        have before := clean_before ended' out clean
        rw [(recover_kept u).2] at before
        exact absurd before (problem_of_faulty ended first)
    · have less := moves.eaten first trivial
      rw [first] at moves
      have ended' : u.final.kind = .endOfFile := by
        rw [moves.passed.final]
        exact ended
      rw [many_item declaration_consumes atEnd_of_nil goesOn first] at out
      obtain ⟨later,rest⟩ := Prod.mk.inj out
      obtain ⟨others,made,rfl⟩ := Option.map_eq_some_iff.mp later
      have leads := ih u others (by omega) ended' (Prod.ext made rest) clean
      exact leads.cons empty moves.passed (declaration_depth first) (moves.same (.inr ⟨free,rfl⟩))

/-- A list of tokens with a mark of its end, and no other. -/
structure Marked (tokens : List Token) (final : Token) : Prop where
  plain : ∀ token ∈ tokens, token.kind ≠ .endOfFile
  ends : final.kind = .endOfFile

theorem Marked.moved {tokens : List Token} {final : Token} (marked : Marked tokens final) (d : Shift) :
    Marked (tokens.map (Token.moved d)) (final.moved d) := by
  refine ⟨fun moved mem => ?_,marked.ends⟩
  obtain ⟨token,original,rfl⟩ := List.mem_map.mp mem
  exact marked.plain token original

theorem Marked.behind {tokens others : List Token} {final last : Token} (marked : Marked tokens final)
    (marked' : Marked others last) : Marked (tokens ++ others) last := by
  refine ⟨fun token mem => ?_,marked'.ends⟩
  rcases List.mem_append.mp mem with mem | mem
  · exact marked.plain token mem
  · exact marked'.plain token mem

/-- The start of a parse of tokens with a mark of their end. -/
def startOf (tokens : List Token) (final : Token) : State := { rest := tokens, final := final, last := final }

theorem Marked.ofTokens {tokens : List Token} {final : Token} (marked : Marked tokens final) :
    State.ofTokens (tokens ++ [final]) = startOf tokens final := by
  have front : (tokens ++ [final]).takeWhile (·.kind ≠ .endOfFile) = tokens := by
    rw [List.takeWhile_append_of_pos fun token mem => by simpa using marked.plain token mem]
    simp [marked.ends]
  have found : (tokens ++ [final]).find? (·.kind = .endOfFile) = some final := by
    rw [List.find?_append,List.find?_eq_none.mpr fun token mem => by simpa using marked.plain token mem]
    simp [marked.ends]
  unfold State.ofTokens startOf
  rw [front,found]
  rfl

def conclude (out : Option (List Stmt) × State) : Except (List Diagnostic) Program :=
  match out.1,out.2.problems with
  | some statements,[] => .ok ⟨statements⟩
  | _,problems => .error problems

theorem Marked.ofTokens_eq {tokens : List Token} {final : Token} (marked : Marked tokens final) :
    Program.ofTokens (tokens ++ [final]) = conclude (many State.atEnd declaration (startOf tokens final)) := by
  unfold Program.ofTokens
  rw [marked.ofTokens]
  rfl

theorem Agree.conclude {out out' : Option (List Stmt) × State} (agree : Agree out out') :
    Program.conclude out = Program.conclude out' := by
  unfold Program.conclude
  rw [agree.1,agree.2]

/-- One program and then another one, or the problems of the other one. -/
def behind (program : Program) (d : Shift) : Except (List Diagnostic) Program → Except (List Diagnostic) Program
  | .ok other => .ok ⟨program.statements ++ (other.moved d).statements⟩
  | .error problems => .error (problems.map (Diagnostic.moved d))

theorem conclude_ok {out : Option (List Stmt) × State} {program : Program} (parsed : conclude out = .ok program) :
    out.1 = some program.statements ∧ out.2.problems = [] := by
  unfold conclude at parsed
  split at parsed
  case h_1 statements made clean =>
    cases parsed
    exact ⟨made,clean⟩
  case h_2 => cases parsed

theorem conclude_behind (program : Program) (d : Shift) (out : Option (List Stmt) × State)
    {out' : Option (List Stmt) × State} (moved : out'.1 = out.1.map (List.map (Stmt.moved d)))
    (problems : out'.2.problems = out.2.problems.map (Diagnostic.moved d)) :
    conclude (out'.1.map (program.statements ++ ·),out'.2) = behind program d (conclude out) := by
  unfold conclude
  rw [moved,problems]
  rcases out with ⟨_ | statements,t⟩
  · cases t.problems <;> rfl
  · cases t.problems <;> rfl

theorem begins_moved {kind : Token.Kind} {tokens : List Token} (d : Shift)
    (begins : Begins kind (tokens.map (Token.moved d))) : Begins kind tokens := by
  cases tokens with
  | nil => exact absurd begins (begins_nil kind)
  | cons token later =>
    rw [List.map_cons] at begins
    have isKind := begins_cons begins
    exact ⟨token,later,rfl,isKind⟩

/-- A text that stays where it is, in front of others, leads to what is made of the others. -/
theorem conclude_front {front back : List Token} {final last : Token}
    (leads : Leads ⟨.none,back,last⟩ (startOf front final) statements t) :
    conclude (many State.atEnd declaration (startOf (front ++ back) last)) =
      let out := many State.atEnd declaration (t.within ⟨.none,back,last⟩)
      conclude (out.1.map (statements ++ ·),out.2) := by
  have fresh := many_fresh (startOf (front ++ back) last) (final.moved .none)
  have start : (startOf front final).within ⟨.none,back,last⟩ =
      { startOf (front ++ back) last with last := final.moved .none } := by
    have tokens : front.map (Token.moved .none) = front := List.map_id front
    simp [startOf,State.within,tokens]
  have stay : statements.map (Stmt.moved .none) = statements := by
    rw [List.map_congr_left fun s _ => s.moved_none]
    exact List.map_id' statements
  rw [← start,leads.same,stay] at fresh
  exact fresh.conclude

/-- A text that is moved, with nothing behind it, has the same declarations and problems, moved. -/
theorem many_back (back : List Token) (last : Token) (d : Shift) :
    many State.atEnd declaration ((startOf back last).within ⟨d,[],last.moved d⟩) =
      let out := many State.atEnd declaration (startOf back last)
      (out.1.map (List.map (Stmt.moved d)),out.2.within ⟨d,[],last.moved d⟩) := by
  let setting : Setting := ⟨d,[],last.moved d⟩
  have stops : ∀ s : State, setting.Hidden s → (s.within setting).atEnd = s.atEnd := fun _ => atEnd_within
  have moves := (declaration_moves setting).inside.many stops (startOf back last)
  exact moves.same (.inl (.inr ⟨rfl,congrArg (Token.moved d) moves.passed.final.symm⟩))

/-- Tokens that are a program, in front of others that do not begin with `else`, are the same program in front of
what the others are. -/
theorem ofTokens_lines {front back : List Token} {final last : Token} {program : Program} (d : Shift)
    (marked : Marked front final) (marked' : Marked back last) (parsed : ofTokens (front ++ [final]) = .ok program)
    (free : ¬ Begins .kwElse back) :
    ofTokens (front ++ back.map (Token.moved d) ++ [last.moved d]) = behind program d (ofTokens (back ++ [last])) := by
  rw [marked.ofTokens_eq] at parsed
  rw [(marked.behind (marked'.moved d)).ofTokens_eq,marked'.ofTokens_eq]
  rcases out : many State.atEnd declaration (startOf front final) with ⟨result,t⟩
  rw [out] at parsed
  obtain ⟨made,clean⟩ := conclude_ok parsed
  dsimp only at made clean
  subst made
  have leads : Leads ⟨.none,back.map (Token.moved d),last.moved d⟩ (startOf front final) program.statements t :=
    many_leads (fun begins => free (begins_moved d begins)) front.length _ _ (Nat.le_refl _) marked.ends out clean
  rw [conclude_front leads]
  -- Behind the one text the parse stands as at the start of the other, but for what was consumed last.
  have fresh := many_fresh ((startOf back last).within ⟨d,[],last.moved d⟩) (t.last.moved .none)
  have middle : t.within ⟨.none,back.map (Token.moved d),last.moved d⟩ =
      { (startOf back last).within ⟨d,[],last.moved d⟩ with last := t.last.moved .none } := by
    simp [startOf,State.within,leads.rest,leads.depth,leads.tooDeep,clean]
  rw [← middle,many_back] at fresh
  exact conclude_behind program d (many State.atEnd declaration (startOf back last)) fresh.1.symm fresh.2.symm

/-! ### Texts -/

/-- How much further on a line is that comes behind a text. -/
def shiftBehind (text : String) : Shift := ⟨text.utf8ByteSize + 1,1 + text.toList.count '\n'⟩

/-- The tokens of a text without the mark of its end. -/
def words (source : String) : List Token := (Token.items {} source.toList).1.filterMap Token.Item.token?

def mark (source : String) : Token :=
  let last := (Token.items {} source.toList).2
  Token.endAt (.point last.offset last.line)

theorem tokens_eq (source : String) : (Token.scan source).tokens = words source ++ [mark source] := rfl

theorem item_of_word {source : String} {token : Token} (mem : token ∈ words source) :
    .token token ∈ (Token.items {} source.toList).1 := by
  obtain ⟨item,found,isToken⟩ := List.mem_filterMap.mp mem
  cases item with
  | token t =>
    cases isToken
    exact found
  | problem => cases isToken

theorem words_marked (source : String) : Marked (words source) (mark source) := by
  have covers := (Token.items_account [] source.toList).1.covers
  exact ⟨fun token mem => covers.proper token (item_of_word mem),rfl⟩

/-- A line behind a text without problems is scanned as if it were alone, further on. -/
theorem scan_line (a b : String) (clean : (Token.scan a).problems = []) :
    words (a ++ "\n" ++ b) = words a ++ (words b).map (Token.moved (shiftBehind a)) ∧
      mark (a ++ "\n" ++ b) = (mark b).moved (shiftBehind a) ∧
      (Token.scan (a ++ "\n" ++ b)).problems = (Token.scan b).problems.map (Diagnostic.moved (shiftBehind a)) := by
  have text : (a ++ "\n" ++ b).toList = a.toList ++ '\n' :: b.toList := by simp
  have size : String.utf8Len a.toList = a.utf8ByteSize := by
    rw [← String.utf8ByteSize_ofList,String.ofList_toList]
  have items := Token.items_behind a.toList b.toList clean
  rw [size,← text] at items
  have problems : ((Token.items {} a.toList).1.filterMap Token.Item.problem?) = [] := clean
  refine ⟨?_,?_,?_⟩
  · unfold words
    rw [items,List.filterMap_append,Token.tokens_moved]
    rfl
  · unfold mark
    rw [items]
    rfl
  · show List.filterMap _ (Token.items {} (a ++ "\n" ++ b).toList).1 = _
    rw [items,List.filterMap_append,problems,Token.problems_moved]
    rfl

theorem compile_ok {source : String} {program : Program} (compiles : compile source = .ok program) :
    ofTokens (Token.scan source).tokens = .ok program ∧ (Token.scan source).problems = [] := by
  unfold compile at compiles
  dsimp only at compiles
  split at compiles
  case h_1 parsed clean =>
    cases compiles
    exact ⟨parsed,clean⟩
  case h_2 => cases compiles
  case h_3 => cases compiles

theorem compile_behind (a b : String) {program : Program} (compiles : compile a = .ok program)
    (begins : ∀ token ∈ (Token.scan b).tokens.head?, token.kind ≠ .kwElse) :
    compile (a ++ "\n" ++ b) = behind program (shiftBehind a) (compile b) := by
  obtain ⟨parsed,clean⟩ := compile_ok compiles
  obtain ⟨tokens,final,problems⟩ := scan_line a b clean
  have free : ¬ Begins .kwElse (words b) := by
    rintro ⟨token,later,same,isElse⟩
    refine begins token ?_ isElse
    rw [tokens_eq,same]
    rfl
  rw [tokens_eq] at parsed
  have lines := ofTokens_lines (shiftBehind a) (words_marked a) (words_marked b) parsed free
  rw [← tokens,← final,← tokens_eq,← tokens_eq] at lines
  unfold compile
  dsimp only
  rw [lines,problems]
  cases ofTokens (Token.scan b).tokens with
  | ok other =>
    cases (Token.scan b).problems with
    | nil => rfl
    | cons => rfl
  | error more =>
    show Except.error _ = Except.error _
    rw [← List.map_append]
    refine congrArg Except.error (List.map_mergeSort fun x _ y _ => ?_).symm
    exact (Diagnostic.startsBefore_moved _ x y).symm

/-- Compiling goes line by line. Behind a text that is a program, a line that does not begin with `else` adds what it
is by itself: its statements, or all of its problems and nothing else, further on by the bytes and lines in front
of it. -/
theorem compile_lines (a b : String) (program : Program) (compiles : compile a = .ok program)
    (begins : ∀ token ∈ (Token.scan b).tokens.head?, token.kind ≠ .kwElse) :
    (∀ other, compile b = .ok other → compile (a ++ "\n" ++ b) =
      .ok ⟨program.statements ++ (other.moved ⟨a.utf8ByteSize + 1,1 + a.toList.count '\n'⟩).statements⟩) ∧
    ∀ problems, compile b = .error problems → compile (a ++ "\n" ++ b) =
      .error (problems.map (Diagnostic.moved ⟨a.utf8ByteSize + 1,1 + a.toList.count '\n'⟩)) := by
  have lines := compile_behind a b compiles begins
  constructor
  · intro other compiled
    rw [lines,compiled]
    rfl
  · intro problems faulty
    rw [lines,faulty]
    rfl

theorem compiled_of_isOk (source : String) (accepted : (compile source).isOk = true) :
    ∃ program, compile source = .ok program := by
  cases compiled : compile source with
  | ok program => exact ⟨program,rfl⟩
  | error problems =>
    rw [compiled] at accepted
    cases accepted

/-- Behind an `if` that an `else` could still join, a line adds its statement or its problem. -/
theorem compile_lines_openIf : ∃ program other, compile "if (a) b;" = .ok program ∧ compile "c;" = .ok other ∧
    compile ("if (a) b;" ++ "\n" ++ "c;") = .ok ⟨program.statements ++ (other.moved ⟨10,1⟩).statements⟩ ∧
    compile ("if (a) b;" ++ "\n" ++ ")") = .error [.parse "Expected an expression." ")" ⟨10,11,2⟩] := by
  obtain ⟨program,first⟩ := compiled_of_isOk "if (a) b;" (by decide +kernel)
  obtain ⟨other,second⟩ := compiled_of_isOk "c;" (by decide +kernel)
  have problems : (match compile ")" with | .ok _ => [] | .error problems => problems) =
      [.parse "Expected an expression." ")" ⟨0,1,1⟩] := by decide +kernel
  have size : "if (a) b;".utf8ByteSize + 1 = 10 ∧ 1 + "if (a) b;".toList.count '\n' = 1 := by decide
  have lines := (compile_lines "if (a) b;" "c;" program first (by decide +kernel)).1 other second
  cases third : compile ")" with
  | ok => simp [third] at problems
  | error found =>
    have faulty := (compile_lines "if (a) b;" ")" program first (by decide +kernel)).2 found third
    simp only [third] at problems
    rw [size.1,size.2] at lines faulty
    rw [problems] at faulty
    exact ⟨program,other,first,second,lines,faulty⟩

end TurtleScript.Program
