import TurtleScript.Proofs.Charging
import TurtleScript.Proofs.EndMarks
import TurtleScript.Proofs.Rounds

/-!
The parser on arbitrary lists of tokens. A parse stands at an index of its list, whatever the list is (`At`). Together
with how its loops end, what problems cost and what the end mark has a say in, that is what is promised of the parse of
any list (`Robust`).
-/

namespace TurtleScript.Program

open TurtleScript.Program.Parser

/-- The tokens as they are parsed, with an end mark behind them if they do not end with one. -/
def padded (tokens : List Token) : List Token :=
  if tokens.getLast?.any (·.kind = .endOfFile) then tokens else tokens ++ [State.finalOf tokens]

/-- The state stands at an index of the list: the tokens left are the ones from there on up to the end mark, and the
one consumed last is the one in front. -/
structure At (list : List Token) (current : Nat) (s : State) : Prop where
  ahead : ∃ beyond, list.drop current = s.rest ++ s.final :: beyond
  behind : 0 < current → list[current - 1]? = some s.last

variable {list : List Token} {current : Nat} {s t : State}

theorem At.next (stands : At list current s) : list[current]? = some s.next := by
  obtain ⟨beyond,tokens⟩ := stands.ahead
  have first : (list.drop current)[0]? = some s.next := by
    rw [tokens]
    unfold State.next
    cases s.rest <;> rfl
  rwa [List.getElem?_drop,Nat.add_zero] at first

theorem At.inside (stands : At list current s) : current < list.length :=
  (List.getElem?_eq_some_iff.mp stands.next).1

/-- Going forward the state stands as many indexes on as there are tokens consumed. -/
theorem At.went {used : List Token} {found : List Diagnostic} (stands : At list current s) (went : Went s t used found) :
    At list (current + used.length) t := by
  obtain ⟨beyond,tokens⟩ := stands.ahead
  rw [went.rest,List.append_assoc] at tokens
  refine ⟨⟨beyond,?_⟩,fun _ => ?_⟩
  · rw [← List.drop_drop,tokens,List.drop_left,went.final]
  · rw [went.last]
    rcases List.eq_nil_or_concat used with rfl | ⟨before,token,rfl⟩
    · exact stands.behind ‹_›
    · have there : (list.drop current)[before.length]? = some token := by
        rw [tokens,List.concat_eq_append,List.append_assoc,List.getElem?_append_right (Nat.le_refl _)]
        simp
      rw [List.getElem?_drop] at there
      simpa using there

theorem cut_cases (tokens : List Token) :
    (tokens.find? (·.kind = .endOfFile) = none ∧ front tokens = tokens) ∨
      ∃ final beyond, tokens.find? (·.kind = .endOfFile) = some final ∧ tokens = front tokens ++ final :: beyond := by
  induction tokens with
  | nil => exact .inl ⟨rfl,rfl⟩
  | cons token tokens ih =>
    unfold front at ih ⊢
    by_cases marked : token.kind = .endOfFile
    · refine .inr ⟨token,tokens,?_,?_⟩
      · simp [marked]
      · simp [marked]
    · rw [List.find?_cons_of_neg (by simpa using marked),List.takeWhile_cons_of_pos (by simpa using marked)]
      rcases ih with ⟨unfound,whole⟩ | ⟨final,beyond,found,cut⟩
      · exact .inl ⟨unfound,congrArg (token :: ·) whole⟩
      · exact .inr ⟨final,beyond,found,congrArg (token :: ·) cut⟩

/-- The list of a parse has its end mark, and nothing but what is parsed is in front of it. -/
theorem at_start (tokens : List Token) : At (padded tokens) 0 (State.ofTokens tokens) := by
  refine ⟨?_,fun never => absurd never (Nat.lt_irrefl 0)⟩
  rw [List.drop_zero]
  show ∃ beyond, padded tokens =
    front tokens ++ (tokens.find? (·.kind = .endOfFile)).getD (State.finalOf tokens) :: beyond
  unfold padded
  rcases cut_cases tokens with ⟨unfound,whole⟩ | ⟨final,beyond,found,cut⟩
  · have unmarked : ¬ tokens.getLast?.any (·.kind = .endOfFile) = true := by
      cases last : tokens.getLast? with
      | none => simp
      | some token => simpa using List.find?_eq_none.mp unfound token (List.mem_of_getLast? last)
    rw [if_neg unmarked,unfound,whole]
    exact ⟨[],rfl⟩
  · rw [found]
    split
    · exact ⟨beyond,cut⟩
    · refine ⟨beyond ++ [State.finalOf tokens],?_⟩
      nth_rewrite 1 [cut]
      rw [List.append_assoc]
      rfl

/-- From an index of the list the parser comes to an index of the list. -/
def Keeps (list : List Token) (n : Nat) {α : Type} (p : Parser α) : Prop :=
  ∀ s current, Ready n s → At list current s → ∃ used, At list (current + used) (p s).2

theorem Charged.keeps {α : Type} {n : Nat} {a b : Bool} {p : Parser α} (charged : Charged n a b p) (list : List Token) :
    Keeps list n p := by
  intro s current ready stands
  obtain ⟨used,found,went,_⟩ := charged s ready
  exact ⟨used.length,stands.went went⟩

/-- What holds of the parse of any list of tokens. -/
structure Robust (tokens : List Token) : Prop where
  /-- The parse starts at an index of the list. -/
  starts : At (padded tokens) 0 (State.ofTokens tokens) ∧ Ready maxNesting (State.ofTokens tokens)
  /-- At an index of the list the next token is the one with that index. -/
  looks : ∀ current s, At (padded tokens) current s →
    current < (padded tokens).length ∧ (padded tokens)[current]? = some s.next
  /-- A step or the search for the next statement leads to an index of the list. -/
  steps : ∀ current s, At (padded tokens) current s →
    (∃ used, At (padded tokens) (current + used) s.advance) ∧ ∃ used, At (padded tokens) (current + used) s.recover
  /-- So does every rule, whatever it parses and however it ends. -/
  rules : ∀ n, Keeps (padded tokens) n (nested (Nested.level n).assignment) ∧
    Keeps (padded tokens) n (nested (Nested.level n).unary) ∧
    Keeps (padded tokens) n (nested (Nested.level n).declaration) ∧
    Keeps (padded tokens) n (nested (Nested.level n).statement)
  /-- The loop over the declarations ends, after at most as many rounds as there are tokens. -/
  ends : ∃ rounds ≤ (front tokens).length, Looped State.atEnd declaration rounds (State.ofTokens tokens)
    (many State.atEnd declaration (State.ofTokens tokens))
  /-- So does the loop over the statements of a block, wherever it starts. -/
  blocks : ∀ n s, ∃ rounds ≤ s.rest.length, Looped blockEnd (nested (Nested.level n).declaration) rounds s
    (many blockEnd (nested (Nested.level n).declaration) s)
  /-- The loops over operators and over lists with commas need no more rounds than there are tokens either. -/
  rounds : ∀ n s bound, s.final.kind = .endOfFile → s.rest.length ≤ bound.length → (Nested.level n).Enough bound s
  /-- Each round of a loop over statements that does not leave it consumes a token. -/
  consumes : (∀ s t, Round State.atEnd declaration s t → t.rest.length < s.rest.length) ∧
    ∀ n s t, Round blockEnd (nested (Nested.level n).declaration) s t → t.rest.length < s.rest.length
  /-- There are at most as many problems as tokens in front of the first end mark. -/
  few : ∀ problems, ofTokens tokens = .error problems → problems.length ≤ (front tokens).length
  /-- That things nest too deeply is the last problem, and the only one of its kind. -/
  once : ∀ before d after, ofTokens tokens = .error (before ++ d :: after) → d.OfNesting →
    after = [] ∧ ∀ other ∈ before, ¬ other.OfNesting
  /-- The result depends on the tokens in front of the first end mark only, but for where the problems at the end are
  reported; and that is at the end mark. -/
  alike : ∀ tokens', front tokens' = front tokens →
    TwinResults (endMark tokens).span (endMark tokens').span (ofTokens tokens) (ofTokens tokens') ∧
      ((endMark tokens').span = (endMark tokens).span → ofTokens tokens' = ofTokens tokens)

theorem conclude_error {out : Option (List Stmt) × State} {problems : List Diagnostic}
    (faulty : conclude out = .error problems) : out.2.problems = problems := by
  unfold conclude at faulty
  split at faulty
  case h_1 => cases faulty
  case h_2 =>
    cases faulty
    rfl

theorem Capped.once {made deep : Bool} {before after : List Diagnostic} {d : Diagnostic}
    (capped : Capped made deep (before ++ d :: after)) (nests : d.OfNesting) :
    after = [] ∧ ∀ other ∈ before, ¬ other.OfNesting := by
  rcases capped with ⟨_,clear⟩ | ⟨_,_,few,last,found,_,clear⟩
  · exact absurd nests (clear d (by simp))
  · rcases List.eq_nil_or_concat after with rfl | ⟨later,other,rfl⟩
    · obtain ⟨rfl,_⟩ := List.append_inj' found rfl
      exact ⟨rfl,clear⟩
    · have split : (before ++ d :: later) ++ [other] = few ++ [last] := by simpa using found
      obtain ⟨rfl,_⟩ := List.append_inj' split rfl
      exact absurd nests (clear d (by simp))

/-- The parser is robust: that much holds of every list of tokens, of any kinds in any order, wherever end marks are
in it and whatever its tokens carry. -/
theorem ofTokens_robust (tokens : List Token) : Robust tokens := by
  have ready : Ready maxNesting (State.ofTokens tokens) := ⟨final_isEnd tokens,rfl,Nat.le_refl _⟩
  have charged := Nested.level_lawful charging
  have charge : Charged maxNesting false true declaration := (charged maxNesting).declaration
  obtain ⟨used,found,went,billed⟩ := many_billed atEnd_of_nil charge ready
  have all {problems : List Diagnostic} (faulty : ofTokens tokens = .error problems) : problems = found := by
    have ended : conclude (many State.atEnd declaration (State.ofTokens tokens)) = .error problems := faulty
    exact (conclude_error ended).symm.trans went.problems
  refine ⟨⟨at_start tokens,ready⟩,fun current s stands => ⟨stands.inside,stands.next⟩,fun current s stands => ?_,
    fun n => ?_,looped_many declaration_consumes atEnd_of_nil (State.ofTokens tokens),
    fun n => looped_many (nested_declaration_consumes n) blockEnd_of_nil,
    fun n _ _ marked enough => Nested.level_enough n marked enough,?_,fun problems faulty => ?_,
    fun before d after faulty nests => ?_,fun tokens' same => ?_⟩
  · obtain ⟨used,went,_⟩ := went_advance s
    obtain ⟨skipped,gone,_⟩ := went_recover s
    exact ⟨⟨_,stands.went went⟩,_,stands.went gone⟩
  · exact ⟨(charged n).assignment.keeps _,(charged n).unary.keeps _,(charged n).declaration.keeps _,
      (charged n).statement.keeps _⟩
  · exact ⟨fun s t => Round.consumes declaration_consumes atEnd_of_nil,
      fun n s t => Round.consumes (nested_declaration_consumes n) blockEnd_of_nil⟩
  · rw [all faulty]
    exact billed.few
  · have capped := billed.capped
    rw [← all faulty] at capped
    exact capped.once nests
  · have twins := ofTokens_twins same
    refine ⟨twins,fun place => ?_⟩
    rw [place] at twins
    exact twins.eq.symm

end TurtleScript.Program
