import TurtleScript.Program.Grammar
import TurtleScript.Proofs.Reads

/-!
What the parser accepts is in the grammar. The rules read phrases and sentences at every nesting level
(`Nested.level_reading`), so a program without problems is derived from its tokens
(`derives_of_ofTokens`).
-/

namespace TurtleScript.Program

open TurtleScript.Program.Parser

/-- A statement that an `else` behind it could not join. -/
def Stated (used : List Token) (s : Stmt) (rest : List Token) : Prop :=
  ∃ dangling, Sentence (.statement dangling) used s ∧ (dangling = true → ¬ Begins .kwElse rest)

/-- The rules that other rules call read what they are named for. -/
structure Nested.Reading (inner : Nested) : Prop where
  assignment : Reads inner.assignment fun used e _ => Phrase .assignment used e
  unary : Reads inner.unary fun used e _ => Phrase .unary used e
  declaration : Reads inner.declaration fun used s _ => Sentence .declaration used s
  statement : Reads inner.statement Stated

namespace Nested

variable {inner : Nested}

theorem Reading.expression (reading : inner.Reading) :
    Reads inner.expression fun used e _ => Phrase .assignment used e :=
  reads_nested reading.assignment

theorem Reading.arguments (reading : inner.Reading) (close : Token.Kind) (complaint : Complaint) :
    Reads (inner.arguments close complaint) fun used es _ =>
      ∃ texts us closing, Each (Phrase .assignment) es texts ∧ Separated texts us ∧ closing.kind = close ∧
        used = us ++ [closing] := by
  refine reads_choose (R := fun used es _ => ∃ texts, Each (Phrase .assignment) es texts ∧
    Separated texts used) (reads_sees ?_ ?_) fun es => ?_
  · exact reads_pure fun rest _ => ⟨[],.nil _,.none⟩
  · exact (reads_commaSeparated reading.expression).weaken fun used es rest listed _ => listed
  · refine reads_expect fun closing closes => reads_pure fun rest u listed => ?_
    obtain ⟨texts,each,separated⟩ := listed
    exact ⟨texts,u,closing,each,separated,closes,rfl⟩

theorem leaf_reads {token : Token} {e : Expr} (leaf : leaf? token = .ok e) : Phrase .primary [token] e := by
  unfold leaf? at leaf
  split at leaf
  case h_1 kind | h_2 kind | h_3 kind =>
    cases leaf
    exact .literal (by simp [literal?,kind])
  case h_4 kind | h_5 kind =>
    split at leaf
    case h_1 value payload | h_2 value payload =>
      cases leaf
      exact .literal (by simp [literal?,kind,payload])
    case h_3 => cases leaf
  case h_6 kind =>
    cases leaf
    exact .var kind
  case h_7 => cases leaf

theorem Reading.primary (reading : inner.Reading) :
    Reads inner.primary fun used e _ => Phrase .primary used e := by
  refine reads_next fun token => ?_
  split
  case h_1 kind =>
    refine reads_advance (reading.expression.bind fun e => ?_)
    refine reads_expect fun closing closes => reads_look fun span => reads_pure fun rest u content => ?_
    refine ⟨fun opening ahead => ?_,by simp⟩
    rw [ahead_cons ahead]
    exact .group kind content closes
  case h_2 kind =>
    refine reads_advance ((reading.arguments _ _).bind fun es => ?_)
    refine reads_look fun span => reads_pure fun rest u listed => ?_
    obtain ⟨_,us,closing,⟨items,each,rfl,rfl⟩,separated,closes,rfl⟩ := listed
    refine ⟨fun opening ahead => ?_,by simp⟩
    rw [ahead_cons ahead,List.append_nil]
    exact .array kind each separated closes
  case h_3 =>
    cases leaf : leaf? token with
    | error complaint => exact reads_fail complaint
    | ok e =>
      refine reads_advance (reads_pure fun rest => ⟨fun first ahead => ?_,fun nothing ahead => ?_⟩)
      · rw [ahead_cons ahead]
        exact leaf_reads leaf
      · rw [nothing] at ahead
        simp [leaf?,ahead_nil ahead] at leaf

theorem Reading.suffixed (reading : inner.Reading) (target : Expr) :
    Reads (inner.suffixed target) fun used next _ => Carries (Phrase .call) target used next := by
  refine reads_sees ?_ (reads_sees ?_ ?_)
  · rw [if_pos rfl]
    refine reads_deepen (reads_advance ((reading.arguments _ _).bind fun es => ?_))
    refine reads_look fun span => reads_pure fun rest u listed => ?_
    obtain ⟨_,us,closing,⟨items,each,rfl,rfl⟩,separated,closes,rfl⟩ := listed
    refine ⟨fun opening begins v callee => ?_,by simp⟩
    rw [List.append_nil]
    exact .call callee (begins_cons begins) each separated closes
  · rw [if_pos rfl]
    refine reads_deepen (reads_advance (reading.expression.bind fun e => ?_))
    refine reads_expect fun closing closes => reads_look fun span => reads_pure fun rest u position => ?_
    refine ⟨fun opening begins _ v callee => ?_,by simp⟩
    exact .index callee (begins_cons begins) position closes
  · exact reads_pure fun rest _ _ => rfl

theorem Reading.call (reading : inner.Reading) : Reads inner.call fun used e _ => Phrase .call used e := by
  refine reads_levelled (reading.primary.bind fun e => ?_)
  refine (reads_extend reading.suffixed e).weaken fun used f rest holds u first => ?_
  exact holds u (.tighter _ first)

theorem unaryOp_eq (kind : Token.Kind) : unaryOp? kind = sign kind := by
  cases kind <;> rfl

theorem Reading.unaryRule (reading : inner.Reading) :
    Reads inner.unaryRule fun used e _ => Phrase .unary used e := by
  refine reads_next fun token => ?_
  split
  case h_1 op isOp =>
    rw [unaryOp_eq] at isOp
    refine reads_advance ((reads_nested reading.unary).bind fun e => reads_pure fun rest u operand => ?_)
    rw [List.append_nil]
    refine ⟨fun mark ahead => ?_,fun nothing ahead => ?_⟩
    · rw [ahead_cons ahead]
      exact .unary isOp operand
    · rw [nothing] at ahead
      rw [ahead_nil ahead] at isOp
      cases isOp
  case h_2 =>
    refine reading.call.weaken fun used e rest phrase _ => ?_
    exact .tighter _ phrase

theorem operand_reads {level : Level} {op? : Token.Kind → Option BinaryOp} {tighter : Parser Expr}
    (table : ∀ kind, op? kind = level.operator kind)
    (reads : Reads tighter fun used e _ => Phrase level.tighter used e) (left : Expr) :
    Reads (operand op? tighter left) fun used next _ => Carries (Phrase level) left used next := by
  refine reads_next fun token => ?_
  split
  case h_1 op isOp =>
    rw [table] at isOp
    refine reads_deepen (reads_advance (reads.bind fun e => reads_pure fun rest u right => ?_))
    rw [List.append_nil]
    refine ⟨fun mark ahead v first => ?_,fun nothing ahead => ?_⟩
    · rw [ahead_cons ahead]
      exact .binary first isOp right
    · rw [nothing] at ahead
      rw [ahead_nil ahead] at isOp
      cases level <;> cases isOp
  case h_2 => exact reads_pure fun _ _ => rfl

theorem binaryLevel_reads {level : Level} {op? : Token.Kind → Option BinaryOp} {tighter : Parser Expr}
    (table : ∀ kind, op? kind = level.operator kind)
    (reads : Reads tighter fun used e _ => Phrase level.tighter used e) :
    Reads (binaryLevel op? tighter) fun used e _ => Phrase level used e := by
  refine reads_levelled (reads.bind fun e => ?_)
  refine (reads_extend (operand_reads table reads) e).weaken ?_
  intro used f rest holds u first
  exact holds u (.tighter _ first)

theorem Reading.factor (reading : inner.Reading) : Reads inner.factor fun used e _ => Phrase .factor used e :=
  binaryLevel_reads (fun kind => by cases kind <;> rfl) reading.unaryRule

theorem Reading.term (reading : inner.Reading) : Reads inner.term fun used e _ => Phrase .term used e :=
  binaryLevel_reads (fun kind => by cases kind <;> rfl) reading.factor

theorem Reading.comparison (reading : inner.Reading) :
    Reads inner.comparison fun used e _ => Phrase .comparison used e :=
  binaryLevel_reads (fun kind => by cases kind <;> rfl) reading.term

theorem Reading.equality (reading : inner.Reading) :
    Reads inner.equality fun used e _ => Phrase .equality used e :=
  binaryLevel_reads (fun kind => by cases kind <;> rfl) reading.comparison

theorem logicalOp_eq (kind : Token.Kind) : logicalOp? kind = connective kind := by
  cases kind <;> rfl

theorem Reading.logicalOperand (reading : inner.Reading) (left : Expr) :
    Reads (inner.logicalOperand left) fun used next _ => Carries (Phrase .logical) left used next := by
  refine reads_next fun token => ?_
  split
  case h_1 op isOp =>
    rw [logicalOp_eq] at isOp
    refine reads_advance (reads_deepen (reading.equality.bind fun e => reads_pure fun rest u right => ?_))
    rw [List.append_nil]
    refine ⟨fun word ahead v first => ?_,fun nothing ahead => ?_⟩
    · rw [ahead_cons ahead]
      exact .logical first isOp right
    · rw [nothing] at ahead
      rw [ahead_nil ahead] at isOp
      cases isOp
  case h_2 => exact reads_pure fun _ _ => rfl

theorem Reading.logical (reading : inner.Reading) : Reads inner.logical fun used e _ => Phrase .logical used e := by
  refine reads_levelled (reading.equality.bind fun e => ?_)
  refine (reads_extend reading.logicalOperand e).weaken ?_
  intro used f rest holds u first
  exact holds u (.tighter _ first)

theorem phrase_var {level : Level} {ts : List Token} {name : String} {span : Span}
    (phrase : Phrase level ts (.var name span)) :
    ∃ token, ts = [token] ∧ token.kind = .identifier ∧ token.lexeme = name := by
  generalize tree : Expr.var name span = e at phrase
  induction phrase with
  | tighter _ _ ih => exact ih tree
  | var isName =>
    cases tree
    exact ⟨_,rfl,isName,rfl⟩
  | _ => cases tree

theorem Reading.assignmentRule (reading : inner.Reading) :
    Reads inner.assignmentRule fun used e _ => Phrase .assignment used e := by
  refine reading.logical.bind fun target => reads_accept (fun equals isEquals => ?_) ?_
  · rw [if_pos rfl]
    refine reads_look fun _ => (reads_nested reading.assignment).bind fun value => ?_
    split
    case h_1 name span =>
      refine reads_pure fun rest u right v left => ?_
      obtain ⟨token,rfl,isName,rfl⟩ := phrase_var left
      rw [List.append_nil]
      exact .assign isName isEquals right
    case h_2 =>
      have complains := reads_complain (T := fun _ _ _ => False)
      exact (complains _ _).bind fun _ => reads_pure fun _ _ never => never.elim
  · rw [if_neg Bool.false_ne_true]
    refine reads_pure fun rest _ u phrase => ?_
    rw [List.append_nil]
    exact .tighter _ phrase

/-! ### Statements -/

theorem Reading.expressionStatement (reading : inner.Reading) :
    Reads inner.expressionStatement fun used s _ => Effect used s := by
  refine reading.expression.bind fun e => reads_expect fun semicolon ends => ?_
  exact reads_pure fun rest u phrase => .mk phrase ends

theorem Reading.varRule (reading : inner.Reading) :
    Reads inner.varRule fun used s _ => ∀ word : Token, word.kind = .kwVar → Variable (word :: used) s := by
  refine reads_look fun _ => reads_expect fun name isName => ?_
  refine reads_choose (R := fun used initial _ => (used = [] ∧ initial = none) ∨
    ∃ equals ts e, used = equals :: ts ∧ initial = some e ∧ equals.kind = .eq ∧ Phrase .assignment ts e)
    (reads_accept (fun equals isEquals => ?_) ?_) fun initial => ?_
  · refine (reading.expression.map some).weaken fun used initial rest given => ?_
    obtain ⟨e,rfl,phrase⟩ := given
    exact .inr ⟨equals,used,e,rfl,rfl,isEquals,phrase⟩
  · exact reads_pure fun rest _ => .inl ⟨rfl,rfl⟩
  · refine reads_expect fun semicolon ends => reads_look fun _ => reads_pure fun rest u found word isVar => ?_
    rcases found with ⟨rfl,rfl⟩ | ⟨equals,ts,e,rfl,rfl,isEquals,phrase⟩
    · exact .unset isVar isName ends
    · exact .set isVar isName isEquals phrase ends

theorem sentence_ne_nil {form : Form} {ts : List Token} {s : Stmt} (sentence : Sentence form ts s) : ts ≠ [] := by
  induction sentence with
  | var declared => cases declared <;> simp
  | effect effect => cases effect; simp
  | statement _ ih => exact ih
  | _ => simp

theorem Reading.block (reading : inner.Reading) :
    Reads inner.block fun used ss _ => ∃ texts close, Each (Sentence .declaration) ss texts ∧
      close.kind = .rightBrace ∧ used = texts.flatten ++ [close] := by
  have statements : Reads (many (fun s => s.sees .rightBrace || s.atEnd) (nested inner.declaration))
      fun used ss _ => ∃ texts, Each (Sentence .declaration) ss texts ∧ used = texts.flatten := by
    intro s ended
    refine (reads_manyWithin (fun _ => True) (reads_nested reading.declaration)
      (fun _ _ => sentence_ne_nil) (fun _ _ => trivial) trivial s.rest).weaken ?_ s ended
    exact fun used ss rest sequence => sequence.1
  refine statements.bind fun ss => reads_expect fun close ends => reads_pure fun rest u listed => ?_
  obtain ⟨texts,each,rfl⟩ := listed
  exact ⟨texts,close,each,ends,rfl⟩

theorem parameter_reads :
    Reads parameter fun used name _ => ∃ token : Token, used = [token] ∧ token.kind = .identifier ∧
      name.text = token.lexeme := by
  exact reads_expect fun token isName => reads_pure fun rest => ⟨token,rfl,isName,rfl⟩

theorem names_of_each {names : List Name} {texts : List (List Token)}
    (each : Each (fun used (name : Name) => ∃ token : Token, used = [token] ∧ token.kind = .identifier ∧
      name.text = token.lexeme) names texts) :
    ∃ params : List Token, (∀ param ∈ params, param.kind = .identifier) ∧
      texts = params.map (fun param => [param]) ∧ names.map Name.text = params.map Token.lexeme := by
  obtain ⟨items,named,rfl,rfl⟩ := each
  induction items with
  | nil => exact ⟨[],by simp,rfl,rfl⟩
  | cons item items ih =>
    obtain ⟨params,identifiers,texts,lexemes⟩ := ih fun item member => named item (List.mem_cons_of_mem _ member)
    obtain ⟨token,text,isName,same⟩ := named item List.mem_cons_self
    refine ⟨token :: params,?_,?_,?_⟩
    · intro param member
      rcases List.mem_cons.mp member with rfl | member
      · exact isName
      · exact identifiers param member
    · simp [text,texts]
    · simp [same,lexemes]

theorem Reading.functionRule (reading : inner.Reading) :
    Reads inner.functionRule fun used s _ =>
      ∀ word : Token, word.kind = .kwFunction → Sentence .declaration (word :: used) s := by
  refine reads_look fun _ => reads_expect fun name isName => reads_expect fun opening opens => ?_
  refine reads_choose (R := fun used names _ => ∃ texts, Each _ names texts ∧ Separated texts used)
    (reads_sees ?_ ((reads_commaSeparated parameter_reads).weaken fun used names rest listed _ => listed))
    fun names => ?_
  · exact reads_pure fun rest _ => ⟨[],.nil _,.none⟩
  · refine reads_expect fun closing closes => reads_expect fun brace begins => reading.block.bind fun body => ?_
    refine reads_look fun _ => reads_pure fun rest used block u listed word isFunction => ?_
    obtain ⟨_,close,⟨items,sentences,rfl,rfl⟩,ends,rfl⟩ := block
    obtain ⟨texts,each,separated⟩ := listed
    obtain ⟨params,named,rfl,same⟩ := names_of_each each
    rw [List.append_nil]
    exact .function isFunction isName opens named separated same closes begins sentences ends

theorem Reading.expressionUnless (reading : inner.Reading) (kind : Token.Kind) :
    Reads (inner.expressionUnless kind) fun used e _ => Optional used e := by
  refine reads_sees (reads_pure fun rest _ => .missing) ?_
  refine (reading.expression.map some).weaken fun used e rest given _ => ?_
  obtain ⟨e,rfl,phrase⟩ := given
  exact .given phrase

theorem Reading.forStart (reading : inner.Reading) :
    Reads inner.forStart fun used start _ => ForStart used start := by
  refine reads_accept (fun semicolon ends => reads_pure fun rest => .missing ends) ?_
  refine reads_accept (fun word isVar => ?_) ?_
  · refine (reading.varRule.map some).weaken fun used start rest given _ => ?_
    obtain ⟨s,rfl,declared⟩ := given
    exact .declared (declared word isVar)
  · refine (reading.expressionStatement.map some).weaken fun used start rest given _ _ => ?_
    obtain ⟨s,rfl,effect⟩ := given
    exact .effect effect

theorem forTree_derived (start : Option Stmt) (test : Option Expr) (place : Span) (step : Option Expr)
    (body : Stmt) (span : Span) :
    ∃ condition round, ForTest test condition ∧ ForRound body step round ∧
      ForBlock (.loop condition round span) start (forTree start test place step body span) := by
  obtain ⟨round,isRound,same⟩ : ∃ round, ForRound body step round ∧ forTree start test place step body span =
      forTree start test place none round span := by
    cases step with
    | none => exact ⟨body,.missing,rfl⟩
    | some e => exact ⟨_,.given e _ _,rfl⟩
  obtain ⟨condition,isCondition,same'⟩ : ∃ condition, ForTest test condition ∧
      forTree start test place none round span = forTree start (some condition) place none round span := by
    cases test with
    | none => exact ⟨_,.missing place,rfl⟩
    | some e => exact ⟨e,.given e,rfl⟩
  refine ⟨condition,round,isCondition,isRound,?_⟩
  rw [same,same']
  cases start with
  | none => exact .missing
  | some s => exact .given s span

theorem Reading.forRule (reading : inner.Reading) :
    Reads inner.forRule fun used s rest => ∀ word : Token, word.kind = .kwFor → Stated (word :: used) s rest := by
  refine reads_look fun _ => reads_expect fun opening opens => reading.forStart.bind fun start => ?_
  refine (reading.expressionUnless _).bind fun test => reads_expect fun semicolon divides => ?_
  refine (reading.expressionUnless _).bind fun step => reads_expect fun closing closes => ?_
  refine (reads_nested reading.statement).bind fun body => reads_look fun span => reads_pure ?_
  intro rest us stated steps stepped tests tested starts started word isFor
  obtain ⟨dangling,repeated,free⟩ := stated
  obtain ⟨condition,round,isCondition,isRound,isTree⟩ := forTree_derived start test semicolon.span step body span
  refine ⟨dangling,?_,free⟩
  rw [List.append_nil]
  exact .forLoop isFor opens started tested divides stepped closes repeated isCondition isRound isTree

theorem Reading.ifRule (reading : inner.Reading) :
    Reads inner.ifRule fun used s rest => ∀ word : Token, word.kind = .kwIf → Stated (word :: used) s rest := by
  refine reads_look fun _ => reads_expect fun opening opens => reading.expression.bind fun test => ?_
  refine reads_expect fun closing closes => (reads_nested reading.statement).bind fun yes => ?_
  refine reads_choose (R := fun used no rest => (used = [] ∧ no = none ∧ ¬ Begins .kwElse rest) ∨
    ∃ other vs s, used = other :: vs ∧ no = some s ∧ other.kind = .kwElse ∧ Stated vs s rest)
    (reads_accept (fun other isElse => ?_) ?_) fun no => ?_
  · refine ((reads_nested reading.statement).map some).weaken fun used no rest given => ?_
    obtain ⟨s,rfl,stated⟩ := given
    exact .inr ⟨other,used,s,rfl,rfl,isElse,stated⟩
  · exact reads_pure fun rest unseen => .inl ⟨rfl,rfl,unseen⟩
  · refine reads_look fun span => reads_pure fun rest vs branch us stated ts tested word isIf => ?_
    obtain ⟨dangling,done,free⟩ := stated
    rcases branch with ⟨rfl,rfl,unseen⟩ | ⟨other,vs,s,rfl,rfl,isElse,dangling',otherwise,free'⟩
    · refine ⟨true,?_,fun _ => unseen⟩
      rw [List.append_nil,List.append_nil]
      exact .ifOnly isIf opens tested closes done
    · -- The branch in front of an `else` cannot be one that the `else` could have joined.
      have closed : dangling = false := by
        cases dangling with
        | false => rfl
        | true => exact absurd ⟨other,vs ++ rest,by simp,isElse⟩ (free rfl)
      subst closed
      refine ⟨dangling',?_,free'⟩
      rw [List.append_nil]
      exact .ifElse isIf opens tested closes done isElse otherwise

theorem Reading.returnRule (reading : inner.Reading) :
    Reads inner.returnRule fun used s rest =>
      ∀ word : Token, word.kind = .kwReturn → Stated (word :: used) s rest := by
  refine reads_look fun _ => (reading.expressionUnless _).bind fun value => ?_
  refine reads_expect fun semicolon ends => reads_look fun span => reads_pure fun rest u optional word isReturn => ?_
  exact ⟨false,.giveBack isReturn optional ends,by simp⟩

theorem Reading.whileRule (reading : inner.Reading) :
    Reads inner.whileRule fun used s rest =>
      ∀ word : Token, word.kind = .kwWhile → Stated (word :: used) s rest := by
  refine reads_look fun _ => reads_expect fun opening opens => reading.expression.bind fun test => ?_
  refine reads_expect fun closing closes => (reads_nested reading.statement).bind fun body => ?_
  refine reads_look fun span => reads_pure fun rest us stated ts tested word isWhile => ?_
  obtain ⟨dangling,repeated,free⟩ := stated
  refine ⟨dangling,?_,free⟩
  rw [List.append_nil]
  exact .loop isWhile opens tested closes repeated

theorem Reading.blockRule (reading : inner.Reading) :
    Reads inner.blockRule fun used s rest =>
      ∀ brace : Token, brace.kind = .leftBrace → Stated (brace :: used) s rest := by
  refine reads_look fun _ => reading.block.bind fun body => ?_
  refine reads_look fun span => reads_pure fun rest used block brace begins => ?_
  obtain ⟨_,close,⟨items,sentences,rfl,rfl⟩,ends,rfl⟩ := block
  refine ⟨false,?_,by simp⟩
  rw [List.append_nil]
  exact .block begins sentences ends

theorem Reading.statementRule (reading : inner.Reading) : Reads inner.statementRule Stated := by
  refine reads_accept (fun word isFor => ?_) (reads_accept (fun word isIf => ?_)
    (reads_accept (fun word isReturn => ?_) (reads_accept (fun word isWhile => ?_)
      (reads_accept (fun brace begins => ?_) ?_))))
  · exact reading.forRule.weaken fun used s rest holds => holds word isFor
  · exact reading.ifRule.weaken fun used s rest holds _ => holds word isIf
  · exact reading.returnRule.weaken fun used s rest holds _ _ => holds word isReturn
  · exact reading.whileRule.weaken fun used s rest holds _ _ _ => holds word isWhile
  · exact reading.blockRule.weaken fun used s rest holds _ _ _ _ => holds brace begins
  · refine reading.expressionStatement.weaken fun used s rest effect _ _ _ _ _ => ?_
    exact ⟨false,.effect effect,by simp⟩

theorem Reading.declarationRule (reading : inner.Reading) :
    Reads inner.declarationRule fun used s _ => Sentence .declaration used s := by
  refine reads_accept (fun word isFunction => ?_) (reads_accept (fun word isVar => ?_) ?_)
  · exact reading.functionRule.weaken fun used s rest holds => holds word isFunction
  · exact reading.varRule.weaken fun used s rest holds _ => .var (holds word isVar)
  · refine reading.statementRule.weaken fun used s rest stated _ _ => ?_
    obtain ⟨dangling,sentence,_⟩ := stated
    exact .statement sentence

theorem level_reading : ∀ n, (level n).Reading
  | 0 => ⟨reads_fail _,reads_fail _,reads_fail _,reads_fail _⟩
  | n + 1 =>
    have inner := level_reading n
    ⟨inner.assignmentRule,inner.unaryRule,inner.declarationRule,inner.statementRule⟩

end Nested

theorem final_isEnd (tokens : List Token) : (State.ofTokens tokens).final.kind = .endOfFile := by
  show ((tokens.find? (·.kind = .endOfFile)).getD (State.finalOf tokens)).kind = .endOfFile
  cases found : tokens.find? (·.kind = .endOfFile) with
  | some token => simpa using List.find?_some found
  | none =>
    show (State.finalOf tokens).kind = .endOfFile
    unfold State.finalOf
    cases tokens.getLast? <;> rfl

/-- A program that is parsed without a problem is derived from the tokens in front of the end mark. -/
theorem derives_of_ofTokens {tokens : List Token} {program : Program} (parsed : ofTokens tokens = .ok program) :
    Derives (tokens.takeWhile (·.kind ≠ .endOfFile)) program := by
  let start := State.ofTokens tokens
  have atEnd : ∀ s : State, s.atEnd = true → s.rest = [] := by
    intro s empty
    simpa [State.atEnd] using empty
  have reads := reads_manyWithin (fun rest => rest = []) (reads_nested (Nested.level_reading maxNesting).declaration)
    (fun _ _ => Nested.sentence_ne_nil) atEnd rfl start.rest start (final_isEnd tokens)
  rcases out : many State.atEnd declaration start with ⟨values,t⟩
  have same : manyWithin State.atEnd declaration start.rest start = (values,t) := out
  have found : Found start _ (values,t) := same ▸ reads
  obtain ⟨statements,rfl,clean⟩ : ∃ statements, values = some statements ∧ t.problems = [] ∧
      program = ⟨statements⟩ := by
    unfold ofTokens at parsed
    simp only [start] at out
    rw [out] at parsed
    cases values with
    | none => cases parsed
    | some statements =>
      cases problems : t.problems with
      | cons first later => simp [problems] at parsed
      | nil =>
        simp only [problems,Except.ok.injEq] at parsed
        exact ⟨statements,rfl,rfl,parsed.symm⟩
  obtain ⟨_,faulty | ⟨_,used,value,_,whole,⟨texts,⟨items,each,rfl,rfl⟩,rfl⟩,stopped⟩⟩ := found
  · exact absurd clean.1 faulty
  · cases value
    have rest : start.rest = (items.map Prod.fst).flatten ++ t.rest := whole
    have done : t.rest = [] := by
      refine stopped (Nat.le_of_eq ?_)
      rw [rest,List.length_append]
    rw [done,List.append_nil] at rest
    rw [clean.2]
    exact ⟨items,each,rest,rfl⟩

end TurtleScript.Program
