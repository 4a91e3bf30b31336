import TurtleScript.Proofs.Lines
import TurtleScript.Proofs.Respan

/-!
Spans in a parse. A parser joins spans and puts them into trees and problems, and otherwise does not look at them. So it
makes of tokens with other spans what it makes of the tokens, with other spans (`Parser.Respans`), as long as joining
spans and changing them come to the same in either order. There is a lemma for each step and each way of putting
parsers together, and one for each rule of the grammar; together they say what tokens that differ in their spans only
are parsed as (`ofTokens_forget`).
-/

namespace TurtleScript

class Spanned (α : Type) where
  respan : (Span → Span) → α → α

namespace Spanned

variable {α : Type} [Spanned α]

instance : Spanned Unit := ⟨fun _ value => value⟩

instance : Spanned Bool := ⟨fun _ value => value⟩

instance : Spanned Span := ⟨fun f span => f span⟩

instance : Spanned (Option α) := ⟨fun f => Option.map (respan f)⟩

instance : Spanned (List α) := ⟨fun f => List.map (respan f)⟩

end Spanned

def Token.respan (f : Span → Span) (token : Token) : Token := { token with span := f token.span }

def Diagnostic.respan (f : Span → Span) : Diagnostic → Diagnostic
  | .scan message span => .scan message (f span)
  | .parse message lexeme span => .parse message lexeme (f span)
  | .io message => .io message

instance : Spanned Token := ⟨Token.respan⟩

instance : Spanned Name := ⟨Name.respan⟩

instance : Spanned Expr := ⟨Expr.respan⟩

instance : Spanned Stmt := ⟨Stmt.respan⟩

theorem Expr.span_respan (f : Span → Span) (e : Expr) : (e.respan f).span = f e.span := by
  cases e <;> rfl

theorem Expr.respanAll_eq_map (f : Span → Span) (es : List Expr) : Expr.respanAll f es = es.map (Expr.respan f) := by
  induction es with
  | nil => rfl
  | cons e es ih => rw [Expr.respanAll,ih,List.map_cons]

theorem Stmt.respanOption_eq_map (f : Span → Span) (s : Option Stmt) :
    Stmt.respanOption f s = s.map (Stmt.respan f) := by
  cases s <;> rfl

/-- Joining spans and changing them come to the same in either order. -/
def Span.Joins (f : Span → Span) : Prop := ∀ a b : Span, f (a.join b) = (f a).join (f b)

theorem Span.forget_joins : Span.Joins Span.forget := fun _ _ => rfl

namespace Program

open TurtleScript.Program.Parser

variable {f : Span → Span}

/-- The state of the parse of tokens with other spans. -/
def State.respan (f : Span → Span) (s : State) : State :=
  { s with
    rest := s.rest.map (Token.respan f)
    final := s.final.respan f
    last := s.last.respan f
    problems := s.problems.map (Diagnostic.respan f) }

theorem next_respan (s : State) : (s.respan f).next = s.next.respan f := by
  unfold State.next State.respan
  cases s.rest <;> rfl

theorem sees_respan (s : State) (kind : Token.Kind) : (s.respan f).sees kind = s.sees kind := by
  unfold State.sees State.respan
  cases s.rest <;> rfl

theorem atEnd_respan (s : State) : (s.respan f).atEnd = s.atEnd := by
  unfold State.atEnd State.respan
  cases s.rest <;> rfl

theorem advance_respan (s : State) : (s.respan f).advance = s.advance.respan f := by
  cases tokens : s.rest with
  | nil => simp [State.advance,State.respan,tokens]
  | cons token later => simp [State.advance,State.respan,tokens]

theorem complain_respan (s : State) (token : Token) (complaint : Complaint) :
    (s.respan f).complain (token.respan f) complaint = (s.complain token complaint).respan f := by
  unfold State.complain State.respan
  rw [List.map_append]
  rfl

theorem skipFrom_respan (last : Token) (rest : List Token) :
    State.skipFrom (last.respan f) (rest.map (Token.respan f)) =
      ((State.skipFrom last rest).1.respan f,(State.skipFrom last rest).2.map (Token.respan f)) := by
  induction rest generalizing last with
  | nil => rfl
  | cons token rest ih =>
    have kinds : (last.respan f).kind = last.kind ∧ (token.respan f).kind = token.kind := ⟨rfl,rfl⟩
    simp only [List.map_cons,State.skipFrom,kinds.1,kinds.2]
    split
    · rfl
    · exact ih token

theorem recover_respan (s : State) : (s.respan f).recover = s.recover.respan f := by
  have skips := skipFrom_respan (f := f) s.advance.last s.advance.rest
  unfold State.recover
  rw [advance_respan]
  simp only [State.respan] at skips ⊢
  rw [skips]

namespace Parser

variable {α β : Type} [Spanned α] [Spanned β]

/-- What one parser makes of tokens, the other makes of them with other spans. -/
def Respans (f : Span → Span) (p p' : Parser α) : Prop :=
  ∀ s : State, p' (s.respan f) = ((p s).1.map (Spanned.respan f),(p s).2.respan f)

variable {p p' q q' : Parser α} {g g' : α → Parser β}

theorem respans_pure {a a' : α} (same : a' = Spanned.respan f a) : Respans f (pure a) (pure a') := by
  intro s
  rw [same]
  rfl

theorem respans_look {h h' : State → α} (same : ∀ s : State, h' (s.respan f) = Spanned.respan f (h s)) :
    Respans f (look h) (look h') := by
  intro s
  show (some (h' (s.respan f)),s.respan f) = _
  rw [same]
  rfl

theorem respans_change {h h' : State → State} (same : ∀ s : State, h' (s.respan f) = (h s).respan f) :
    Respans f (change h) (change h') := by
  intro s
  show (some (),h' (s.respan f)) = _
  rw [same]
  rfl

theorem respans_fail (complaint : Complaint) : Respans f (fail complaint : Parser α) (fail complaint) := by
  intro s
  unfold fail
  rw [next_respan,complain_respan]
  rfl

theorem respans_next : Respans f (look State.next) (look State.next) := respans_look next_respan

theorem respans_last : Respans f last last := respans_look fun _ => rfl

theorem respans_sees (kind : Token.Kind) : Respans f (sees kind) (sees kind) :=
  respans_look fun s => sees_respan s kind

theorem respans_advance : Respans f advance advance := respans_change advance_respan

theorem respans_spanFrom (joins : Span.Joins f) {start start' : Span} (same : start' = f start) :
    Respans f (spanFrom start) (spanFrom start') := by
  refine respans_look fun s => ?_
  rw [same]
  exact (joins start s.last.span).symm

theorem respans_accept (kind : Token.Kind) : Respans f (accept kind) (accept kind) := by
  intro s
  unfold accept
  rw [sees_respan,advance_respan]
  split <;> rfl

theorem respans_expect (kind : Token.Kind) (complaint : Complaint) :
    Respans f (expect kind complaint) (expect kind complaint) := by
  intro s
  unfold expect
  rw [sees_respan,next_respan,advance_respan]
  split
  · rfl
  · exact respans_fail complaint s

theorem respans_deepen : Respans f deepen deepen := by
  intro s
  unfold deepen
  show (if maxNesting ≤ s.depth then _ else _) = _
  split
  · exact respans_fail .nesting { s with tooDeep := true }
  · rfl

theorem respans_ite {c : Bool} (yes : Respans f p p') (no : Respans f q q') :
    Respans f (if c then p else q) (if c then p' else q') := by
  cases c with
  | true => exact yes
  | false => exact no

theorem Respans.bind (first : Respans f p p') (rest : ∀ a, Respans f (g a) (g' (Spanned.respan f a))) :
    Respans f (p >>= g) (p' >>= g') := by
  intro s
  have one := first s
  rcases out : p s with ⟨_ | a,t⟩
  · rw [out] at one
    rw [bind_none out,bind_none one]
    rfl
  · rw [out] at one
    rw [bind_some out,bind_some one]
    exact rest a t

theorem Respans.map {h h' : α → β} (respans : Respans f p p')
    (same : ∀ a, h' (Spanned.respan f a) = Spanned.respan f (h a)) :
    Respans f (h <$> p) (h' <$> p') :=
  respans.bind fun a => respans_pure (same a)

theorem respans_choose {c : Parser Bool} (choice : Respans f c c) (yes : Respans f p p') (no : Respans f q q')
    (rest : ∀ a, Respans f (g a) (g' (Spanned.respan f a))) :
    Respans f
      (do
        let a ← if ← c then p else q
        g a)
      (do
        let a ← if ← c then p' else q'
        g' a) := by
  refine choice.bind fun chosen => ?_
  cases chosen with
  | true => exact yes.bind rest
  | false => exact no.bind rest

theorem Respans.nested (respans : Respans f p p') : Respans f (nested p) (nested p') := by
  intro s
  by_cases full : maxNesting ≤ s.depth
  · rw [nested_full full,nested_full (s := s.respan f) full]
    exact respans_fail .nesting { s with tooDeep := true }
  · have inside := respans { s with depth := s.depth + 1 }
    rcases out : p { s with depth := s.depth + 1 } with ⟨result,t⟩
    rw [out] at inside
    rw [nested_free full out,nested_free (s := s.respan f) full inside]
    rfl

theorem Respans.levelled (respans : Respans f p p') : Respans f (levelled p) (levelled p') := by
  intro s
  have one := respans s
  rcases out : p s with ⟨_ | a,t⟩
  · rw [out] at one
    rw [levelled_none out,levelled_none one]
    rfl
  · rw [out] at one
    rw [levelled_some out,levelled_some one]
    rfl

theorem respans_extend {step step' : α → Parser (Option α)}
    (steps : ∀ a, Respans f (step a) (step' (Spanned.respan f a))) (a : α) : Respans f (extend step a) (extend step' (Spanned.respan f a)) := by
  have within : ∀ (bound : List Token) (a : α),
      Respans f (extendWithin step bound a) (extendWithin step' (bound.map (Token.respan f)) (Spanned.respan f a)) := by
    intro bound
    induction bound with
    | nil => exact fun a => respans_pure rfl
    | cons _ bound ih =>
      intro a
      refine (steps a).bind fun next => ?_
      cases next with
      | some b => exact ih b
      | none => exact respans_pure rfl
  exact fun s => within s.rest a s

theorem Respans.commaSeparated (respans : Respans f p p') : Respans f (commaSeparated p) (commaSeparated p') := by
  have within : ∀ bound : List Token,
      Respans f (commaSeparatedWithin p bound) (commaSeparatedWithin p' (bound.map (Token.respan f))) := by
    intro bound
    induction bound with
    | nil => exact respans.bind fun a => respans_pure rfl
    | cons _ bound ih =>
      refine respans.bind fun first => (respans_accept .comma).bind fun seen => respans_ite ?_ (respans_pure rfl)
      exact ih.bind fun later => respans_pure rfl
  exact fun s => within s.rest s

theorem Respans.many (respans : Respans f p p') {stop : State → Bool} (same : ∀ s : State, stop (s.respan f) = stop s) :
    Respans f (many stop p) (many stop p') := by
  have within : ∀ bound : List Token,
      Respans f (manyWithin stop p bound) (manyWithin stop p' (bound.map (Token.respan f))) := by
    intro bound
    induction bound with
    | nil => exact respans_pure rfl
    | cons token bound ih =>
      intro s
      have one := respans s
      rw [List.map_cons]
      unfold manyWithin
      rw [same s]
      split
      · rfl
      · rcases out : p s with ⟨_ | a,t⟩
        · rw [out] at one
          rw [one]
          show (if t.tooDeep then _ else _) = _
          dsimp only
          split
          · rfl
          · rw [recover_respan]
            exact ih t.recover
        · rw [out] at one
          rw [one]
          have later : Respans f (do return a :: (← manyWithin stop p bound))
              (do return Spanned.respan f a :: (← manyWithin stop p' (bound.map (Token.respan f)))) :=
            ih.bind fun later => respans_pure rfl
          exact later t
  exact fun s => within s.rest s

end Parser

/-! ### Rules -/

/-- The rules that other rules call carry spans along. -/
structure Nested.Respanning (f : Span → Span) (inner : Nested) : Prop where
  assignment : Respans f inner.assignment inner.assignment
  unary : Respans f inner.unary inner.unary
  declaration : Respans f inner.declaration inner.declaration
  statement : Respans f inner.statement inner.statement

namespace Nested

variable {inner : Nested}

theorem Respanning.expression (respanning : inner.Respanning f) : Respans f inner.expression inner.expression :=
  respanning.assignment.nested

theorem Respanning.arguments (respanning : inner.Respanning f) (close : Token.Kind) (complaint : Complaint) :
    Respans f (inner.arguments close complaint) (inner.arguments close complaint) := by
  refine respans_choose (respans_sees close) (respans_pure rfl) respanning.expression.commaSeparated fun items => ?_
  exact (respans_expect close complaint).bind fun _ => respans_pure rfl

theorem leaf_respan (token : Token) : leaf? (token.respan f) = (leaf? token).map (Expr.respan f) := by
  unfold leaf?
  simp only [Token.respan]
  cases token.kind <;> try rfl
  all_goals
    cases token.payload with
    | none => rfl
    | some payload => cases payload <;> rfl

theorem Respanning.primary (joins : Span.Joins f) (respanning : inner.Respanning f) :
    Respans f inner.primary inner.primary := by
  refine respans_next.bind fun token => ?_
  rw [show (Spanned.respan f token).kind = token.kind from rfl]
  split
  · refine respans_advance.bind fun _ => respanning.expression.bind fun content => ?_
    refine (respans_expect _ _).bind fun _ => (respans_spanFrom joins rfl).bind fun _ => respans_pure rfl
  · refine respans_advance.bind fun _ => (respanning.arguments _ _).bind fun items => ?_
    refine (respans_spanFrom joins rfl).bind fun span => respans_pure ?_
    exact congrArg (Expr.array · _) (Expr.respanAll_eq_map f items).symm
  · rw [show leaf? (Spanned.respan f token) = _ from leaf_respan token]
    cases leaf? token with
    | error complaint => exact respans_fail complaint
    | ok e => exact respans_advance.bind fun _ => respans_pure rfl

theorem Respanning.suffixed (joins : Span.Joins f) (respanning : inner.Respanning f) (target : Expr) :
    Respans f (inner.suffixed target) (inner.suffixed (Spanned.respan f target)) := by
  have start : (Spanned.respan f target).span = f target.span := Expr.span_respan f target
  refine (respans_sees .leftParen).bind fun opens => respans_ite ?_ ?_
  · refine respans_deepen.bind fun _ => respans_advance.bind fun _ => (respanning.arguments _ _).bind fun args => ?_
    refine (respans_spanFrom joins start).bind fun span => respans_pure ?_
    exact congrArg (fun args => some (Expr.call _ args _)) (Expr.respanAll_eq_map f args).symm
  · refine (respans_sees .leftBracket).bind fun opens => respans_ite ?_ (respans_pure rfl)
    refine respans_deepen.bind fun _ => respans_advance.bind fun _ => respanning.expression.bind fun index => ?_
    exact (respans_expect _ _).bind fun _ => (respans_spanFrom joins start).bind fun _ => respans_pure rfl

theorem Respanning.call (joins : Span.Joins f) (respanning : inner.Respanning f) : Respans f inner.call inner.call :=
  ((respanning.primary joins).bind fun e => respans_extend (respanning.suffixed joins) e).levelled

theorem join_respan (joins : Span.Joins f) (left right : Expr) :
    (left.respan f).span.join (right.respan f).span = f (left.span.join right.span) := by
  rw [joins,Expr.span_respan,Expr.span_respan]

theorem Respanning.unaryRule (joins : Span.Joins f) (respanning : inner.Respanning f) :
    Respans f inner.unaryRule inner.unaryRule := by
  refine respans_next.bind fun token => ?_
  rw [show (Spanned.respan f token).kind = token.kind from rfl]
  split
  · refine respans_advance.bind fun _ => respanning.unary.nested.bind fun operand => respans_pure ?_
    have spans := joins token.span operand.span
    rw [← Expr.span_respan f] at spans
    exact congrArg (Expr.unary _ _) spans.symm
  · exact respanning.call joins

theorem operand_respans (joins : Span.Joins f) {op? : Token.Kind → Option BinaryOp} {tighter : Parser Expr}
    (respans : Respans f tighter tighter) (left : Expr) :
    Respans f (operand op? tighter left) (operand op? tighter (Spanned.respan f left)) := by
  refine respans_next.bind fun token => ?_
  rw [show (Spanned.respan f token).kind = token.kind from rfl]
  split
  · refine respans_deepen.bind fun _ => respans_advance.bind fun _ => respans.bind fun right => respans_pure ?_
    exact congrArg (fun span => some (Expr.binary _ _ _ span)) (join_respan joins left right)
  · exact respans_pure rfl

theorem binaryLevel_respans (joins : Span.Joins f) {op? : Token.Kind → Option BinaryOp} {tighter : Parser Expr}
    (respans : Respans f tighter tighter) : Respans f (binaryLevel op? tighter) (binaryLevel op? tighter) :=
  (respans.bind fun e => respans_extend (operand_respans joins respans) e).levelled

theorem Respanning.equality (joins : Span.Joins f) (respanning : inner.Respanning f) :
    Respans f inner.equality inner.equality :=
  binaryLevel_respans joins (binaryLevel_respans joins (binaryLevel_respans joins (binaryLevel_respans joins
    (respanning.unaryRule joins))))

theorem Respanning.logicalOperand (joins : Span.Joins f) (respanning : inner.Respanning f) (left : Expr) :
    Respans f (inner.logicalOperand left) (inner.logicalOperand (Spanned.respan f left)) := by
  refine respans_next.bind fun token => ?_
  rw [show (Spanned.respan f token).kind = token.kind from rfl]
  split
  · refine respans_advance.bind fun _ => respans_deepen.bind fun _ => ?_
    refine (respanning.equality joins).bind fun right => respans_pure ?_
    exact congrArg (fun span => some (Expr.logical _ _ _ span)) (join_respan joins left right)
  · exact respans_pure rfl

theorem Respanning.logical (joins : Span.Joins f) (respanning : inner.Respanning f) :
    Respans f inner.logical inner.logical :=
  ((respanning.equality joins).bind fun e => respans_extend (respanning.logicalOperand joins) e).levelled

theorem Respanning.assignmentRule (joins : Span.Joins f) (respanning : inner.Respanning f) :
    Respans f inner.assignmentRule inner.assignmentRule := by
  refine (respanning.logical joins).bind fun target => (respans_accept .eq).bind fun seen => ?_
  refine respans_ite ?_ (respans_pure rfl)
  refine respans_last.bind fun equals => respanning.assignment.nested.bind fun value => ?_
  cases target with
  | var name span =>
    refine respans_pure ?_
    have spans := joins span value.span
    rw [← Expr.span_respan f] at spans
    exact congrArg (Expr.assign _ _) spans.symm
  | _ => exact (respans_change fun s => complain_respan s equals .target).bind fun _ => respans_pure rfl

theorem Respanning.expressionStatement (joins : Span.Joins f) (respanning : inner.Respanning f) :
    Respans f inner.expressionStatement inner.expressionStatement := by
  refine respanning.expression.bind fun value => (respans_expect _ _).bind fun semicolon => respans_pure ?_
  have spans := joins value.span semicolon.span
  rw [← Expr.span_respan f] at spans
  exact congrArg (Stmt.expression _) spans.symm

theorem Respanning.varRule (joins : Span.Joins f) (respanning : inner.Respanning f) :
    Respans f inner.varRule inner.varRule := by
  refine respans_last.bind fun start => (respans_expect _ _).bind fun name => ?_
  refine respans_choose (respans_accept .eq) (respanning.expression.map fun _ => rfl) (respans_pure rfl)
    fun initial => ?_
  exact (respans_expect _ _).bind fun _ => (respans_spanFrom joins rfl).bind fun _ => respans_pure rfl

theorem Respanning.block (respanning : inner.Respanning f) : Respans f inner.block inner.block := by
  refine Respans.bind (respanning.declaration.nested.many fun s => ?_) fun body => ?_
  · rw [sees_respan,atEnd_respan]
  · exact (respans_expect _ _).bind fun _ => respans_pure rfl

theorem parameter_respans : Respans f parameter parameter :=
  (respans_expect _ _).bind fun _ => respans_pure rfl

theorem Respanning.functionRule (joins : Span.Joins f) (respanning : inner.Respanning f) :
    Respans f inner.functionRule inner.functionRule := by
  refine respans_last.bind fun start => (respans_expect _ _).bind fun name => (respans_expect _ _).bind fun _ => ?_
  refine respans_choose (respans_sees _) (respans_pure rfl) parameter_respans.commaSeparated fun params => ?_
  refine (respans_expect _ _).bind fun _ => (respans_expect _ _).bind fun _ => respanning.block.bind fun body => ?_
  refine (respans_spanFrom joins rfl).bind fun span => respans_pure ?_
  exact congrArg (Stmt.function _ _ · _) (Stmt.respanAll_eq_map f body).symm

theorem Respanning.expressionUnless (respanning : inner.Respanning f) (kind : Token.Kind) :
    Respans f (inner.expressionUnless kind) (inner.expressionUnless kind) :=
  (respans_sees kind).bind fun _ => respans_ite (respans_pure rfl) (respanning.expression.map fun _ => rfl)

theorem forTree_respan (start : Option Stmt) (test : Option Expr) (semicolon : Span) (step : Option Expr)
    (body : Stmt) (span : Span) :
    forTree (start.map (Stmt.respan f)) (test.map (Expr.respan f)) (f semicolon) (step.map (Expr.respan f))
      (body.respan f) (f span) = (forTree start test semicolon step body span).respan f := by
  cases start <;> cases test <;> cases step <;>
    simp [forTree,Stmt.respan,Stmt.respanAll,Expr.respan,Expr.span_respan]

theorem Respanning.forStart (joins : Span.Joins f) (respanning : inner.Respanning f) :
    Respans f inner.forStart inner.forStart := by
  refine (respans_accept _).bind fun _ => respans_ite (respans_pure rfl) ?_
  refine (respans_accept _).bind fun _ => respans_ite ?_ ?_
  · exact (respanning.varRule joins).map fun _ => rfl
  · exact (respanning.expressionStatement joins).map fun _ => rfl

theorem Respanning.forRule (joins : Span.Joins f) (respanning : inner.Respanning f) :
    Respans f inner.forRule inner.forRule := by
  refine respans_last.bind fun first => (respans_expect _ _).bind fun _ => ?_
  refine (respanning.forStart joins).bind fun start => ?_
  refine (respanning.expressionUnless _).bind fun test => (respans_expect _ _).bind fun semicolon => ?_
  refine (respanning.expressionUnless _).bind fun step => (respans_expect _ _).bind fun _ => ?_
  refine respanning.statement.nested.bind fun body => (respans_spanFrom joins rfl).bind fun span => respans_pure ?_
  exact forTree_respan start test semicolon.span step body span

theorem Respanning.ifRule (joins : Span.Joins f) (respanning : inner.Respanning f) :
    Respans f inner.ifRule inner.ifRule := by
  refine respans_last.bind fun start => (respans_expect _ _).bind fun _ => respanning.expression.bind fun test => ?_
  refine (respans_expect _ _).bind fun _ => respanning.statement.nested.bind fun yes => ?_
  refine respans_choose (respans_accept _) (respanning.statement.nested.map fun _ => rfl) (respans_pure rfl)
    fun no => ?_
  refine (respans_spanFrom joins rfl).bind fun span => respans_pure ?_
  exact congrArg (Stmt.branch _ _ · _) (Stmt.respanOption_eq_map f no).symm

theorem Respanning.returnRule (joins : Span.Joins f) (respanning : inner.Respanning f) :
    Respans f inner.returnRule inner.returnRule := by
  refine respans_last.bind fun start => (respanning.expressionUnless _).bind fun value => ?_
  exact (respans_expect _ _).bind fun _ => (respans_spanFrom joins rfl).bind fun _ => respans_pure rfl

theorem Respanning.whileRule (joins : Span.Joins f) (respanning : inner.Respanning f) :
    Respans f inner.whileRule inner.whileRule := by
  refine respans_last.bind fun start => (respans_expect _ _).bind fun _ => respanning.expression.bind fun test => ?_
  refine (respans_expect _ _).bind fun _ => respanning.statement.nested.bind fun body => ?_
  exact (respans_spanFrom joins rfl).bind fun _ => respans_pure rfl

theorem Respanning.blockRule (joins : Span.Joins f) (respanning : inner.Respanning f) :
    Respans f inner.blockRule inner.blockRule := by
  refine respans_last.bind fun start => respanning.block.bind fun body => ?_
  refine (respans_spanFrom joins rfl).bind fun span => respans_pure ?_
  exact congrArg (Stmt.block · _) (Stmt.respanAll_eq_map f body).symm

theorem Respanning.statementRule (joins : Span.Joins f) (respanning : inner.Respanning f) :
    Respans f inner.statementRule inner.statementRule := by
  refine (respans_accept _).bind fun _ => respans_ite (respanning.forRule joins) ?_
  refine (respans_accept _).bind fun _ => respans_ite (respanning.ifRule joins) ?_
  refine (respans_accept _).bind fun _ => respans_ite (respanning.returnRule joins) ?_
  refine (respans_accept _).bind fun _ => respans_ite (respanning.whileRule joins) ?_
  exact (respans_accept _).bind fun _ => respans_ite (respanning.blockRule joins) (respanning.expressionStatement joins)

theorem Respanning.declarationRule (joins : Span.Joins f) (respanning : inner.Respanning f) :
    Respans f inner.declarationRule inner.declarationRule := by
  refine (respans_accept _).bind fun _ => respans_ite (respanning.functionRule joins) ?_
  exact (respans_accept _).bind fun _ => respans_ite (respanning.varRule joins) (respanning.statementRule joins)

theorem level_respanning (joins : Span.Joins f) : ∀ n, (level n).Respanning f
  | 0 => ⟨respans_fail _,respans_fail _,respans_fail _,respans_fail _⟩
  | n + 1 =>
    have respanning := level_respanning joins n
    ⟨respanning.assignmentRule joins,respanning.unaryRule joins,respanning.declarationRule joins,
      respanning.statementRule joins⟩

end Nested

theorem declarations_respan (joins : Span.Joins f) :
    Respans f (many State.atEnd declaration) (many State.atEnd declaration) :=
  (Nested.level_respanning joins maxNesting).declaration.nested.many atEnd_respan

/-- A text that is a program is one with any other spans too, the same but for them. -/
theorem ofTokens_forget {tokens others : List Token} {final last : Token} {program : Program}
    (marked : Marked tokens final) (marked' : Marked others last)
    (same : others.map (Token.respan Span.forget) = tokens.map (Token.respan Span.forget))
    (ends : last.respan Span.forget = final.respan Span.forget)
    (parsed : ofTokens (tokens ++ [final]) = .ok program) :
    ∃ other, ofTokens (others ++ [last]) = .ok other ∧ other.bare = program.bare := by
  have respans := declarations_respan Span.forget_joins
  have start : (startOf others last).respan Span.forget = (startOf tokens final).respan Span.forget := by
    unfold startOf State.respan
    rw [same,ends]
  have both := (respans (startOf others last)).symm.trans ((congrArg _ start).trans (respans (startOf tokens final)))
  rw [marked.ofTokens_eq] at parsed
  obtain ⟨made,clean⟩ := conclude_ok parsed
  rw [marked'.ofTokens_eq]
  obtain ⟨values,states⟩ := Prod.mk.inj both
  rw [made] at values
  have clean' : (many State.atEnd declaration (startOf others last)).2.problems = [] := by
    have problems := congrArg State.problems states
    simpa [State.respan,clean] using problems
  cases made' : (many State.atEnd declaration (startOf others last)).1 with
  | none =>
    rw [made'] at values
    cases values
  | some statements =>
    rw [made'] at values
    refine ⟨⟨statements⟩,?_,congrArg Program.mk ?_⟩
    · unfold conclude
      rw [made',clean']
    · have trees : statements.map (Stmt.respan Span.forget) = program.statements.map (Stmt.respan Span.forget) :=
        Option.some.inj values
      rwa [← Stmt.respanAll_eq_map,← Stmt.respanAll_eq_map,Stmt.respanAll_forget,Stmt.respanAll_forget] at trees

end Program

end TurtleScript
