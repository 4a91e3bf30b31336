import TurtleScript.Proofs.Lines

/-!
The spans in a tree. A parser makes spans in two ways only: it takes that of a token, or joins two that it has. So
whatever holds of the spans of all tokens and of the join of two such spans holds of every span in the trees that are
made of the tokens (`Parser.Yields`, one lemma for each step and each rule of the grammar). In particular every span in
a program is a place in its source text (`spans_placed`).
-/

namespace TurtleScript

mutual

/-- The spans of an expression and of all expressions in it. -/
def Expr.spans : Expr → List Span
  | .literal _ span | .var _ span => [span]
  | .grouping inner span => span :: inner.spans
  | .assign _ value span => span :: value.spans
  | .unary _ operand span => span :: operand.spans
  | .binary _ left right span | .logical _ left right span => span :: (left.spans ++ right.spans)
  | .call callee args span => span :: (callee.spans ++ Expr.spansAll args)
  | .array items span => span :: Expr.spansAll items
  | .index target position span => span :: (target.spans ++ position.spans)

def Expr.spansAll : List Expr → List Span
  | [] => []
  | e :: es => e.spans ++ Expr.spansAll es

end

def Expr.spansOption : Option Expr → List Span
  | some e => e.spans
  | none => []

mutual

/-- The spans of a statement and of all that is in it: statements, expressions, declared names and parameters. -/
def Stmt.spans : Stmt → List Span
  | .block body span => span :: Stmt.spansAll body
  | .expression value span => span :: value.spans
  | .function name params body span => span :: name.span :: (params.map Name.span ++ Stmt.spansAll body)
  | .branch test yes no span => span :: (test.spans ++ (yes.spans ++ Stmt.spansOption no))
  | .giveBack value span => span :: Expr.spansOption value
  | .var name initial span => span :: name.span :: Expr.spansOption initial
  | .loop test body span => span :: (test.spans ++ body.spans)

def Stmt.spansOption : Option Stmt → List Span
  | some s => s.spans
  | none => []

def Stmt.spansAll : List Stmt → List Span
  | [] => []
  | s :: ss => s.spans ++ Stmt.spansAll ss

end

def Program.spans (program : Program) : List Span := Stmt.spansAll program.statements

theorem Expr.mem_spansAll {span : Span} {es : List Expr} : span ∈ Expr.spansAll es ↔ ∃ e ∈ es, span ∈ e.spans := by
  induction es with
  | nil => simp [Expr.spansAll]
  | cons e es ih => simp [Expr.spansAll,ih]

theorem Stmt.mem_spansAll {span : Span} {ss : List Stmt} : span ∈ Stmt.spansAll ss ↔ ∃ s ∈ ss, span ∈ s.spans := by
  induction ss with
  | nil => simp [Stmt.spansAll]
  | cons s ss ih => simp [Stmt.spansAll,ih]

theorem Expr.span_mem (e : Expr) : e.span ∈ e.spans := by
  cases e <;> simp [Expr.spans,Expr.span]

theorem Stmt.span_mem (s : Stmt) : s.span ∈ s.spans := by
  cases s <;> simp [Stmt.spans,Stmt.span]

variable {S : Span → Prop}

def Expr.Within (S : Span → Prop) (e : Expr) : Prop := ∀ span ∈ e.spans, S span

def Stmt.Within (S : Span → Prop) (s : Stmt) : Prop := ∀ span ∈ s.spans, S span

theorem Expr.Within.span {e : Expr} (inside : e.Within S) : S e.span := inside e.span e.span_mem

theorem Expr.within_all {es : List Expr} (each : ∀ e ∈ es, e.Within S) : ∀ span ∈ Expr.spansAll es, S span := by
  intro span mem
  obtain ⟨e,inside,there⟩ := Expr.mem_spansAll.mp mem
  exact each e inside span there

theorem Stmt.within_all {ss : List Stmt} (each : ∀ s ∈ ss, s.Within S) : ∀ span ∈ Stmt.spansAll ss, S span := by
  intro span mem
  obtain ⟨s,inside,there⟩ := Stmt.mem_spansAll.mp mem
  exact each s inside span there

theorem Expr.within_option {e : Option Expr} (each : ∀ inner ∈ e, inner.Within S) :
    ∀ span ∈ Expr.spansOption e, S span := by
  cases e with
  | none => exact nofun
  | some inner => exact each inner rfl

theorem Stmt.within_option {s : Option Stmt} (each : ∀ inner ∈ s, inner.Within S) :
    ∀ span ∈ Stmt.spansOption s, S span := by
  cases s with
  | none => exact nofun
  | some inner => exact each inner rfl

namespace Program

open TurtleScript.Program.Parser

/-- The spans of all tokens that a parse can still come across are such. -/
structure State.Within (S : Span → Prop) (s : State) : Prop where
  rest : ∀ token ∈ s.rest, S token.span
  final : S s.final.span
  last : S s.last.span

namespace State.Within

variable {s : State}

theorem next (inside : s.Within S) : S s.next.span := by
  unfold State.next
  cases tokens : s.rest with
  | nil => exact inside.final
  | cons token later => exact inside.rest token (by simp [tokens])

theorem advance (inside : s.Within S) : s.advance.Within S := by
  unfold State.advance
  split
  · exact inside
  case h_2 token later tokens =>
    refine ⟨fun other mem => inside.rest other ?_,inside.final,inside.rest token ?_⟩
    · simp [tokens,mem]
    · simp [tokens]

theorem skipFrom {last : Token} {rest : List Token} (here : S last.span) (each : ∀ token ∈ rest, S token.span) :
    S (State.skipFrom last rest).1.span ∧ ∀ token ∈ (State.skipFrom last rest).2, S token.span := by
  induction rest generalizing last with
  | nil => exact ⟨here,each⟩
  | cons token rest ih =>
    unfold State.skipFrom
    split
    · exact ⟨here,each⟩
    · exact ih (each token (.head _)) fun other mem => each other (.tail _ mem)

theorem recover (inside : s.Within S) : s.recover.Within S := by
  obtain ⟨last,rest⟩ := skipFrom inside.advance.last inside.advance.rest
  exact ⟨rest,inside.advance.final,last⟩

end State.Within

namespace Parser

variable {α β : Type} {Q : α → Prop} {R : β → Prop} {p q : Parser α} {f : α → Parser β}

/-- From tokens with such spans the parser makes values of a kind, and leaves such tokens behind. -/
def Yields (S : Span → Prop) (p : Parser α) (Q : α → Prop) : Prop :=
  ∀ s : State, s.Within S → (p s).2.Within S ∧ ∀ a, (p s).1 = some a → Q a

def Whatever (_ : α) : Prop := True

theorem yields_pure {a : α} (holds : Q a) : Yields S (pure a) Q := by
  refine fun s inside => ⟨inside,fun b made => ?_⟩
  cases made
  exact holds

theorem yields_fail (complaint : Complaint) : Yields S (fail complaint) Q :=
  fun _ inside => ⟨⟨inside.rest,inside.final,inside.last⟩,nofun⟩

theorem yields_look {g : State → α} (holds : ∀ s : State, s.Within S → Q (g s)) : Yields S (look g) Q := by
  refine fun s inside => ⟨inside,fun a made => ?_⟩
  cases made
  exact holds s inside

theorem yields_next : Yields S (look State.next) fun token => S token.span :=
  yields_look fun _ inside => inside.next

theorem yields_last : Yields S last fun token => S token.span := yields_look fun _ inside => inside.last

theorem yields_sees (kind : Token.Kind) : Yields S (sees kind) Whatever := yields_look fun _ _ => trivial

theorem yields_spanFrom (closed : ∀ a b, S a → S b → S (a.join b)) {start : Span} (starts : S start) :
    Yields S (spanFrom start) S :=
  yields_look fun s inside => closed start s.last.span starts inside.last

theorem yields_advance : Yields S advance Whatever := fun _ inside => ⟨inside.advance,fun _ _ => trivial⟩

theorem yields_complain (token : Token) (complaint : Complaint) :
    Yields S (change (·.complain token complaint)) Whatever :=
  fun _ inside => ⟨⟨inside.rest,inside.final,inside.last⟩,fun _ _ => trivial⟩

theorem yields_accept (kind : Token.Kind) : Yields S (accept kind) Whatever := by
  intro s inside
  unfold accept
  split
  · exact ⟨inside.advance,fun _ _ => trivial⟩
  · exact ⟨inside,fun _ _ => trivial⟩

theorem yields_expect (kind : Token.Kind) (complaint : Complaint) :
    Yields S (expect kind complaint) fun token => S token.span := by
  intro s inside
  unfold expect
  split
  · refine ⟨inside.advance,fun token made => ?_⟩
    cases made
    exact inside.next
  · exact yields_fail complaint s inside

theorem yields_deepen : Yields S deepen Whatever := by
  intro s inside
  unfold deepen
  split
  · exact yields_fail .nesting _ ⟨inside.rest,inside.final,inside.last⟩
  · exact ⟨⟨inside.rest,inside.final,inside.last⟩,fun _ _ => trivial⟩

theorem Yields.bind (first : Yields S p Q) (rest : ∀ a, Q a → Yields S (f a) R) : Yields S (p >>= f) R := by
  intro s inside
  obtain ⟨after,made⟩ := first s inside
  rcases out : p s with ⟨_ | a,t⟩
  · rw [out] at after
    rw [bind_none out]
    exact ⟨after,nofun⟩
  · rw [out] at after made
    rw [bind_some out]
    exact rest a (made a rfl) t after

theorem Yields.map (yields : Yields S p Q) {g : α → β} (holds : ∀ a, Q a → R (g a)) : Yields S (g <$> p) R :=
  yields.bind fun a made => yields_pure (holds a made)

theorem yields_ite {c : Bool} (yes : Yields S p Q) (no : Yields S q Q) : Yields S (if c then p else q) Q := by
  cases c with
  | true => exact yes
  | false => exact no

theorem yields_choose {c : Parser Bool} (choice : Yields S c Whatever) (yes : Yields S p Q) (no : Yields S q Q)
    (rest : ∀ a, Q a → Yields S (f a) R) :
    Yields S
      (do
        let a ← if ← c then p else q
        f a) R := by
  refine choice.bind fun chosen _ => ?_
  cases chosen with
  | true => exact yes.bind rest
  | false => exact no.bind rest

theorem Yields.nested (yields : Yields S p Q) : Yields S (nested p) Q := by
  intro s inside
  by_cases full : maxNesting ≤ s.depth
  · rw [nested_full full]
    exact ⟨⟨inside.rest,inside.final,inside.last⟩,nofun⟩
  · obtain ⟨after,made⟩ := yields { s with depth := s.depth + 1 } ⟨inside.rest,inside.final,inside.last⟩
    rw [nested_free full (t := (p { s with depth := s.depth + 1 }).2) rfl]
    exact ⟨⟨after.rest,after.final,after.last⟩,made⟩

theorem Yields.levelled (yields : Yields S p Q) : Yields S (levelled p) Q := by
  intro s inside
  obtain ⟨after,made⟩ := yields s inside
  rcases out : p s with ⟨_ | a,t⟩
  · rw [out] at after
    rw [levelled_none out]
    exact ⟨after,nofun⟩
  · rw [out] at after made
    rw [levelled_some out]
    exact ⟨⟨after.rest,after.final,after.last⟩,made⟩

/-! ### Repetition -/

theorem yields_extend {step : α → Parser (Option α)} (steps : ∀ a, Q a → Yields S (step a) fun next => ∀ b ∈ next, Q b)
    {a : α} (holds : Q a) : Yields S (extend step a) Q := by
  have within : ∀ (bound : List Token) (a : α), Q a → Yields S (extendWithin step bound a) Q := by
    intro bound
    induction bound with
    | nil => exact fun a holds => yields_pure holds
    | cons _ bound ih =>
      refine fun a holds => (steps a holds).bind fun next extended => ?_
      cases next with
      | some b => exact ih b (extended b rfl)
      | none => exact yields_pure holds
  exact fun s => within s.rest a holds s

theorem Yields.commaSeparated (yields : Yields S p Q) : Yields S (commaSeparated p) fun items => ∀ a ∈ items, Q a := by
  have within : ∀ bound : List Token, Yields S (commaSeparatedWithin p bound) fun items => ∀ a ∈ items, Q a := by
    intro bound
    induction bound with
    | nil => exact yields.bind fun a holds => yields_pure (by simpa using holds)
    | cons _ bound ih =>
      refine yields.bind fun first holds => (yields_accept .comma).bind fun seen _ => yields_ite ?_ ?_
      · refine ih.bind fun later each => yields_pure ?_
        exact List.forall_mem_cons.mpr ⟨holds,each⟩
      · exact yields_pure (by simpa using holds)
  exact fun s => within s.rest s

theorem Yields.many (yields : Yields S p Q) (stop : State → Bool) :
    Yields S (many stop p) fun items => ∀ a ∈ items, Q a := by
  have within : ∀ bound : List Token, Yields S (manyWithin stop p bound) fun items => ∀ a ∈ items, Q a := by
    intro bound
    induction bound with
    | nil => exact yields_pure nofun
    | cons token bound ih =>
      intro s inside
      obtain ⟨after,made⟩ := yields s inside
      cases goesOn : stop s with
      | true =>
        rw [manyWithin_stop goesOn]
        refine ⟨inside,fun items none => ?_⟩
        cases none
        exact nofun
      | false =>
        rcases out : p s with ⟨_ | a,t⟩
        · rw [out] at after
          rw [manyWithin_fault goesOn out]
          split
          · exact ⟨after,nofun⟩
          · exact ih t.recover after.recover
        · rw [out] at after made
          rw [manyWithin_item goesOn out]
          refine ih.map (fun later each => ?_) t after
          exact List.forall_mem_cons.mpr ⟨made a rfl,each⟩
  exact fun s => within s.rest s

end Parser

/-! ### Rules -/

/-- The rules that other rules call make trees with such spans only. -/
structure Nested.Spanning (S : Span → Prop) (inner : Nested) : Prop where
  /-- Two such spans join to one. -/
  closed : ∀ a b, S a → S b → S (a.join b)
  assignment : Yields S inner.assignment (Expr.Within S)
  unary : Yields S inner.unary (Expr.Within S)
  declaration : Yields S inner.declaration (Stmt.Within S)
  statement : Yields S inner.statement (Stmt.Within S)

namespace Nested

variable {inner : Nested}

theorem Spanning.expression (spanning : inner.Spanning S) : Yields S inner.expression (Expr.Within S) :=
  spanning.assignment.nested

theorem Spanning.arguments (spanning : inner.Spanning S) (close : Token.Kind) (complaint : Complaint) :
    Yields S (inner.arguments close complaint) fun items => ∀ e ∈ items, e.Within S := by
  refine yields_choose (yields_sees close) (yields_pure nofun) spanning.expression.commaSeparated fun items each => ?_
  exact (yields_expect close complaint).bind fun _ _ => yields_pure each

theorem leaf_within {token : Token} {e : Expr} (is : leaf? token = .ok e) (here : S token.span) : e.Within S := by
  have alone : e.spans = [token.span] := by
    unfold leaf? at is
    split at is
    case h_4 =>
      split at is
      · cases is
        rfl
      · cases is
        rfl
      · cases is
    case h_5 =>
      split at is
      · cases is
        rfl
      · cases is
        rfl
      · cases is
    all_goals
      cases is
      try rfl
  unfold Expr.Within
  rw [alone]
  simpa using here

theorem Spanning.primary (spanning : inner.Spanning S) : Yields S inner.primary (Expr.Within S) := by
  refine yields_next.bind fun token here => ?_
  split
  · refine yields_advance.bind fun _ _ => spanning.expression.bind fun content inside => ?_
    refine (yields_expect _ _).bind fun _ _ => (yields_spanFrom spanning.closed here).bind fun span around => ?_
    exact yields_pure (List.forall_mem_cons.mpr ⟨around,inside⟩)
  · refine yields_advance.bind fun _ _ => (spanning.arguments _ _).bind fun items each => ?_
    refine (yields_spanFrom spanning.closed here).bind fun span around => yields_pure ?_
    exact List.forall_mem_cons.mpr ⟨around,Expr.within_all each⟩
  · split
    · exact yields_advance.bind fun _ _ => yields_pure (leaf_within ‹_› here)
    · exact yields_fail _

theorem Spanning.suffixed (spanning : inner.Spanning S) {target : Expr} (given : target.Within S) :
    Yields S (inner.suffixed target) fun next => ∀ e ∈ next, e.Within S := by
  have extended : ∀ e : Expr, e.Within S → ∀ other ∈ some e, other.Within S := by
    intro e inside other mem
    cases mem
    exact inside
  refine (yields_sees .leftParen).bind fun opens _ => yields_ite ?_ ?_
  · refine yields_deepen.bind fun _ _ => yields_advance.bind fun _ _ => (spanning.arguments _ _).bind fun args each => ?_
    refine (yields_spanFrom spanning.closed given.span).bind fun span around => yields_pure (extended _ ?_)
    exact List.forall_mem_cons.mpr ⟨around,List.forall_mem_append.mpr ⟨given,Expr.within_all each⟩⟩
  · refine (yields_sees .leftBracket).bind fun opens _ => yields_ite ?_ (yields_pure nofun)
    refine yields_deepen.bind fun _ _ => yields_advance.bind fun _ _ => spanning.expression.bind fun index inside => ?_
    refine (yields_expect _ _).bind fun _ _ => (yields_spanFrom spanning.closed given.span).bind fun span around => ?_
    refine yields_pure (extended _ ?_)
    exact List.forall_mem_cons.mpr ⟨around,List.forall_mem_append.mpr ⟨given,inside⟩⟩

theorem Spanning.call (spanning : inner.Spanning S) : Yields S inner.call (Expr.Within S) :=
  (spanning.primary.bind fun _ inside => yields_extend (fun _ => spanning.suffixed) inside).levelled

theorem Spanning.joined (spanning : inner.Spanning S) {left right : Expr} (first : left.Within S)
    (second : right.Within S) : ∀ span ∈ left.span.join right.span :: (left.spans ++ right.spans), S span :=
  List.forall_mem_cons.mpr ⟨spanning.closed _ _ first.span second.span,List.forall_mem_append.mpr ⟨first,second⟩⟩

theorem Spanning.unaryRule (spanning : inner.Spanning S) : Yields S inner.unaryRule (Expr.Within S) := by
  refine yields_next.bind fun token here => ?_
  split
  · refine yields_advance.bind fun _ _ => spanning.unary.nested.bind fun operand inside => yields_pure ?_
    exact List.forall_mem_cons.mpr ⟨spanning.closed _ _ here inside.span,inside⟩
  · exact spanning.call

theorem Spanning.operand (spanning : inner.Spanning S) {op? : Token.Kind → Option BinaryOp} {tighter : Parser Expr}
    (yields : Yields S tighter (Expr.Within S)) {left : Expr} (given : left.Within S) :
    Yields S (operand op? tighter left) fun next => ∀ e ∈ next, e.Within S := by
  refine yields_next.bind fun token here => ?_
  split
  · refine yields_deepen.bind fun _ _ => yields_advance.bind fun _ _ => yields.bind fun right inside => yields_pure ?_
    intro e mem
    cases mem
    exact spanning.joined given inside
  · exact yields_pure nofun

theorem Spanning.binaryLevel (spanning : inner.Spanning S) {op? : Token.Kind → Option BinaryOp}
    {tighter : Parser Expr} (yields : Yields S tighter (Expr.Within S)) :
    Yields S (binaryLevel op? tighter) (Expr.Within S) :=
  (yields.bind fun _ inside => yields_extend (fun _ => spanning.operand yields) inside).levelled

theorem Spanning.equality (spanning : inner.Spanning S) : Yields S inner.equality (Expr.Within S) :=
  spanning.binaryLevel (spanning.binaryLevel (spanning.binaryLevel (spanning.binaryLevel spanning.unaryRule)))

theorem Spanning.logicalOperand (spanning : inner.Spanning S) {left : Expr} (given : left.Within S) :
    Yields S (inner.logicalOperand left) fun next => ∀ e ∈ next, e.Within S := by
  refine yields_next.bind fun token here => ?_
  split
  · refine yields_advance.bind fun _ _ => yields_deepen.bind fun _ _ => spanning.equality.bind fun right inside => ?_
    refine yields_pure fun e mem => ?_
    cases mem
    exact spanning.joined given inside
  · exact yields_pure nofun

theorem Spanning.logical (spanning : inner.Spanning S) : Yields S inner.logical (Expr.Within S) :=
  (spanning.equality.bind fun _ inside => yields_extend (fun _ => spanning.logicalOperand) inside).levelled

theorem Spanning.assignmentRule (spanning : inner.Spanning S) : Yields S inner.assignmentRule (Expr.Within S) := by
  refine spanning.logical.bind fun target given => (yields_accept .eq).bind fun seen _ => ?_
  refine yields_ite ?_ (yields_pure given)
  refine yields_last.bind fun equals _ => spanning.assignment.nested.bind fun value inside => ?_
  cases target with
  | var name span =>
    refine yields_pure (List.forall_mem_cons.mpr ⟨?_,inside⟩)
    exact spanning.closed _ _ given.span inside.span
  | _ => exact (yields_complain equals .target).bind fun _ _ => yields_pure given

theorem Spanning.expressionStatement (spanning : inner.Spanning S) :
    Yields S inner.expressionStatement (Stmt.Within S) := by
  refine spanning.expression.bind fun value inside => (yields_expect _ _).bind fun semicolon here => yields_pure ?_
  exact List.forall_mem_cons.mpr ⟨spanning.closed _ _ inside.span here,inside⟩

theorem Spanning.optional (spanning : inner.Spanning S) :
    Yields S (some <$> inner.expression) fun e => ∀ inner ∈ e, inner.Within S := by
  refine spanning.expression.map fun value inside other mem => ?_
  cases mem
  exact inside

theorem Spanning.varRule (spanning : inner.Spanning S) : Yields S inner.varRule (Stmt.Within S) := by
  refine yields_last.bind fun start starts => (yields_expect _ _).bind fun name here => ?_
  refine yields_choose (yields_accept .eq) spanning.optional (yields_pure nofun) fun initial each => ?_
  refine (yields_expect _ _).bind fun _ _ => (yields_spanFrom spanning.closed starts).bind fun span around => ?_
  exact yields_pure (List.forall_mem_cons.mpr ⟨around,List.forall_mem_cons.mpr ⟨here,Expr.within_option each⟩⟩)

theorem Spanning.block (spanning : inner.Spanning S) : Yields S inner.block fun body => ∀ s ∈ body, s.Within S :=
  (spanning.declaration.nested.many _).bind fun _ each => (yields_expect _ _).bind fun _ _ => yields_pure each

theorem parameter_yields : Yields S parameter fun name => S name.span :=
  (yields_expect _ _).bind fun _ here => yields_pure here

theorem Spanning.functionRule (spanning : inner.Spanning S) : Yields S inner.functionRule (Stmt.Within S) := by
  refine yields_last.bind fun start starts => (yields_expect _ _).bind fun name here => ?_
  refine (yields_expect _ _).bind fun _ _ => ?_
  refine yields_choose (yields_sees _) (yields_pure nofun) parameter_yields.commaSeparated fun params listed => ?_
  refine (yields_expect _ _).bind fun _ _ => (yields_expect _ _).bind fun _ _ => spanning.block.bind fun body each => ?_
  refine (yields_spanFrom spanning.closed starts).bind fun span around => yields_pure ?_
  have params : ∀ span ∈ params.map Name.span, S span := by
    intro span mem
    obtain ⟨name,there,rfl⟩ := List.mem_map.mp mem
    exact listed name there
  refine List.forall_mem_cons.mpr ⟨around,List.forall_mem_cons.mpr ⟨here,?_⟩⟩
  exact List.forall_mem_append.mpr ⟨params,Stmt.within_all each⟩

theorem Spanning.expressionUnless (spanning : inner.Spanning S) (kind : Token.Kind) :
    Yields S (inner.expressionUnless kind) fun e => ∀ inner ∈ e, inner.Within S :=
  (yields_sees kind).bind fun _ _ => yields_ite (yields_pure nofun) spanning.optional

/-- The nodes that a `for` loop adds have the span of the loop, of its step or of the semicolon. -/
theorem forTree_within {start : Option Stmt} {test : Option Expr} {semicolon : Span} {step : Option Expr} {body : Stmt}
    {span : Span} (starts : ∀ s ∈ start, s.Within S) (tested : ∀ e ∈ test, e.Within S) (parted : S semicolon)
    (stepped : ∀ e ∈ step, e.Within S) (inside : body.Within S) (around : S span) :
    (forTree start test semicolon step body span).Within S := by
  have condition : (test.getD (.literal (.bool true) semicolon)).Within S := by
    cases test with
    | none => simpa [Expr.Within,Expr.spans] using parted
    | some e => exact tested e rfl
  have pair : ∀ first second : Stmt, first.Within S → second.Within S → (Stmt.block [first,second] span).Within S := by
    intro first second inside inside'
    have both : ∀ s ∈ [first,second], s.Within S := by simp [inside,inside']
    exact List.forall_mem_cons.mpr ⟨around,Stmt.within_all both⟩
  have stepping : ∀ e ∈ step, (Stmt.block [body,.expression e e.span] span).Within S := fun e mem =>
    pair _ _ inside (List.forall_mem_cons.mpr ⟨(stepped e mem).span,stepped e mem⟩)
  have loop : ∀ round : Stmt, round.Within S →
      (Stmt.loop (test.getD (.literal (.bool true) semicolon)) round span).Within S := fun round inside =>
    List.forall_mem_cons.mpr ⟨around,List.forall_mem_append.mpr ⟨condition,inside⟩⟩
  cases start with
  | none =>
    cases step with
    | none => exact loop _ inside
    | some e => exact loop _ (stepping e rfl)
  | some s =>
    cases step with
    | none => exact pair _ _ (starts s rfl) (loop _ inside)
    | some e => exact pair _ _ (starts s rfl) (loop _ (stepping e rfl))

theorem Spanning.forStart (spanning : inner.Spanning S) :
    Yields S inner.forStart fun start => ∀ s ∈ start, s.Within S := by
  have some : ∀ s : Stmt, s.Within S → ∀ other ∈ some s, other.Within S := by
    intro s inside other mem
    cases mem
    exact inside
  refine (yields_accept _).bind fun _ _ => yields_ite (yields_pure nofun) ?_
  refine (yields_accept _).bind fun _ _ => yields_ite ?_ ?_
  · exact spanning.varRule.map some
  · exact spanning.expressionStatement.map some

theorem Spanning.forRule (spanning : inner.Spanning S) : Yields S inner.forRule (Stmt.Within S) := by
  refine yields_last.bind fun first firsts => (yields_expect _ _).bind fun _ _ => ?_
  refine spanning.forStart.bind fun start starts => ?_
  refine (spanning.expressionUnless _).bind fun test tested => (yields_expect _ _).bind fun semicolon parted => ?_
  refine (spanning.expressionUnless _).bind fun step stepped => (yields_expect _ _).bind fun _ _ => ?_
  refine spanning.statement.nested.bind fun body inside => ?_
  refine (yields_spanFrom spanning.closed firsts).bind fun span around => yields_pure ?_
  exact forTree_within starts tested parted stepped inside around

theorem Spanning.ifRule (spanning : inner.Spanning S) : Yields S inner.ifRule (Stmt.Within S) := by
  refine yields_last.bind fun start starts => (yields_expect _ _).bind fun _ _ => ?_
  refine spanning.expression.bind fun test tested => (yields_expect _ _).bind fun _ _ => ?_
  refine spanning.statement.nested.bind fun yes first => ?_
  have other : Yields S (some <$> nested inner.statement) fun no => ∀ s ∈ no, s.Within S := by
    refine spanning.statement.nested.map fun s inside other mem => ?_
    cases mem
    exact inside
  refine yields_choose (yields_accept _) other (yields_pure nofun) fun no second => ?_
  refine (yields_spanFrom spanning.closed starts).bind fun span around => yields_pure ?_
  refine List.forall_mem_cons.mpr ⟨around,List.forall_mem_append.mpr ⟨tested,?_⟩⟩
  exact List.forall_mem_append.mpr ⟨first,Stmt.within_option second⟩

theorem Spanning.returnRule (spanning : inner.Spanning S) : Yields S inner.returnRule (Stmt.Within S) := by
  refine yields_last.bind fun start starts => (spanning.expressionUnless _).bind fun value each => ?_
  refine (yields_expect _ _).bind fun _ _ => (yields_spanFrom spanning.closed starts).bind fun span around => ?_
  exact yields_pure (List.forall_mem_cons.mpr ⟨around,Expr.within_option each⟩)

theorem Spanning.whileRule (spanning : inner.Spanning S) : Yields S inner.whileRule (Stmt.Within S) := by
  refine yields_last.bind fun start starts => (yields_expect _ _).bind fun _ _ => ?_
  refine spanning.expression.bind fun test tested => (yields_expect _ _).bind fun _ _ => ?_
  refine spanning.statement.nested.bind fun body inside => ?_
  refine (yields_spanFrom spanning.closed starts).bind fun span around => yields_pure ?_
  exact List.forall_mem_cons.mpr ⟨around,List.forall_mem_append.mpr ⟨tested,inside⟩⟩

theorem Spanning.blockRule (spanning : inner.Spanning S) : Yields S inner.blockRule (Stmt.Within S) := by
  refine yields_last.bind fun start starts => spanning.block.bind fun body each => ?_
  refine (yields_spanFrom spanning.closed starts).bind fun span around => yields_pure ?_
  exact List.forall_mem_cons.mpr ⟨around,Stmt.within_all each⟩

theorem Spanning.statementRule (spanning : inner.Spanning S) : Yields S inner.statementRule (Stmt.Within S) := by
  refine (yields_accept _).bind fun _ _ => yields_ite spanning.forRule ?_
  refine (yields_accept _).bind fun _ _ => yields_ite spanning.ifRule ?_
  refine (yields_accept _).bind fun _ _ => yields_ite spanning.returnRule ?_
  refine (yields_accept _).bind fun _ _ => yields_ite spanning.whileRule ?_
  exact (yields_accept _).bind fun _ _ => yields_ite spanning.blockRule spanning.expressionStatement

theorem Spanning.declarationRule (spanning : inner.Spanning S) : Yields S inner.declarationRule (Stmt.Within S) := by
  refine (yields_accept _).bind fun _ _ => yields_ite spanning.functionRule ?_
  exact (yields_accept _).bind fun _ _ => yields_ite spanning.varRule spanning.statementRule

theorem level_spanning (closed : ∀ a b, S a → S b → S (a.join b)) : ∀ n, (level n).Spanning S
  | 0 => ⟨closed,yields_fail _,yields_fail _,yields_fail _,yields_fail _⟩
  | n + 1 =>
    have spanning := level_spanning closed n
    ⟨closed,spanning.assignmentRule,spanning.unaryRule,spanning.declarationRule,spanning.statementRule⟩

end Nested

theorem spans_of_ofTokens {tokens : List Token} {final : Token} {program : Program} (marked : Marked tokens final)
    (closed : ∀ a b, S a → S b → S (a.join b)) (each : ∀ token ∈ tokens, S token.span) (ends : S final.span)
    (parsed : ofTokens (tokens ++ [final]) = .ok program) : ∀ span ∈ program.spans, S span := by
  rw [marked.ofTokens_eq] at parsed
  have yields := ((Nested.level_spanning closed maxNesting).declaration.nested.many State.atEnd)
  exact Stmt.within_all ((yields (startOf tokens final) ⟨each,ends,ends⟩).2 _ (conclude_ok parsed).1)

end Program

/-- A span is a place in a source text: it lies inside, and its line counts the newlines in front of it. -/
structure Span.PlacedIn (source : String) (span : Span) : Prop where
  ordered : span.start ≤ span.stop
  inside : span.stop ≤ source.utf8ByteSize
  line : span.line = 1 + (String.Pos.Raw.extract source 0 ⟨span.start⟩).toList.count '\n'

namespace Span

variable {source : String}

theorem PlacedIn.join {a b : Span} (first : a.PlacedIn source) (second : b.PlacedIn source) :
    (a.join b).PlacedIn source := by
  have ordered := first.ordered
  have ordered' := second.ordered
  refine ⟨?_,?_,?_⟩
  · rw [join_start,join_stop]
    omega
  · rw [join_stop]
    exact Nat.max_le.mpr ⟨first.inside,second.inside⟩
  · unfold Span.join
    dsimp only
    split
    · exact first.line
    · exact second.line

theorem placed_of_token {token : Token} (placed : Token.Placed source (.token token)) : token.span.PlacedIn source := by
  refine ⟨Nat.le_of_lt placed.nonempty,?_,placed.line⟩
  exact placed.stops.le_rawEndPos

theorem placed_mark (source : String) : (Program.mark source).span.PlacedIn source := by
  obtain ⟨_,last⟩ := Token.items_account [] source.toList
  rw [List.nil_append,Token.placeBehind_eq source.toList] at last
  have size : String.utf8Len source.toList = source.utf8ByteSize := by
    rw [← String.utf8ByteSize_ofList,String.ofList_toList]
  have whole := String.extract_of_valid [] source.toList []
  rw [List.nil_append,List.append_nil,String.utf8Len_nil,Nat.zero_add,String.ofList_toList] at whole
  have span : (Program.mark source).span = .point source.utf8ByteSize (1 + source.toList.count '\n') := by
    show Span.point (Token.items (Token.placeBehind []) source.toList).2.offset
      (Token.items (Token.placeBehind []) source.toList).2.line = _
    rw [last,size]
  rw [span]
  refine ⟨Nat.le_refl _,Nat.le_refl _,?_⟩
  show 1 + source.toList.count '\n' = 1 + (String.Pos.Raw.extract source ⟨0⟩ ⟨source.utf8ByteSize⟩).toList.count '\n'
  rw [← size,whole]

end Span

theorem spans_placed {source : String} {program : Program} (compiles : Program.compile source = .ok program) :
    ∀ span ∈ program.spans, span.PlacedIn source := by
  have covers := (Token.items_account [] source.toList).1.covers
  obtain ⟨parsed,_⟩ := Program.compile_ok compiles
  rw [Program.tokens_eq] at parsed
  refine Program.spans_of_ofTokens (Program.words_marked source) (fun _ _ => Span.PlacedIn.join) (fun token mem => ?_)
    (Span.placed_mark source) parsed
  exact Span.placed_of_token (covers.placed _ (Program.item_of_word mem))

end TurtleScript
