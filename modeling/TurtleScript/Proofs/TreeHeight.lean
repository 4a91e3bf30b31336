import Mathlib.Tactic.Ring
import TurtleScript.Program.Grammar
import TurtleScript.Proofs.Levels

/-!
How high the trees of programs are. The cap on nesting counts one level for each rule that calls itself
and for each operator of a repetition, but it gives the levels of a repetition back at its end, while the
tree keeps them: on each of the six levels of operators an expression can grow by as much as there are
levels left. So the height of a tree is bounded by the square of the cap (`height_le_of_ofTokens`) and not
by the cap itself (`ofTokens_above_cap`).
-/

namespace TurtleScript

mutual

/-- The number of nodes on the longest way down from an expression, itself included. -/
def Expr.height : Expr → Nat
  | .literal _ _ => 1
  | .var _ _ => 1
  | .grouping inner _ => inner.height + 1
  | .assign _ value _ => value.height + 1
  | .unary _ operand _ => operand.height + 1
  | .binary _ left right _ => max left.height right.height + 1
  | .logical _ left right _ => max left.height right.height + 1
  | .call callee args _ => max callee.height (Expr.heightAll args) + 1
  | .array items _ => Expr.heightAll items + 1
  | .index target position _ => max target.height position.height + 1

def Expr.heightAll : List Expr → Nat
  | [] => 0
  | e :: es => max e.height (Expr.heightAll es)

end

def Expr.heightOption (e : Option Expr) : Nat := (e.map Expr.height).getD 0

mutual

/-- The number of nodes on the longest way down from a statement, itself included. -/
def Stmt.height : Stmt → Nat
  | .expression value _ => value.height + 1
  | .var _ initial _ => Expr.heightOption initial + 1
  | .giveBack value _ => Expr.heightOption value + 1
  | .block body _ => Stmt.heightAll body + 1
  | .function _ _ body _ => Stmt.heightAll body + 1
  | .branch test yes no _ => max test.height (max yes.height (Stmt.heightOption no)) + 1
  | .loop test body _ => max test.height body.height + 1

def Stmt.heightOption : Option Stmt → Nat
  | some s => s.height
  | none => 0

def Stmt.heightAll : List Stmt → Nat
  | [] => 0
  | s :: ss => max s.height (Stmt.heightAll ss)

end

-- The equations of the heights are made here, once for all the proofs that follow.
attribute [grind =] Expr.height Expr.heightAll Expr.heightOption Stmt.height Stmt.heightOption Stmt.heightAll

/-- The number of statements and expressions on the longest way from the top of a program to a leaf. -/
def Program.height (program : Program) : Nat := Stmt.heightAll program.statements

theorem Expr.heightAll_le {es : List Expr} {bound : Nat} (each : ∀ e ∈ es, e.height ≤ bound) :
    Expr.heightAll es ≤ bound := by
  induction es with
  | nil => simp [Expr.heightAll]
  | cons e es ih =>
    have first : e.height ≤ bound := each e (by simp)
    have later : Expr.heightAll es ≤ bound := ih fun f member => each f (by simp [member])
    rw [Expr.heightAll]
    omega

theorem Stmt.heightAll_le {ss : List Stmt} {bound : Nat} (each : ∀ s ∈ ss, s.height ≤ bound) :
    Stmt.heightAll ss ≤ bound := by
  induction ss with
  | nil => simp [Stmt.heightAll]
  | cons s ss ih =>
    have first : s.height ≤ bound := each s (by simp)
    have later : Stmt.heightAll ss ≤ bound := ih fun t member => each t (by simp [member])
    rw [Stmt.heightAll]
    omega

namespace Program

open TurtleScript.Program.Parser

/-- The height of a leaf, an array or an expression in parentheses, with a number of levels left. -/
def tallestPrimary : Nat → Nat
  | 0 => 1
  | n + 1 => tallestPrimary n + 6 * n + 1

/-- The height of an expression of so many levels of repetition, with a number of levels left. There are
six of them, for calls, products, sums, comparisons, equalities and conjunctions, and each can grow the
expression by the levels left. -/
def tallest (repetitions n : Nat) : Nat := tallestPrimary n + repetitions * n

/-- The height of a statement with a number of levels left. A `for` loop puts its step below four nodes. -/
def tallestStmt : Nat → Nat
  | 0 => 1
  | n + 1 => tallest 6 n + 4

theorem tallestPrimary_succ (n : Nat) : tallestPrimary (n + 1) = tallest 6 n + 1 := rfl

theorem tallestPrimary_mono {m n : Nat} (le : m ≤ n) : tallestPrimary m ≤ tallestPrimary n := by
  induction le with
  | refl => exact Nat.le_refl _
  | step _ ih =>
    rw [tallestPrimary]
    omega

theorem tallestPrimary_pos (n : Nat) : 1 ≤ tallestPrimary n := tallestPrimary_mono (Nat.zero_le n)

theorem tallest_mono (repetitions : Nat) {m n : Nat} (le : m ≤ n) : tallest repetitions m ≤ tallest repetitions n :=
  Nat.add_le_add (tallestPrimary_mono le) (Nat.mul_le_mul_left _ le)

theorem tallest_succ (repetitions n : Nat) : tallest (repetitions + 1) n = tallest repetitions n + n := by
  unfold tallest
  rw [Nat.succ_mul,Nat.add_assoc]

theorem tallestStmt_succ (n : Nat) : tallestStmt n + 3 ≤ tallestStmt (n + 1) := by
  cases n with
  | zero => decide
  | succ n =>
    have deeper : tallest 6 (n + 1) = tallest 6 n + 1 + 6 * (n + 1) := by
      rw [tallest,tallestPrimary_succ]
    simp only [tallestStmt]
    omega

theorem tallest_eq (n : Nat) : tallest 6 n = 3 * n ^ 2 + 4 * n + 1 := by
  induction n with
  | zero => rfl
  | succ n ih =>
    calc tallest 6 (n + 1) = tallest 6 n + 1 + 6 * (n + 1) := by rw [tallest,tallestPrimary_succ]
      _ = 3 * n ^ 2 + 4 * n + 1 + 1 + 6 * (n + 1) := by rw [ih]
      _ = 3 * (n + 1) ^ 2 + 4 * (n + 1) + 1 := by ring

/-! ### Expressions -/

/-- Expressions that are no higher than a bound for the levels left. -/
def Within (bound : Nat → Nat) (depth : Nat) (e : Expr) : Prop := e.height ≤ bound (maxNesting - depth)

/-- Statements that are no higher than the levels left allow. -/
def Built (depth : Nat) (s : Stmt) : Prop := s.height ≤ tallestStmt (maxNesting - depth)

/-- The rules that other rules call make trees that are no higher than the levels left allow. -/
structure Nested.Bounded (inner : Nested) : Prop where
  assignment : ∀ depth, Makes depth inner.assignment (Kept depth (Within (tallest 6) depth))
  unary : ∀ depth, Makes depth inner.unary (Kept depth (Within (tallest 1) depth))
  declaration : ∀ depth, Makes depth inner.declaration (Kept depth (Built depth))
  statement : ∀ depth, Makes depth inner.statement (Kept depth (Built depth))

def Below (depth : Nat) (e : Expr) : Prop := depth < maxNesting ∧ Within (tallest 6) (depth + 1) e

theorem levels_left {depth : Nat} (room : depth < maxNesting) :
    maxNesting - depth = maxNesting - (depth + 1) + 1 := by omega

theorem Below.primary {depth : Nat} {e : Expr} (below : Below depth e) :
    e.height + 1 ≤ tallestPrimary (maxNesting - depth) := by
  obtain ⟨room,grown⟩ := below
  rw [levels_left room,tallestPrimary_succ]
  exact Nat.add_le_add_right grown 1

theorem Below.stmt {depth : Nat} {e : Expr} (below : Below depth e) :
    e.height + 4 ≤ tallestStmt (maxNesting - depth) := by
  obtain ⟨room,grown⟩ := below
  rw [levels_left room,tallestStmt]
  exact Nat.add_le_add_right grown 4

namespace Nested.Bounded

variable {inner : Nested}

theorem expression (bounded : inner.Bounded) (depth : Nat) :
    Makes depth inner.expression (Kept depth (Below depth)) :=
  Makes.nested (bounded.assignment (depth + 1))

theorem arguments (bounded : inner.Bounded) (close : Token.Kind) (complaint : Complaint) (depth : Nat) :
    Makes depth (inner.arguments close complaint)
      (Kept depth fun es => Expr.heightAll es + 1 ≤ tallestPrimary (maxNesting - depth)) := by
  have core := tallestPrimary_pos (maxNesting - depth)
  have close (es : List Expr) (small : Expr.heightAll es + 1 ≤ tallestPrimary (maxNesting - depth)) :
      Makes depth (do let _ ← expect close complaint; pure es) (Kept depth fun es =>
        Expr.heightAll es + 1 ≤ tallestPrimary (maxNesting - depth)) :=
    (level_expect _ _).then fun _ => makes_pure ⟨rfl,small⟩
  refine (level_look _).then fun empty => ?_
  cases empty with
  | true => exact close [] (by rw [Expr.heightAll]; exact core)
  | false =>
    refine (bounded.expression depth).commaSeparated.then fun es each => close es ?_
    have small : Expr.heightAll es ≤ tallestPrimary (maxNesting - depth) - 1 :=
      Expr.heightAll_le fun e member => Nat.le_sub_one_of_lt (each e member).primary
    omega

theorem leaf_height {token : Token} {e : Expr} (leaf : leaf? token = .ok e) : e.height = 1 := by
  unfold leaf? at leaf
  split at leaf
  case h_4 | h_5 =>
    split at leaf
    case h_3 => cases leaf
    all_goals
      cases leaf
      simp [Expr.height]
  case h_7 => cases leaf
  all_goals
    cases leaf
    simp [Expr.height]

theorem primary (bounded : inner.Bounded) (depth : Nat) :
    Makes depth inner.primary (Kept depth (Within tallestPrimary depth)) := by
  refine (level_look _).then fun token => ?_
  split
  case h_1 =>
    refine level_advance.then fun _ => (bounded.expression depth).then fun e below => ?_
    refine (level_expect _ _).then fun _ => (level_look _).then fun span => makes_pure ⟨rfl,?_⟩
    rw [Within,Expr.height]
    exact below.primary
  case h_2 =>
    refine level_advance.then fun _ => (bounded.arguments _ _ depth).then fun es small => ?_
    refine (level_look _).then fun span => makes_pure ⟨rfl,?_⟩
    rw [Within,Expr.height]
    exact small
  case h_3 =>
    cases leaf : leaf? token with
    | error complaint => exact makes_fail complaint _
    | ok e =>
      refine level_advance.then fun _ => makes_pure ⟨rfl,?_⟩
      rw [Within,leaf_height leaf]
      exact tallestPrimary_pos _

theorem left_le {start depth : Nat} (deeper : start ≤ depth) : maxNesting - (depth + 1) ≤ maxNesting - start := by
  omega

theorem suffixed (bounded : inner.Bounded) {start depth : Nat} (deeper : start ≤ depth) (target : Expr) :
    Makes depth (inner.suffixed target)
      (Grows Expr.height (tallestPrimary (maxNesting - start)) depth target) := by
  have less := tallestPrimary_mono (left_le deeper)
  refine (level_look _).then fun calls => ?_
  cases calls with
  | true =>
    refine makes_deepen fun room => level_advance.then fun _ => ?_
    refine (bounded.arguments _ _ (depth + 1)).then fun es small => ?_
    refine (level_look _).then fun span => makes_pure ⟨rfl,room,?_⟩
    rw [Expr.height]
    omega
  | false =>
    refine (level_look _).then fun indexes => ?_
    cases indexes with
    | true =>
      refine makes_deepen fun room => level_advance.then fun _ => ?_
      refine (bounded.expression (depth + 1)).then fun e below => (level_expect _ _).then fun _ => ?_
      have small := below.primary
      refine (level_look _).then fun span => makes_pure ⟨rfl,room,?_⟩
      rw [Expr.height]
      omega
    | false => exact makes_pure rfl

theorem call (bounded : inner.Bounded) (depth : Nat) :
    Makes depth inner.call (Kept depth (Within (tallest 1) depth)) := by
  refine Makes.levelled ((bounded.primary depth).then fun e small => ?_)
  unfold Within
  rw [tallest_succ,tallest,Nat.zero_mul,Nat.add_zero]
  exact makes_extend (fun _ target deeper => bounded.suffixed deeper target) small

theorem unaryRule (bounded : inner.Bounded) (depth : Nat) :
    Makes depth inner.unaryRule (Kept depth (Within (tallest 1) depth)) := by
  have operand : Makes depth (nested inner.unary)
      (Kept depth fun e => e.height + 1 ≤ tallest 1 (maxNesting - depth)) := by
    refine (Makes.nested (bounded.unary (depth + 1))).weaken fun e level made => ?_
    obtain ⟨same,room,grown⟩ := made
    unfold Within tallest at grown
    refine ⟨same,?_⟩
    rw [levels_left room,tallest,tallestPrimary_succ,tallest]
    omega
  refine (level_look _).then fun token => ?_
  split
  case h_1 op _ =>
    refine level_advance.then fun _ => operand.then fun e small => makes_pure ⟨rfl,?_⟩
    rw [Within,Expr.height]
    exact small
  case h_2 => exact bounded.call depth

theorem operand_grows {repetitions start level : Nat} {left right e : Expr} (deeper : start ≤ level)
    (made : Within (tallest repetitions) (level + 1) right) (whole : e.height = max left.height right.height + 1) :
    e.height ≤ max left.height (tallest repetitions (maxNesting - start)) + 1 := by
  have less := tallest_mono repetitions (left_le deeper)
  unfold Within at made
  omega

theorem extended {first : Parser Expr} {step : Expr → Parser (Option Expr)} {repetitions depth : Nat}
    (makes : Makes depth first (Kept depth (Within (tallest repetitions) depth)))
    (grows : ∀ level left, depth ≤ level →
      Makes level (step left) (Grows Expr.height (tallest repetitions (maxNesting - depth)) level left)) :
    Makes depth (levelled do extend step (← first)) (Kept depth (Within (tallest (repetitions + 1)) depth)) := by
  refine Makes.levelled (makes.then fun e small => ?_)
  unfold Within
  rw [tallest_succ]
  exact makes_extend grows small

/-- A level of operators between operands grows expressions by the levels left. -/
theorem binaryLevel {op? : Token.Kind → Option BinaryOp} {tighter : Parser Expr} {repetitions : Nat}
    (makes : ∀ depth, Makes depth tighter (Kept depth (Within (tallest repetitions) depth))) (depth : Nat) :
    Makes depth (Nested.binaryLevel op? tighter) (Kept depth (Within (tallest (repetitions + 1)) depth)) := by
  refine extended (makes depth) fun level left deeper => (level_look _).then fun token => ?_
  split
  case h_1 op _ =>
    refine makes_deepen fun room => level_advance.then fun _ => (makes (level + 1)).then fun right made => ?_
    exact makes_pure ⟨rfl,room,operand_grows deeper made (by rw [Expr.height])⟩
  case h_2 => exact makes_pure rfl

theorem equality (bounded : inner.Bounded) (depth : Nat) :
    Makes depth inner.equality (Kept depth (Within (tallest 5) depth)) :=
  binaryLevel (binaryLevel (binaryLevel (binaryLevel bounded.unaryRule))) depth

theorem logical (bounded : inner.Bounded) (depth : Nat) :
    Makes depth inner.logical (Kept depth (Within (tallest 6) depth)) := by
  refine extended (bounded.equality depth) fun level left deeper => (level_look _).then fun token => ?_
  split
  case h_1 op _ =>
    refine level_advance.then fun _ => makes_deepen fun room => ?_
    refine (bounded.equality (level + 1)).then fun right made => ?_
    exact makes_pure ⟨rfl,room,operand_grows deeper made (by rw [Expr.height])⟩
  case h_2 => exact makes_pure rfl

theorem assignmentRule (bounded : inner.Bounded) (depth : Nat) :
    Makes depth inner.assignmentRule (Kept depth (Within (tallest 6) depth)) := by
  refine (bounded.logical depth).then fun target small => (level_accept _).then fun assigns => ?_
  cases assigns with
  | false => exact makes_pure ⟨rfl,small⟩
  | true =>
    refine (level_look _).then fun equals => (bounded.expression depth).then fun value below => ?_
    split
    · refine makes_pure ⟨rfl,?_⟩
      rw [Within,Expr.height]
      exact below.primary.trans (Nat.le_add_right _ _)
    · exact (level_complain _ _).then fun _ => makes_pure ⟨rfl,small⟩

/-! ### Statements -/

/-- A statement that is a leaf, or that lies three nodes below what the levels left allow. -/
def Simple (depth : Nat) (s : Stmt) : Prop :=
  s.height = 1 ∨ s.height + 3 ≤ tallestStmt (maxNesting - depth)

theorem tallestStmt_pos (n : Nat) : 1 ≤ tallestStmt n := by
  cases n with
  | zero => exact Nat.le_refl 1
  | succ n =>
    rw [tallestStmt]
    omega

theorem Simple.built {depth : Nat} {s : Stmt} (simple : Simple depth s) : Built depth s := by
  have positive := tallestStmt_pos (maxNesting - depth)
  unfold Simple at simple
  unfold Built
  omega

theorem expressionStatement (bounded : inner.Bounded) (depth : Nat) :
    Makes depth inner.expressionStatement (Kept depth (Simple depth)) := by
  refine (bounded.expression depth).then fun value below => (level_expect _ _).then fun semicolon => ?_
  refine makes_pure ⟨rfl,.inr ?_⟩
  rw [Stmt.height]
  exact below.stmt

theorem varRule (bounded : inner.Bounded) (depth : Nat) :
    Makes depth inner.varRule (Kept depth (Simple depth)) := by
  have close (start : Span) (name : Name) (initial : Option Expr)
      (small : ∀ span, Simple depth (.var name initial span)) :
      Makes depth (do
        let _ ← expect .semicolon .variableEnd
        return Stmt.var name initial (← spanFrom start)) (Kept depth (Simple depth)) :=
    (level_expect _ _).then fun _ => (level_look _).then fun span => makes_pure ⟨rfl,small span⟩
  refine (level_look _).then fun start => (level_expect _ _).then fun name => ?_
  refine (level_accept _).then fun given => ?_
  cases given with
  | false => exact close _ _ none fun span => .inl (by simp [Stmt.height,Expr.heightOption])
  | true =>
    have initial : Makes depth (some <$> inner.expression)
        (Kept depth fun e => Expr.heightOption e + 4 ≤ tallestStmt (maxNesting - depth)) :=
      (bounded.expression depth).map _ fun _ below => below.stmt
    refine initial.then fun value small => close _ _ value fun span => .inr ?_
    rw [Stmt.height]
    exact small

/-- A nested statement or declaration lies three nodes below what the levels left allow. -/
theorem deeper {depth : Nat} {p : Parser Stmt} (makes : Makes (depth + 1) p (Kept (depth + 1) (Built (depth + 1)))) :
    Makes depth (nested p) (Kept depth fun s =>
      depth < maxNesting ∧ s.height + 3 ≤ tallestStmt (maxNesting - depth)) := by
  refine (Makes.nested makes).weaken fun s level made => ?_
  obtain ⟨same,room,built⟩ := made
  have below := tallestStmt_succ (maxNesting - (depth + 1))
  refine ⟨same,room,?_⟩
  unfold Built at built
  rw [levels_left room]
  omega

theorem block (bounded : inner.Bounded) (depth : Nat) :
    Makes depth inner.block
      (Kept depth fun body => Stmt.heightAll body + 1 ≤ tallestStmt (maxNesting - depth)) := by
  have positive := tallestStmt_pos (maxNesting - depth)
  refine ((deeper (bounded.declaration (depth + 1))).many (nested_depth _)).then fun body each => ?_
  refine (level_expect _ _).then fun _ => makes_pure ⟨rfl,?_⟩
  have small : Stmt.heightAll body ≤ tallestStmt (maxNesting - depth) - 1 :=
    Stmt.heightAll_le fun s member => by have below := (each s member).2; omega
  omega

theorem expressionUnless (bounded : inner.Bounded) (kind : Token.Kind) (depth : Nat) :
    Makes depth (inner.expressionUnless kind)
      (Kept depth fun e => ∀ x ∈ e, x.height + 4 ≤ tallestStmt (maxNesting - depth)) := by
  refine (level_look _).then fun missing => ?_
  cases missing with
  | true => exact makes_pure ⟨rfl,by simp⟩
  | false => exact (bounded.expression depth).map _ fun e below => by simpa using below.stmt

theorem forTree_height {depth : Nat} {start : Option Stmt} {test : Option Expr} {semicolon : Span}
    {step : Option Expr} {body : Stmt} {span : Span} (room : depth < maxNesting)
    (starts : ∀ s ∈ start, Simple depth s) (tests : ∀ e ∈ test, e.height + 4 ≤ tallestStmt (maxNesting - depth))
    (steps : ∀ e ∈ step, e.height + 4 ≤ tallestStmt (maxNesting - depth))
    (bodies : body.height + 3 ≤ tallestStmt (maxNesting - depth)) :
    Built depth (forTree start test semicolon step body span) := by
  have large : 5 ≤ tallestStmt (maxNesting - depth) := by
    have positive := tallestPrimary_pos (maxNesting - (depth + 1))
    rw [levels_left room,tallestStmt,tallest]
    omega
  have tested : (test.getD (.literal (.bool true) semicolon)).height + 2 ≤ tallestStmt (maxNesting - depth) := by
    cases test with
    | none =>
      simp only [Option.getD_none,Expr.height]
      omega
    | some e =>
      have small := tests e rfl
      simp only [Option.getD_some]
      omega
  have looped (round : Stmt) (small : round.height + 2 ≤ tallestStmt (maxNesting - depth)) :
      (Stmt.loop (test.getD (.literal (.bool true) semicolon)) round span).height + 1 ≤
        tallestStmt (maxNesting - depth) := by
    rw [Stmt.height]
    omega
  have started (loop : Stmt) (small : loop.height + 1 ≤ tallestStmt (maxNesting - depth)) :
      Built depth loop ∧ ∀ s ∈ start, Built depth (.block [s,loop] span) := by
    refine ⟨Nat.le_of_succ_le small,fun s member => ?_⟩
    have first := starts s member
    unfold Simple at first
    simp only [Built,Stmt.height,Stmt.heightAll]
    omega
  unfold forTree
  cases step with
  | none =>
    have whole := started _ (looped body (by omega))
    cases start with
    | none => exact whole.1
    | some s => exact whole.2 s rfl
  | some e =>
    have small := steps e rfl
    have rounded : (Stmt.block [body,.expression e e.span] span).height + 2 ≤ tallestStmt (maxNesting - depth) := by
      simp only [Stmt.height,Stmt.heightAll]
      omega
    have whole := started _ (looped _ rounded)
    cases start with
    | none => exact whole.1
    | some s => exact whole.2 s rfl

theorem forStart (bounded : inner.Bounded) (depth : Nat) :
    Makes depth inner.forStart (Kept depth fun start => ∀ s ∈ start, Simple depth s) := by
  refine (level_accept _).then fun missing => ?_
  cases missing with
  | true => exact makes_pure ⟨rfl,by simp⟩
  | false =>
    refine (level_accept _).then fun declares => ?_
    cases declares with
    | true => exact (bounded.varRule depth).map _ fun s simple => by simpa using simple
    | false => exact (bounded.expressionStatement depth).map _ fun s simple => by simpa using simple

theorem forRule (bounded : inner.Bounded) (depth : Nat) : Makes depth inner.forRule (Kept depth (Built depth)) := by
  refine (level_look _).then fun first => (level_expect _ _).then fun _ => ?_
  refine (bounded.forStart depth).then fun start starts => ?_
  refine (bounded.expressionUnless _ depth).then fun test tests => (level_expect _ _).then fun semicolon => ?_
  refine (bounded.expressionUnless _ depth).then fun step steps => (level_expect _ _).then fun _ => ?_
  refine (deeper (bounded.statement (depth + 1))).then fun body made => (level_look _).then fun span => ?_
  exact makes_pure ⟨rfl,forTree_height made.1 starts tests steps made.2⟩

theorem ifRule (bounded : inner.Bounded) (depth : Nat) : Makes depth inner.ifRule (Kept depth (Built depth)) := by
  have close (start : Span) (test : Expr) (yes : Stmt) (no : Option Stmt)
      (small : ∀ span, Built depth (.branch test yes no span)) :
      Makes depth (do return Stmt.branch test yes no (← spanFrom start)) (Kept depth (Built depth)) :=
    (level_look _).then fun span => makes_pure ⟨rfl,small span⟩
  refine (level_look _).then fun start => (level_expect _ _).then fun _ => ?_
  refine (bounded.expression depth).then fun test below => (level_expect _ _).then fun _ => ?_
  refine (deeper (bounded.statement (depth + 1))).then fun yes made => (level_accept _).then fun more => ?_
  have tested := below.stmt
  have first := made.2
  cases more with
  | false =>
    refine close _ test yes none fun span => ?_
    simp only [Built,Stmt.height,Stmt.heightOption]
    omega
  | true =>
    have second : Makes depth (some <$> nested inner.statement)
        (Kept depth fun no => Stmt.heightOption no + 3 ≤ tallestStmt (maxNesting - depth)) :=
      (deeper (bounded.statement (depth + 1))).map _ fun no made => by
        rw [Stmt.heightOption]
        exact made.2
    refine second.then fun no small => close _ test yes no fun span => ?_
    simp only [Built,Stmt.height]
    omega

theorem returnRule (bounded : inner.Bounded) (depth : Nat) :
    Makes depth inner.returnRule (Kept depth (Built depth)) := by
  refine (level_look _).then fun start => (bounded.expressionUnless _ depth).then fun value small => ?_
  refine (level_expect _ _).then fun _ => (level_look _).then fun span => makes_pure ⟨rfl,?_⟩
  have positive := tallestStmt_pos (maxNesting - depth)
  rw [Built,Stmt.height]
  cases value with
  | none => exact positive
  | some e =>
    have returned := small e rfl
    show e.height + 1 ≤ _
    omega

theorem whileRule (bounded : inner.Bounded) (depth : Nat) :
    Makes depth inner.whileRule (Kept depth (Built depth)) := by
  refine (level_look _).then fun start => (level_expect _ _).then fun _ => ?_
  refine (bounded.expression depth).then fun test below => (level_expect _ _).then fun _ => ?_
  refine (deeper (bounded.statement (depth + 1))).then fun body made => (level_look _).then fun span => ?_
  refine makes_pure ⟨rfl,?_⟩
  have tested := below.stmt
  have looped := made.2
  rw [Built,Stmt.height]
  omega

theorem blockRule (bounded : inner.Bounded) (depth : Nat) :
    Makes depth inner.blockRule (Kept depth (Built depth)) := by
  refine (level_look _).then fun start => (bounded.block depth).then fun body small => ?_
  refine (level_look _).then fun span => makes_pure ⟨rfl,?_⟩
  rw [Built,Stmt.height]
  exact small

theorem functionRule (bounded : inner.Bounded) (depth : Nat) :
    Makes depth inner.functionRule (Kept depth (Built depth)) := by
  have close (start : Span) (name : Name) (params : List Name) :
      Makes depth (do
        let _ ← expect .rightParen .parametersClose
        let _ ← expect .leftBrace .bodyOpen
        let body ← inner.block
        return Stmt.function name params body (← spanFrom start)) (Kept depth (Built depth)) := by
    refine (level_expect _ _).then fun _ => (level_expect _ _).then fun _ => ?_
    refine (bounded.block depth).then fun body small => (level_look _).then fun span => makes_pure ⟨rfl,?_⟩
    rw [Built,Stmt.height]
    exact small
  have parameter : Makes depth parameter (Kept depth fun _ => True) :=
    (level_expect _ _).then fun name => makes_pure ⟨rfl,trivial⟩
  refine (level_look _).then fun start => (level_expect _ _).then fun name => (level_expect _ _).then fun _ => ?_
  refine (level_look _).then fun none => ?_
  cases none with
  | true => exact close _ _ []
  | false => exact parameter.commaSeparated.then fun params _ => close _ _ params

theorem statementRule (bounded : inner.Bounded) (depth : Nat) :
    Makes depth inner.statementRule (Kept depth (Built depth)) := by
  have worded (kind : Token.Kind) {p q : Parser Stmt} (yes : Makes depth p (Kept depth (Built depth)))
      (no : Makes depth q (Kept depth (Built depth))) :
      Makes depth (do if ← accept kind then p else q) (Kept depth (Built depth)) := by
    refine (level_accept kind).then fun seen => ?_
    cases seen with
    | true => exact yes
    | false => exact no
  refine worded _ (bounded.forRule depth) (worded _ (bounded.ifRule depth) (worded _ (bounded.returnRule depth) ?_))
  refine worded _ (bounded.whileRule depth) (worded _ (bounded.blockRule depth) ?_)
  exact (bounded.expressionStatement depth).weaken fun s level made => ⟨made.1,made.2.built⟩

theorem declarationRule (bounded : inner.Bounded) (depth : Nat) :
    Makes depth inner.declarationRule (Kept depth (Built depth)) := by
  refine (level_accept _).then fun isFunction => ?_
  cases isFunction with
  | true => exact bounded.functionRule depth
  | false =>
    refine (level_accept _).then fun isVariable => ?_
    cases isVariable with
    | true => exact (bounded.varRule depth).weaken fun s level made => ⟨made.1,made.2.built⟩
    | false => exact bounded.statementRule depth

end Nested.Bounded

theorem level_bounded : ∀ n, (Nested.level n).Bounded
  | 0 => ⟨fun _ => makes_fail _ _,fun _ => makes_fail _ _,fun _ => makes_fail _ _,fun _ => makes_fail _ _⟩
  | n + 1 =>
    have bounded := level_bounded n
    ⟨bounded.assignmentRule,bounded.unaryRule,bounded.declarationRule,bounded.statementRule⟩

/-- The tree of a program that is accepted is no higher than the square of the cap on nesting allows. -/
theorem height_le_of_ofTokens (tokens : List Token) (program : Program) (accepted : ofTokens tokens = .ok program) :
    program.height ≤ 3 * maxNesting ^ 2 - 8 * maxNesting + 9 := by
  have declared : Makes 0 declaration (Kept 0 fun s => 0 < maxNesting ∧ Built 1 s) :=
    Makes.nested ((level_bounded maxNesting).declaration 1)
  have bound : tallestStmt (maxNesting - 1) = 3 * maxNesting ^ 2 - 8 * maxNesting + 9 := by
    have levels : maxNesting - 1 = 254 + 1 := rfl
    rw [levels,tallestStmt,tallest_eq]
    rfl
  unfold ofTokens at accepted
  rcases parsed : many State.atEnd declaration (State.ofTokens tokens) with ⟨statements,s⟩
  simp only [parsed] at accepted
  split at accepted
  case h_1 statements' _ =>
    cases accepted
    have each := (declared.many (nested_depth _) _ _ _ rfl parsed).2
    rw [← bound]
    exact Stmt.heightAll_le fun s member => (each s member).2
  case h_2 => cases accepted

/-- Signs in front of a name as deep as the cap allows, and a product around them: the product takes up
a level that the signs have given back. -/
def signTower : List Token :=
  let token (kind : Token.Kind) (lexeme : String) : Token := { kind := kind, lexeme := lexeme, span := default }
  List.replicate 254 (token .minus "-") ++
    [token .identifier "x",token .star "*",token .identifier "y",token .semicolon ";"]

/-- The cap on nesting does not bound the height of trees. -/
theorem ofTokens_above_cap : ∃ program, ofTokens signTower = .ok program ∧ program.height = maxNesting + 1 := by
  have high : (ofTokens signTower).toOption.map Program.height = some (maxNesting + 1) := by decide +kernel
  cases parsed : ofTokens signTower with
  | error problems =>
    rw [parsed] at high
    cases high
  | ok program =>
    rw [parsed] at high
    exact ⟨program,rfl,Option.some.inj high⟩

/-- The bound is kept where the cap is not. -/
theorem height_le_of_ofTokens_signTower : ∃ program, ofTokens signTower = .ok program ∧
    program.height ≤ 3 * maxNesting ^ 2 - 8 * maxNesting + 9 := by
  have accepted : (ofTokens signTower).isOk = true := by decide +kernel
  cases parsed : ofTokens signTower with
  | error problems =>
    rw [parsed] at accepted
    cases accepted
  | ok program => exact ⟨program,rfl,height_le_of_ofTokens signTower program parsed⟩

end Program

end TurtleScript
