import TurtleScript.Proofs.Laying
import TurtleScript.Proofs.LaidTrees
import TurtleScript.Proofs.TreeSpans

/-!
Where the nodes of a tree are in the source text. Every rule of the grammar lays its tree over the tokens that it
consumes, and one that stands behind its first word over that word and these (`Nested.level_laying`). So every node of a
program runs over some tokens of the text and holds its children, statements between braces come in order, and a name
has the place where it is written (`compile_exact`).
-/

namespace TurtleScript.Program

open TurtleScript.Program.Parser
open Token (Sequential)

variable {tokens : List Token}

/-- The rules that other rules call lay their trees over the tokens that they consume. -/
structure Nested.Laying (tokens : List Token) (inner : Nested) : Prop where
  sequential : Sequential tokens
  assignment : Lays inner.assignment fun _ used e _ => (Node.expr e).Laid tokens used
  unary : Lays inner.unary fun _ used e _ => (Node.expr e).Laid tokens used
  declaration : Lays inner.declaration fun _ used s _ => (Node.stmt s).Laid tokens used
  statement : Lays inner.statement fun _ used s _ => (Node.stmt s).Laid tokens used

namespace Nested

variable {inner : Nested}

theorem Laying.expression (laying : inner.Laying tokens) :
    Lays inner.expression fun _ used e _ => (Node.expr e).Laid tokens used :=
  laying.assignment.nested

theorem part_of_separated {texts : List (List Token)} {used : List Token} (separated : Separated texts used) :
    ∀ text ∈ texts, text <:+: used := by
  induction separated with
  | none => exact nofun
  | one ts =>
    intro text mem
    cases List.mem_singleton.mp mem
    exact List.infix_rfl
  | more first isComma rest ih =>
    intro text mem
    rcases List.mem_cons.mp mem with rfl | later
    · exact (List.prefix_append _ _).isInfix
    · exact (ih text later).trans (Span.suffix_behind _ _ _).isInfix

theorem held_of_separated {α : Type} {node : α → Node} {values : List α} {texts : List (List Token)} {used : List Token}
    (each : Each (fun used a => (node a).Laid tokens used) values texts) (separated : Separated texts used) :
    ∀ a ∈ values, (node a).Held tokens used := by
  obtain ⟨items,laid,rfl,rfl⟩ := each
  intro a mem
  obtain ⟨item,there,rfl⟩ := List.mem_map.mp mem
  exact (laid item there).held (part_of_separated separated item.1 (List.mem_map_of_mem there))

theorem Laying.arguments (laying : inner.Laying tokens) (close : Token.Kind) (complaint : Complaint) :
    Lays (inner.arguments close complaint) fun _ used es _ =>
      used ≠ [] ∧ ∀ e ∈ es, (Node.expr e).Held tokens used := by
  have listed : Lays (do if ← sees close then pure [] else commaSeparated inner.expression)
      fun _ used es _ => ∀ e ∈ es, (Node.expr e).Held tokens used := by
    refine lays_sees (lays_pure fun _ _ => nofun) (laying.expression.commaSeparated.weaken ?_)
    rintro _ used es _ ⟨texts,each,separated⟩
    exact held_of_separated each separated
  refine lays_choose listed fun es => lays_expect fun closing _ => lays_pure fun _ _ _ _ _ u _ held => ?_
  exact ⟨by simp,fun e mem => (held e mem).mono (List.prefix_append _ _).isInfix⟩

theorem leaf_laid (sequential : Sequential tokens) {token : Token} {e : Expr} (leaf : leaf? token = .ok e) :
    (Node.expr e).Laid tokens [token] := by
  unfold leaf? at leaf
  split at leaf
  case h_1 | h_2 | h_3 =>
    cases leaf
    exact Node.laid_token sequential rfl rfl nofun nofun
  case h_4 | h_5 =>
    split at leaf
    case h_1 | h_2 =>
      cases leaf
      exact Node.laid_token sequential rfl rfl nofun nofun
    case h_3 => cases leaf
  case h_6 =>
    cases leaf
    refine Node.laid_token sequential rfl rfl (fun name isName => ?_) nofun
    cases isName
    rfl
  case h_7 => cases leaf

theorem Laying.primary (laying : inner.Laying tokens) :
    Lays inner.primary fun _ used e _ => (Node.expr e).Laid tokens used := by
  refine lays_next fun token => ?_
  split
  case h_1 kind =>
    refine lays_advance (laying.expression.bind fun e => ?_)
    refine lays_expect fun _ _ => lays_spanFrom fun span => lays_pure ?_
    rintro closing rest rfl rfl _ _ u _ content
    refine ⟨fun _ opening _ ahead => ?_,by simp⟩
    cases ahead_cons ahead
    have around : (token.span.join closing.span).Spread tokens (token :: (u ++ [closing])) :=
      Span.spread_behind laying.sequential ⟨token :: u,rfl⟩
    refine Node.laid_expr laying.sequential around rfl (List.forall_mem_singleton.mpr ?_)
    exact content.held ⟨[token],[closing],rfl⟩
  case h_2 kind =>
    refine lays_advance ((laying.arguments _ _).bind fun es => ?_)
    refine lays_spanFrom fun span => lays_pure ?_
    rintro _ rest rfl _ u rfl ⟨filled,held⟩
    rw [List.append_nil]
    refine ⟨fun _ opening isBefore ahead => ?_,fun nothing => absurd (List.append_eq_nil_iff.mp nothing).1 filled⟩
    cases ahead_cons ahead
    cases isBefore
    refine Node.laid_expr laying.sequential (Span.spread_behind laying.sequential (Span.getLastD_suffix _ u)) rfl ?_
    exact List.forall_mem_map.mpr fun e mem => (held e mem).mono (List.suffix_cons _ _).isInfix
  case h_3 =>
    cases leaf : leaf? token with
    | error complaint => exact lays_fail complaint
    | ok e =>
      refine lays_advance (lays_pure fun _ rest => ⟨fun _ first _ ahead => ?_,fun nothing ahead => ?_⟩)
      · rw [ahead_cons ahead]
        exact leaf_laid laying.sequential leaf
      · rw [nothing] at ahead
        simp [leaf?,ahead_nil ahead] at leaf

theorem Laying.suffixed (laying : inner.Laying tokens) (target : Expr) :
    Lays (inner.suffixed target) fun _ used next _ =>
      Carries (fun used e => (Node.expr e).Laid tokens used) target used next := by
  -- From the target in front to the token consumed last, whatever that is.
  have around : ∀ {v : List Token} (used : List Token) (opening : Token), (Node.expr target).Laid tokens v →
      (target.span.join (used.getLastD opening).span).Spread tokens (v ++ opening :: used) := fun used opening laid =>
    laid.spread.join laying.sequential (Span.spread_token _) (List.prefix_append _ _)
      ((Span.getLastD_suffix _ _).trans (List.suffix_append _ _))
  refine lays_sees ?_ (lays_sees ?_ ?_)
  · refine lays_deepen (lays_advance ((laying.arguments _ _).bind fun es => ?_))
    refine lays_spanFrom fun span => lays_pure ?_
    rintro _ rest rfl opening u rfl ⟨filled,held⟩
    rw [List.append_nil]
    refine ⟨fun _ _ isBefore v laid => ?_,fun nothing => absurd (List.append_eq_nil_iff.mp nothing).1 filled⟩
    cases isBefore
    refine Node.laid_expr laying.sequential (around u opening laid) rfl (List.forall_mem_cons.mpr ⟨?_,?_⟩)
    · exact laid.held (List.prefix_append _ _).isInfix
    · refine List.forall_mem_map.mpr fun e mem => (held e mem).mono ?_
      exact (Span.suffix_behind _ _ _).isInfix
  · refine lays_deepen (lays_advance (laying.expression.bind fun e => ?_))
    refine lays_expect fun _ _ => lays_spanFrom fun span => lays_pure ?_
    rintro closing rest rfl rfl _ _ u _ position
    refine ⟨fun _ opening _ v laid => ?_,by simp⟩
    have spread := around (u ++ [closing]) opening laid
    rw [List.getLastD_concat] at spread
    refine Node.laid_expr laying.sequential spread rfl (List.forall_mem_cons.mpr ⟨?_,List.forall_mem_singleton.mpr ?_⟩)
    · exact laid.held (List.prefix_append _ _).isInfix
    · exact position.held ⟨v ++ [opening],[closing],by simp⟩
  · exact lays_pure fun _ _ => rfl

theorem Laying.call (laying : inner.Laying tokens) :
    Lays inner.call fun _ used e _ => (Node.expr e).Laid tokens used :=
  (laying.primary.extend laying.suffixed).levelled

theorem Laying.unaryRule (laying : inner.Laying tokens) :
    Lays inner.unaryRule fun _ used e _ => (Node.expr e).Laid tokens used := by
  refine lays_next fun token => ?_
  split
  case h_1 op isOp =>
    rw [unaryOp_eq] at isOp
    refine lays_advance (laying.unary.nested.bind fun e => lays_pure fun _ rest _ u _ operand => ?_)
    rw [List.append_nil]
    refine ⟨fun _ mark _ ahead => ?_,fun nothing ahead => ?_⟩
    · rw [ahead_cons ahead]
      have around : (token.span.join e.span).Spread tokens (token :: u) :=
        (Span.spread_token token).join laying.sequential operand.spread ⟨u,rfl⟩ (List.suffix_cons _ _)
      refine Node.laid_expr laying.sequential around rfl (List.forall_mem_singleton.mpr ?_)
      exact operand.held (List.suffix_cons _ _).isInfix
    · rw [nothing] at ahead
      rw [ahead_nil ahead] at isOp
      cases isOp
  case h_2 => exact laying.call.weaken fun _ _ _ _ laid _ => laid

/-- Two operands with something between them, and the span that joins theirs. -/
theorem laid_operands (sequential : Sequential tokens) {left right e : Expr} {ts us : List Token} {mark : Token}
    (first : (Node.expr left).Laid tokens ts) (second : (Node.expr right).Laid tokens us)
    (span : e.span = left.span.join right.span) (unnamed : (Node.expr e).name? = none)
    (both : (Node.expr e).children = [.expr left,.expr right]) : (Node.expr e).Laid tokens (ts ++ mark :: us) := by
  have behind := Span.suffix_behind ts mark us
  have around : e.span.Spread tokens (ts ++ mark :: us) := by
    rw [span]
    exact first.spread.join sequential second.spread (List.prefix_append _ _) behind
  refine Node.laid_expr sequential around unnamed ?_
  rw [both]
  refine List.forall_mem_cons.mpr ⟨first.held (List.prefix_append _ _).isInfix,List.forall_mem_singleton.mpr ?_⟩
  exact second.held behind.isInfix

theorem operand_lays (sequential : Sequential tokens) {level : Level} {op? : Token.Kind → Option BinaryOp}
    {tighter : Parser Expr} (table : ∀ kind, op? kind = level.operator kind)
    (lays : Lays tighter fun _ used e _ => (Node.expr e).Laid tokens used) (left : Expr) :
    Lays (operand op? tighter left) fun _ used next _ =>
      Carries (fun used e => (Node.expr e).Laid tokens used) left used next := by
  refine lays_next fun token => ?_
  split
  case h_1 op isOp =>
    rw [table] at isOp
    refine lays_deepen (lays_advance (lays.bind fun e => lays_pure fun _ rest _ u _ right => ?_))
    rw [List.append_nil]
    refine ⟨fun _ mark _ _ v first => laid_operands sequential first right rfl rfl rfl,fun nothing ahead => ?_⟩
    rw [nothing] at ahead
    rw [ahead_nil ahead] at isOp
    cases level <;> cases isOp
  case h_2 => exact lays_pure fun _ _ _ => rfl

theorem binaryLevel_lays (sequential : Sequential tokens) (level : Level) {op? : Token.Kind → Option BinaryOp}
    {tighter : Parser Expr} (table : ∀ kind, op? kind = level.operator kind)
    (lays : Lays tighter fun _ used e _ => (Node.expr e).Laid tokens used) :
    Lays (binaryLevel op? tighter) fun _ used e _ => (Node.expr e).Laid tokens used :=
  (lays.extend (operand_lays sequential table lays)).levelled

theorem Laying.equality (laying : inner.Laying tokens) :
    Lays inner.equality fun _ used e _ => (Node.expr e).Laid tokens used := by
  have sequential := laying.sequential
  have factor : Lays inner.factor fun _ used e _ => (Node.expr e).Laid tokens used :=
    binaryLevel_lays sequential .factor (fun kind => by cases kind <;> rfl) laying.unaryRule
  have term : Lays inner.term fun _ used e _ => (Node.expr e).Laid tokens used :=
    binaryLevel_lays sequential .term (fun kind => by cases kind <;> rfl) factor
  have comparison : Lays inner.comparison fun _ used e _ => (Node.expr e).Laid tokens used :=
    binaryLevel_lays sequential .comparison (fun kind => by cases kind <;> rfl) term
  exact binaryLevel_lays sequential .equality (fun kind => by cases kind <;> rfl) comparison

theorem Laying.logicalOperand (laying : inner.Laying tokens) (left : Expr) :
    Lays (inner.logicalOperand left) fun _ used next _ =>
      Carries (fun used e => (Node.expr e).Laid tokens used) left used next := by
  refine lays_next fun token => ?_
  split
  case h_1 op isOp =>
    rw [logicalOp_eq] at isOp
    refine lays_advance (lays_deepen (laying.equality.bind fun e => lays_pure fun _ rest _ u _ right => ?_))
    rw [List.append_nil]
    refine ⟨fun _ word _ _ v first => laid_operands laying.sequential first right rfl rfl rfl,fun nothing ahead => ?_⟩
    rw [nothing] at ahead
    rw [ahead_nil ahead] at isOp
    cases isOp
  case h_2 => exact lays_pure fun _ _ _ => rfl

theorem Laying.logical (laying : inner.Laying tokens) :
    Lays inner.logical fun _ used e _ => (Node.expr e).Laid tokens used :=
  (laying.equality.extend laying.logicalOperand).levelled

theorem Laying.assignmentRule (laying : inner.Laying tokens) :
    Lays inner.assignmentRule fun _ used e _ => (Node.expr e).Laid tokens used := by
  refine laying.logical.bind fun target => lays_accept (fun equals _ => ?_) ?_
  · rw [if_pos rfl]
    refine lays_last fun _ => laying.assignment.nested.bind fun value => ?_
    split
    case h_1 name span =>
      refine lays_pure fun _ rest _ u _ right _ _ _ _ v _ left => ?_
      rw [List.append_nil]
      have behind := Span.suffix_behind v equals u
      have around : (span.join value.span).Spread tokens (v ++ equals :: u) :=
        left.spread.join laying.sequential right.spread (List.prefix_append _ _) behind
      exact Node.laid_expr laying.sequential around rfl (List.forall_mem_singleton.mpr (right.held behind.isInfix))
    case h_2 =>
      have complains := lays_complain (T := fun _ _ _ _ => False)
      exact (complains _ _).bind fun _ => lays_pure fun _ _ _ _ _ never => never.elim
  · rw [if_neg Bool.false_ne_true]
    refine lays_pure fun _ rest _ u _ laid => ?_
    rw [List.append_nil]
    exact laid

/-! ### Statements -/

theorem Laying.expressionStatement (laying : inner.Laying tokens) :
    Lays inner.expressionStatement fun _ used s _ => (Node.stmt s).Laid tokens used := by
  refine laying.expression.bind fun e => lays_expect fun semicolon _ => lays_pure fun _ rest _ _ _ u _ laid => ?_
  have around : (e.span.join semicolon.span).Spread tokens (u ++ [semicolon]) :=
    laid.spread.join laying.sequential (Span.spread_token _) (List.prefix_append _ _) (List.suffix_append _ _)
  refine Node.laid_stmt laying.sequential around (List.forall_mem_singleton.mpr ?_) fun _ _ => nofun
  exact laid.held (List.prefix_append _ _).isInfix

theorem Laying.optional (laying : inner.Laying tokens) :
    Lays (some <$> inner.expression) fun _ used e _ => ∀ inner ∈ e, (Node.expr inner).Held tokens used := by
  refine (laying.expression.map some).weaken ?_
  rintro _ used _ _ ⟨e,rfl,laid⟩ other mem
  cases mem
  exact laid.held List.infix_rfl

theorem Laying.expressionUnless (laying : inner.Laying tokens) (kind : Token.Kind) :
    Lays (inner.expressionUnless kind) fun _ used e _ => ∀ inner ∈ e, (Node.expr inner).Held tokens used :=
  lays_sees (lays_pure fun _ _ => nofun) laying.optional

theorem held_option {α : Type} {node : α → Node} {value : Option α} {text : List Token}
    (held : ∀ a ∈ value, (node a).Held tokens text) : ∀ child ∈ value.toList.map node, child.Held tokens text :=
  List.forall_mem_map.mpr fun a mem => held a (Option.mem_toList.mp mem)

theorem Laying.varRule (laying : inner.Laying tokens) :
    Lays inner.varRule fun before used s _ => (Node.stmt s).Laid tokens (before :: used) := by
  refine lays_last fun word => lays_expect fun name _ => ?_
  have initial : Lays (do if ← accept .eq then some <$> inner.expression else pure none)
      fun _ used e _ => ∀ inner ∈ e, (Node.expr inner).Held tokens used := by
    refine lays_accept (fun equals _ => ?_) (lays_pure fun _ _ => nofun)
    refine laying.optional.weaken fun _ used e _ held _ _ inner mem => (held inner mem).mono ?_
    exact (List.suffix_cons _ _).isInfix
  refine lays_choose initial fun e => lays_expect fun _ _ => lays_spanFrom fun span => lays_pure ?_
  rintro semicolon rest rfl rfl _ _ u _ held _ _ isWord
  cases isWord
  have around : (word.span.join semicolon.span).Spread tokens (word :: name :: (u ++ [semicolon])) :=
    Span.spread_behind laying.sequential ⟨word :: name :: u,rfl⟩
  refine Node.laid_stmt laying.sequential around (List.forall_mem_cons.mpr ⟨?_,held_option fun inner mem => ?_⟩)
    fun _ _ => nofun
  · exact (Node.laid_declared laying.sequential name).held ⟨[word],u ++ [semicolon],rfl⟩
  · exact (held inner mem).mono ⟨[word,name],[semicolon],rfl⟩

theorem Laying.block (laying : inner.Laying tokens) :
    Lays inner.block fun _ used body _ => ∃ texts close,
      Each (fun used s => (Node.stmt s).Laid tokens used) body texts ∧ used = texts.flatten ++ [close] := by
  refine (laying.declaration.nested.many _).bind fun body => lays_expect fun close _ => lays_pure ?_
  rintro _ rest _ _ _ u _ ⟨texts,each,rfl⟩
  exact ⟨texts,close,each,rfl⟩

theorem held_of_each {α : Type} {node : α → Node} {values : List α} {texts : List (List Token)} {text : List Token}
    (each : Each (fun used a => (node a).Laid tokens used) values texts) (within : texts.flatten <:+: text) :
    ∀ child ∈ values.map node, child.Held tokens text := by
  obtain ⟨items,laid,rfl,rfl⟩ := each
  refine List.forall_mem_map.mpr fun a mem => ?_
  obtain ⟨item,there,rfl⟩ := List.mem_map.mp mem
  exact (laid item there).held ((List.infix_of_mem_flatten (List.mem_map_of_mem there)).trans within)

theorem parameter_lays (sequential : Sequential tokens) :
    Lays parameter fun _ used name _ => (Node.declared name).Laid tokens used :=
  lays_expect fun token _ => lays_pure fun _ _ _ _ => Node.laid_declared sequential token

theorem Laying.functionRule (laying : inner.Laying tokens) :
    Lays inner.functionRule fun before used s _ => (Node.stmt s).Laid tokens (before :: used) := by
  have sequential := laying.sequential
  refine lays_last fun word => lays_expect fun name _ => lays_expect fun opening _ => ?_
  have listed : Lays (do if ← sees .rightParen then pure [] else commaSeparated parameter)
      fun _ used names _ => ∀ name ∈ names, (Node.declared name).Held tokens used := by
    refine lays_sees (lays_pure fun _ _ => nofun) ((parameter_lays sequential).commaSeparated.weaken ?_)
    rintro _ used names _ ⟨texts,each,separated⟩
    exact held_of_separated each separated
  refine lays_choose listed fun params => lays_expect fun closing _ => lays_expect fun brace _ => ?_
  refine laying.block.bind fun body => lays_spanFrom fun span => lays_pure ?_
  rintro _ rest rfl _ _ rfl ⟨texts,close,each,rfl⟩ _ _ _ _ _ u _ held _ _ _ _ isWord
  cases isWord
  rw [List.append_nil,List.getLastD_concat]
  have around : (word.span.join close.span).Spread tokens
      (word :: name :: opening :: (u ++ closing :: brace :: (texts.flatten ++ [close]))) :=
    Span.spread_behind sequential ⟨word :: name :: opening :: (u ++ closing :: brace :: texts.flatten),by simp⟩
  have within : texts.flatten <:+: word :: name :: opening :: (u ++ closing :: brace :: (texts.flatten ++ [close])) :=
    ⟨[word,name,opening] ++ u ++ [closing,brace],[close],by simp⟩
  refine Node.laid_stmt sequential around ?_ fun inside statements encloses => ?_
  · refine List.forall_mem_cons.mpr ⟨?_,List.forall_mem_append.mpr ⟨?_,held_of_each each within⟩⟩
    · exact (Node.laid_declared sequential name).held ⟨[word],_,rfl⟩
    · exact List.forall_mem_map.mpr fun param mem => (held param mem).mono ⟨[word,name,opening],_,rfl⟩
  · cases encloses
    exact Node.inOrder_of_each sequential each (within.trans inside)

theorem Laying.blockRule (laying : inner.Laying tokens) :
    Lays inner.blockRule fun before used s _ => (Node.stmt s).Laid tokens (before :: used) := by
  have sequential := laying.sequential
  refine lays_last fun brace => laying.block.bind fun body => lays_spanFrom fun span => lays_pure ?_
  rintro _ rest rfl _ _ rfl ⟨texts,close,each,rfl⟩ isBrace
  cases isBrace
  rw [List.append_nil,List.getLastD_concat]
  have around : (brace.span.join close.span).Spread tokens (brace :: (texts.flatten ++ [close])) :=
    Span.spread_behind sequential ⟨brace :: texts.flatten,rfl⟩
  have within : texts.flatten <:+: brace :: (texts.flatten ++ [close]) := ⟨[brace],[close],rfl⟩
  refine Node.laid_stmt sequential around (held_of_each each within) fun inside statements encloses => ?_
  cases encloses
  exact Node.inOrder_of_each sequential each (within.trans inside)

theorem Laying.forStart (laying : inner.Laying tokens) :
    Lays inner.forStart fun _ used start _ => ∀ s ∈ start, (Node.stmt s).Held tokens used := by
  refine lays_accept (fun _ _ => lays_pure fun _ _ _ _ => nofun) ?_
  refine lays_accept (fun word _ => ?_) ?_
  · refine (laying.varRule.map some).weaken ?_
    rintro _ used _ _ ⟨s,rfl,laid⟩ rfl _ other mem
    cases mem
    exact laid.held List.infix_rfl
  · refine (laying.expressionStatement.map some).weaken ?_
    rintro _ used _ _ ⟨s,rfl,laid⟩ other mem
    cases mem
    exact laid.held List.infix_rfl

theorem Laying.forRule (laying : inner.Laying tokens) :
    Lays inner.forRule fun before used s _ => before.kind = .kwFor → (Node.stmt s).Laid tokens (before :: used) := by
  refine lays_last fun word => lays_expect fun opening _ => laying.forStart.bind fun start => ?_
  refine (laying.expressionUnless _).bind fun test => lays_expect fun semicolon _ => ?_
  refine (laying.expressionUnless _).bind fun step => lays_expect fun _ _ => ?_
  refine laying.statement.nested.bind fun body => lays_spanFrom fun span => lays_pure ?_
  rintro _ rest rfl closing us rfl repeated rfl _ _ steps _ stepped _ _ _ tests _ tested _ starts _ started _ _ isWord isFor
  cases isWord
  rw [List.append_nil]
  have behind : closing :: us <:+ word :: opening :: (starts ++ (tests ++ semicolon :: (steps ++ closing :: us))) :=
    ⟨word :: opening :: (starts ++ (tests ++ semicolon :: steps)),by simp⟩
  refine Node.laid_forTree laying.sequential isFor ?_ (fun s mem => ?_) (fun e mem => ?_) (by simp) (fun e mem => ?_) ?_
  · exact Span.spread_behind laying.sequential ((Span.getLastD_suffix closing us).trans behind)
  · exact (started s mem).mono ⟨[word,opening],_,rfl⟩
  · exact (tested e mem).mono ⟨word :: opening :: starts,semicolon :: (steps ++ closing :: us),by simp⟩
  · exact (stepped e mem).mono ⟨word :: opening :: (starts ++ (tests ++ [semicolon])),closing :: us,by simp⟩
  · exact repeated.held ((List.suffix_cons _ _).trans behind).isInfix

theorem Laying.ifRule (laying : inner.Laying tokens) :
    Lays inner.ifRule fun before used s _ => (Node.stmt s).Laid tokens (before :: used) := by
  refine lays_last fun word => lays_expect fun opening _ => laying.expression.bind fun test => ?_
  refine lays_expect fun _ _ => laying.statement.nested.bind fun yes => ?_
  have branch : Lays (do if ← accept .kwElse then some <$> nested inner.statement else pure none)
      fun _ used no _ => ∀ s ∈ no, (Node.stmt s).Held tokens used := by
    refine lays_accept (fun other _ => ?_) (lays_pure fun _ _ => nofun)
    refine (laying.statement.nested.map some).weaken ?_
    rintro _ used _ _ ⟨s,rfl,laid⟩ _ _ inner mem
    cases mem
    exact laid.held (List.suffix_cons _ _).isInfix
  refine lays_choose branch fun no => lays_spanFrom fun span => lays_pure ?_
  rintro _ rest rfl _ vs rfl otherwise closing us rfl done rfl _ _ ts _ tested _ _ isWord
  cases isWord
  rw [List.append_nil]
  have behind : closing :: (us ++ vs) <:+ word :: opening :: (ts ++ closing :: (us ++ vs)) := ⟨word :: opening :: ts,rfl⟩
  -- The last token is that of the branch behind `else`, or that of the one in front if there is no other.
  have ends : [vs.getLastD (us.getLastD closing)] <:+ closing :: (us ++ vs) := by
    obtain ⟨front,same⟩ := Span.getLastD_suffix closing us
    refine (Span.getLastD_suffix _ vs).trans ⟨front,?_⟩
    rw [← List.cons_append,← same,List.append_assoc,List.singleton_append]
  refine Node.laid_stmt laying.sequential (Span.spread_behind laying.sequential (ends.trans behind)) ?_ fun _ _ => nofun
  refine List.forall_mem_cons.mpr ⟨?_,List.forall_mem_cons.mpr ⟨?_,held_option fun s mem => ?_⟩⟩
  · exact tested.held ⟨[word,opening],closing :: (us ++ vs),rfl⟩
  · exact done.held ⟨word :: opening :: (ts ++ [closing]),vs,by simp⟩
  · exact (otherwise s mem).mono ⟨word :: opening :: (ts ++ closing :: us),[],by simp⟩

theorem Laying.returnRule (laying : inner.Laying tokens) :
    Lays inner.returnRule fun before used s _ => (Node.stmt s).Laid tokens (before :: used) := by
  refine lays_last fun word => (laying.expressionUnless _).bind fun value => lays_expect fun _ _ => ?_
  refine lays_spanFrom fun span => lays_pure ?_
  rintro semicolon rest rfl rfl _ _ u _ held isWord
  cases isWord
  have around : (word.span.join semicolon.span).Spread tokens (word :: (u ++ [semicolon])) :=
    Span.spread_behind laying.sequential ⟨word :: u,rfl⟩
  refine Node.laid_stmt laying.sequential around (held_option fun inner mem => ?_) fun _ _ => nofun
  exact (held inner mem).mono ⟨[word],[semicolon],rfl⟩

theorem Laying.whileRule (laying : inner.Laying tokens) :
    Lays inner.whileRule fun before used s _ => (Node.stmt s).Laid tokens (before :: used) := by
  refine lays_last fun word => lays_expect fun opening _ => laying.expression.bind fun test => ?_
  refine lays_expect fun _ _ => laying.statement.nested.bind fun body => lays_spanFrom fun span => lays_pure ?_
  rintro _ rest rfl closing us rfl repeated rfl _ _ ts _ tested _ _ isWord
  cases isWord
  rw [List.append_nil]
  have behind : closing :: us <:+ word :: opening :: (ts ++ closing :: us) := ⟨word :: opening :: ts,rfl⟩
  have around := Span.spread_behind laying.sequential ((Span.getLastD_suffix closing us).trans behind)
  refine Node.laid_stmt laying.sequential around ?_ fun _ _ => nofun
  refine List.forall_mem_cons.mpr ⟨tested.held ⟨[word,opening],closing :: us,rfl⟩,List.forall_mem_singleton.mpr ?_⟩
  exact repeated.held ((List.suffix_cons _ _).trans behind).isInfix

/-- What is laid over the token consumed last and those consumed behind it, behind a word. -/
theorem lays_behind {p : Parser Stmt} {word : Token}
    (lays : Lays p fun before used s _ => (Node.stmt s).Laid tokens (before :: used)) :
    Lays p fun before used s _ => before = word → Token → (Node.stmt s).Laid tokens (word :: used) := by
  refine lays.weaken ?_
  rintro _ used s _ laid rfl _
  exact laid

theorem Laying.statementRule (laying : inner.Laying tokens) :
    Lays inner.statementRule fun _ used s _ => (Node.stmt s).Laid tokens used := by
  refine lays_accept (fun word isFor => ?_) (lays_accept (fun _ _ => lays_behind laying.ifRule) ?_)
  · refine laying.forRule.weaken ?_
    rintro _ used s _ laid rfl _
    exact laid isFor
  refine lays_accept (fun _ _ => lays_behind laying.returnRule) (lays_accept (fun _ _ => lays_behind laying.whileRule) ?_)
  exact lays_accept (fun _ _ => lays_behind laying.blockRule) laying.expressionStatement

theorem Laying.declarationRule (laying : inner.Laying tokens) :
    Lays inner.declarationRule fun _ used s _ => (Node.stmt s).Laid tokens used :=
  lays_accept (fun _ _ => lays_behind laying.functionRule)
    (lays_accept (fun _ _ => lays_behind laying.varRule) laying.statementRule)

/-- At every nesting level the rules lay their trees over the tokens that they consume. -/
theorem level_laying (sequential : Sequential tokens) : ∀ n, (level n).Laying tokens
  | 0 => ⟨sequential,lays_fail _,lays_fail _,lays_fail _,lays_fail _⟩
  | n + 1 =>
    have inner := level_laying sequential n
    ⟨sequential,inner.assignmentRule,inner.unaryRule,inner.declarationRule,inner.statementRule⟩

end Nested

/-- The statements of a program are in order, and all nodes of its tree are exact. -/
theorem exact_of_ofTokens {final : Token} {program : Program} (marked : Marked tokens final)
    (sequential : Sequential tokens) (parsed : ofTokens (tokens ++ [final]) = .ok program) :
    Stmt.InOrder program.statements ∧ ∀ node, program.Has node → node.Exact tokens := by
  rw [marked.ofTokens_eq] at parsed
  obtain ⟨value,clean⟩ := conclude_ok parsed
  have lays := (Nested.level_laying sequential maxNesting).declaration.nested.many State.atEnd
  obtain ⟨used,found,went,made⟩ := lays (startOf tokens final) marked.ends
  have none : found = [] := went.problems.symm.trans clean
  obtain ⟨statements,value',texts,each,rfl⟩ := made none
  cases value.symm.trans value'
  have inside : texts.flatten <:+: tokens := ⟨[],_,went.rest.symm⟩
  refine ⟨Node.inOrder_of_each sequential each inside,?_⟩
  rintro node ⟨s,mem,below⟩
  obtain ⟨part,within,laid⟩ := Nested.held_of_each each List.infix_rfl _ (List.mem_map_of_mem mem)
  exact (laid (within.trans inside)).2 node below

theorem placed_of_word {source : String} {token : Token} (mem : token ∈ words source) :
    Token.Placed source (.token token) :=
  (Token.items_account [] source.toList).1.covers.placed _ (item_of_word mem)

theorem words_sequential (source : String) : Sequential (words source) := by
  have covers := (Token.items_account [] source.toList).1.covers
  refine ⟨fun token mem => (placed_of_word mem).nonempty,?_⟩
  refine covers.ordered.filterMap _ fun item item' ordered token isToken token' isToken' => ?_
  cases item with
  | problem => cases isToken
  | token =>
    cases item' with
    | problem => cases isToken'
    | token =>
      cases isToken
      cases isToken'
      exact ordered

/-- The slice of a source text where a token is found is the text of the token. -/
theorem slice_of_word {source : String} {token : Token} (mem : token ∈ words source) :
    String.Pos.Raw.extract source ⟨token.span.start⟩ ⟨token.span.stop⟩ = token.lexeme := by
  obtain ⟨before,text,rest,_,slice,described⟩ := (placed_of_word mem).described
  cases described
  exact slice

/-- Spans are exact. In a program that compiles, the statements come in order, and so do those of every function and
written block; every statement, expression, declared name and parameter runs from the start of a token to the end of
that or a later one, on the line of its start, and holds what is directly below it; and the source text at a name
is the name. -/
theorem compile_exact {source : String} {program : Program} (compiles : compile source = .ok program) :
    Stmt.InOrder program.statements ∧ ∀ node, program.Has node →
      node.Exact (words source) ∧
      node.span.line = 1 + (String.Pos.Raw.extract source 0 ⟨node.span.start⟩).toList.count '\n' ∧
      ∀ name ∈ node.name?, String.Pos.Raw.extract source ⟨node.span.start⟩ ⟨node.span.stop⟩ = name := by
  obtain ⟨parsed,_⟩ := compile_ok compiles
  rw [tokens_eq] at parsed
  obtain ⟨ordered,exact'⟩ := exact_of_ofTokens (words_marked source) (words_sequential source) parsed
  refine ⟨ordered,fun node has => ⟨exact' node has,?_,fun name isName => ?_⟩⟩
  · obtain ⟨text,inside,first,isFirst,_,_,start,line,_⟩ := (exact' node has).runs
    rw [line,start]
    exact (placed_of_word (inside.subset (List.mem_of_mem_head? isFirst))).line
  · obtain ⟨token,mem,rfl,place⟩ := (exact' node has).named name isName
    rw [← place]
    exact slice_of_word mem

/-- A program with all that makes up spans: a function, a `for` loop with its blocks, calls and operators. -/
theorem compile_exact_for : ∃ program,
    compile "function f(a) { for (var i = a; i; i = f(i)) { i; a; } }\nf(a + a * a)[a];" = .ok program ∧
    program.statements.length = 2 ∧ Stmt.InOrder program.statements ∧ ∀ node, program.Has node →
      ∀ child ∈ node.children, node.span.start ≤ child.span.start ∧ child.span.stop ≤ node.span.stop := by
  let source := "function f(a) { for (var i = a; i; i = f(i)) { i; a; } }\nf(a + a * a)[a];"
  obtain ⟨program,compiles⟩ := compiled_of_isOk source (by decide +kernel)
  have two : ∀ program ∈ (compile source).toOption, program.statements.length = 2 := by decide +kernel
  obtain ⟨ordered,exact'⟩ := compile_exact compiles
  exact ⟨program,compiles,two program (by rw [compiles]; rfl),ordered,fun node has => (exact' node has).1.inside⟩

end TurtleScript.Program
