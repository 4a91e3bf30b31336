import TurtleScript.Proofs.ParserSoundness
import TurtleScript.Proofs.Takes

/-!
Expressions of the grammar are accepted. The rule of a level takes the tokens of a phrase if those behind
them could not go on it, and makes the tree of them but for the spans, unless things nest too deeply
(`Phrase.grown`). On the levels that group to the left a phrase is taken piece by piece, so what holds of it
there is that the rule gets behind it with pieces to come.
-/

namespace TurtleScript.Program

open TurtleScript.Program.Parser

namespace Level

/-- The kinds of tokens that can begin a phrase of the level. -/
def openers : Level → List Token.Kind
  | .call | .primary =>
    [.kwTrue,.kwFalse,.kwNull,.number,.string,.identifier,.leftParen,.leftBracket]
  | _ => [.bang,.minus,.kwTrue,.kwFalse,.kwNull,.number,.string,.identifier,.leftParen,.leftBracket]

/-- The kinds of tokens that a phrase of the level could go on with. -/
def reach : Level → List Token.Kind
  | .primary => []
  | .call | .unary => [.leftParen,.leftBracket]
  | .factor => [.leftParen,.leftBracket,.star,.slash]
  | .term => [.leftParen,.leftBracket,.star,.slash,.plus,.minus]
  | .comparison => [.leftParen,.leftBracket,.star,.slash,.plus,.minus,.lt,.ltEq,.gt,.gtEq]
  | .equality => [.leftParen,.leftBracket,.star,.slash,.plus,.minus,.lt,.ltEq,.gt,.gtEq,.eqEq,.bangEq]
  | .logical =>
    [.leftParen,.leftBracket,.star,.slash,.plus,.minus,.lt,.ltEq,.gt,.gtEq,.eqEq,.bangEq,.kwAnd,.kwOr]
  | .assignment =>
    [.leftParen,.leftBracket,.star,.slash,.plus,.minus,.lt,.ltEq,.gt,.gtEq,.eqEq,.bangEq,.kwAnd,.kwOr,.eq]

theorem mem_openers_of_tighter {level : Level} {kind : Token.Kind} (opens : kind ∈ level.tighter.openers) :
    kind ∈ level.openers := by
  have all : ∀ other ∈ level.tighter.openers, other ∈ level.openers := by cases level <;> decide
  exact all kind opens

theorem mem_reach_of_tighter {level : Level} {kind : Token.Kind} (reached : kind ∈ level.tighter.reach) :
    kind ∈ level.reach := by
  have all : ∀ other ∈ level.tighter.reach, other ∈ level.reach := by cases level <;> decide
  exact all kind reached

theorem operator_reach {level : Level} {kind : Token.Kind} {op : BinaryOp}
    (joins : level.operator kind = some op) : kind ∈ level.reach ∧ kind ∉ level.tighter.reach := by
  cases level <;> cases kind <;> first | (cases joins; done) | decide

theorem connective_reach {kind : Token.Kind} {op : LogicalOp} (joins : connective kind = some op) :
    kind ∈ Level.logical.reach ∧ kind ∉ Level.equality.reach := by
  cases kind <;> first | (cases joins; done) | decide

end Level

def Opens (kinds : List Token.Kind) (ts : List Token) : Prop :=
  ∃ token later, ts = token :: later ∧ token.kind ∈ kinds

theorem Opens.append {kinds : List Token.Kind} {ts : List Token} (opens : Opens kinds ts) (us : List Token) :
    Opens kinds (ts ++ us) := by
  obtain ⟨token,later,rfl,isKind⟩ := opens
  exact ⟨token,later ++ us,rfl,isKind⟩

theorem Opens.not_begins {kinds : List Token.Kind} {ts : List Token} {kind : Token.Kind} (opens : Opens kinds ts)
    (other : kind ∉ kinds) : ¬ Begins kind ts := by
  obtain ⟨token,later,rfl,isKind⟩ := opens
  intro begins
  rw [begins_cons begins] at isKind
  exact other isKind

theorem Phrase.opens {level : Level} {ts : List Token} {e : Expr} (phrase : Phrase level ts e) :
    Opens level.openers ts := by
  induction phrase with
  | tighter level _ ih =>
    obtain ⟨token,later,same,isKind⟩ := ih
    exact ⟨token,later,same,Level.mem_openers_of_tighter isKind⟩
  | assign isName _ _ _ => exact ⟨_,_,rfl,by rw [isName]; decide⟩
  | logical _ _ _ ih _ => exact ih.append _
  | binary _ _ _ ih _ => exact ih.append _
  | @unary mark _ op _ _ stands _ _ =>
    refine ⟨mark,_,rfl,?_⟩
    cases kind : mark.kind <;> rw [kind] at stands <;> first | (cases stands; done) | decide
  | call _ _ _ _ _ ih _ => exact ih.append _
  | index _ _ _ _ ih _ => exact ih.append _
  | @literal token value span stands =>
    refine ⟨token,[],rfl,?_⟩
    unfold literal? at stands
    cases kind : token.kind <;> simp only [kind] at stands <;> first | (cases stands; done) | decide
  | var isName => exact ⟨_,_,rfl,by rw [isName]; decide⟩
  | group opens _ _ _ => exact ⟨_,_,rfl,by rw [opens]; decide⟩
  | array opens _ _ _ _ => exact ⟨_,_,rfl,by rw [opens]; decide⟩

/-- The tokens could not go on a phrase of the level. -/
def Follow (level : Level) (rest : List Token) : Prop :=
  ∀ token later, rest = token :: later → token.kind ∉ level.reach

theorem follow_cons {level : Level} {token : Token} {rest : List Token} (other : token.kind ∉ level.reach) :
    Follow level (token :: rest) := by
  intro first later same
  rw [← (List.cons.inj same).1]
  exact other

theorem Follow.tighter {level : Level} {rest : List Token} (follow : Follow level rest) :
    Follow level.tighter rest :=
  fun token later same reached => follow token later same (Level.mem_reach_of_tighter reached)

theorem Follow.not_begins {level : Level} {rest : List Token} {kind : Token.Kind} (follow : Follow level rest)
    (reached : kind ∈ level.reach) : ¬ Begins kind rest := by
  rintro ⟨token,later,same,isKind⟩
  apply follow token later same
  rw [isKind]
  exact reached

theorem follow_of_begins {level : Level} {rest : List Token} {kind : Token.Kind} (begins : Begins kind rest)
    (other : kind ∉ level.reach) : Follow level rest := by
  obtain ⟨token,later,rfl,isKind⟩ := begins
  refine follow_cons ?_
  rw [isKind]
  exact other

namespace Level

def rule (inner : Nested) : Level → Parser Expr
  | .assignment => inner.assignmentRule
  | .logical => inner.logical
  | .equality => inner.equality
  | .comparison => inner.comparison
  | .term => inner.term
  | .factor => inner.factor
  | .unary => inner.unaryRule
  | .call => inner.call
  | .primary => inner.primary

/-- The levels whose phrases grow to the right, piece by piece. -/
def grows : Level → Bool
  | .assignment | .unary | .primary => false
  | _ => true

def piece (inner : Nested) : Level → Expr → Parser (Option Expr)
  | .logical => inner.logicalOperand
  | .call => inner.suffixed
  | level => Nested.operand level.operator (level.tighter.rule inner)

/-- A level that grows begins with a phrase of the next tighter level and takes pieces as long as there
are any. -/
theorem rule_eq {level : Level} (grows : level.grows = true) (inner : Nested) :
    level.rule inner = levelled (do extend (level.piece inner) (← level.tighter.rule inner)) := by
  have table : ∀ (op? : Token.Kind → Option BinaryOp), (∀ kind, op? kind = level.operator kind) →
      Nested.binaryLevel op? (level.tighter.rule inner) =
        levelled (do
          extend (Nested.operand level.operator (level.tighter.rule inner)) (← level.tighter.rule inner)) := by
    intro op? same
    rw [funext same]
    rfl
  cases level with
  | assignment | unary | primary => cases grows
  | logical | call => rfl
  | equality | comparison | term | factor => exact table _ fun kind => by cases kind <;> rfl

end Level

def Same (e f : Expr) : Prop := f.bare = e.bare

/-- With room for some levels, the rule of the level takes the tokens as the tree; on a level that grows,
it gets behind them as the tree with more pieces to come. -/
def Grown (level : Level) (room : Nat) (ts : List Token) (e : Expr) : Prop :=
  if level.grows then
    Loops (level.tighter.rule (.level room)) (level.piece (.level room)) room ts (Follow level.tighter) (Same e)
  else Takes (level.rule (.level room)) room ts (Follow level) (Same e)

variable {room : Nat} {ts us : List Token}

/-- What comes next where a phrase of the level could not go on is no token that it could go on with. -/
theorem takes_ahead {level : Level} {g : Token → Parser (Option Expr)}
    (beyond : ∀ token : Token, token.kind ∉ level.reach → g token = pure none) :
    Takes (do g (← look State.next)) room [] (Follow level) fun next => next = none := by
  intro s rest ready tokens follow
  have left : s.rest = rest := tokens
  have other : s.next.kind ∉ level.reach := by
    unfold State.next
    rw [left]
    cases rest with
    | nil =>
      show s.final.kind ∉ level.reach
      rw [ready.ended]
      cases level <;> decide
    | cons token later => exact follow token later rfl
  have step : (do g (← look State.next)) s = g s.next s := rfl
  rw [step,beyond _ other]
  exact .inl ⟨none,s,rfl,⟨left,rfl,rfl,Nat.le_refl _⟩,rfl⟩

theorem piece_over {level : Level} (grows : level.grows = true) (inner : Nested) (e : Expr) :
    Takes (level.piece inner e) room [] (Follow level) fun next => next = none := by
  have operators : ∀ {f : Parser Expr}, (∀ kind op, level.operator kind = some op → kind ∈ level.reach) →
      Takes (Nested.operand level.operator f e) room [] (Follow level) fun next => next = none := by
    intro f reached
    refine takes_ahead fun token other => ?_
    have nothing : level.operator token.kind = none := by
      cases found : level.operator token.kind with
      | none => rfl
      | some op => exact absurd (reached _ op found) other
    simp only [nothing]
  cases level with
  | assignment | unary | primary => cases grows
  | equality | comparison | term | factor =>
    exact operators fun kind op joins => (Level.operator_reach joins).1
  | logical =>
    refine takes_ahead fun token other => ?_
    have nothing : Nested.logicalOp? token.kind = none := by
      rw [Nested.logicalOp_eq]
      cases found : connective token.kind with
      | none => rfl
      | some op => exact absurd (Level.connective_reach found).1 other
    simp only [nothing]
  | call =>
    refine takes_unseen (fun rest follow => follow.not_begins (by decide)) ?_
    refine takes_unseen (fun rest follow => follow.not_begins (by decide)) ?_
    exact takes_pure rfl

theorem Grown.takes {level : Level} {e : Expr} (grown : Grown level room ts e) :
    Takes (level.rule (.level room)) room ts (Follow level) (Same e) := by
  unfold Grown at grown
  split at grown
  case isTrue grows =>
    rw [Level.rule_eq grows]
    exact takes_levelled (grown.done (piece_over grows _) fun rest follow => follow.tighter)
  case isFalse => exact grown

theorem grown_of_tighter {level : Level} {e : Expr} (phrase : Phrase level.tighter ts e)
    (takes : Takes (level.tighter.rule (.level room)) room ts (Follow level.tighter) (Same e)) :
    Grown level room ts e := by
  unfold Grown
  split
  case isTrue => exact loops_first takes
  case isFalse still =>
    cases level with
    | assignment =>
      refine (takes.weaken (fun _ follow => follow.tighter) fun _ same => same).last fun target same => ?_
      refine takes_unaccepted (fun rest follow => follow.not_begins (by decide)) ?_
      exact takes_pure same
    | unary =>
      obtain ⟨token,later,rfl,isOpener⟩ := phrase.opens
      have noSign : Nested.unaryOp? token.kind = none := by
        rw [Nested.unaryOp_eq]
        have unsigned : ∀ kind ∈ Level.call.openers, sign kind = none := by decide
        exact unsigned _ isOpener
      refine takes_next ?_
      simp only [noSign]
      exact takes.weaken (fun _ follow => follow.tighter) fun _ same => same
    | primary => exact takes
    | _ => exact absurd rfl still

/-! ### Phrases -/

theorem takes_operand {level : Level} {f : Parser Expr} {mark : Token} {op : BinaryOp} {a b left : Expr}
    {span : Span} (joins : level.operator mark.kind = some op) (same : Same a left)
    (right : Takes f room us (Follow level.tighter) (Same b)) :
    Takes (Nested.operand level.operator f left) room (mark :: us) (Follow level.tighter)
      fun next => ∃ e, next = some e ∧ Same (.binary op a b span) e := by
  refine takes_next ?_
  simp only [joins]
  refine takes_deepen (takes_advance (right.last fun e same' => takes_pure ⟨_,rfl,?_⟩))
  unfold Same at same same' ⊢
  simp only [Expr.bare,same,same']

theorem takes_logicalOperand {word : Token} {op : LogicalOp} {a b left : Expr} {span : Span}
    (joins : connective word.kind = some op) (same : Same a left)
    (right : Takes (Level.equality.rule (.level room)) room us (Follow .equality) (Same b)) :
    Takes ((Nested.level room).logicalOperand left) room (word :: us) (Follow .equality)
      fun next => ∃ e, next = some e ∧ Same (.logical op a b span) e := by
  refine takes_next ?_
  simp only [Nested.logicalOp_eq,joins]
  refine takes_advance (takes_deepen (right.last fun e same' => takes_pure ⟨_,rfl,?_⟩))
  unfold Same at same same' ⊢
  simp only [Expr.bare,same,same']

theorem takes_expression {e : Expr} (takes : ∀ room, Takes (Level.assignment.rule (.level room)) room ts
    (Follow .assignment) (Same e)) :
    Takes (Nested.level room).expression room ts (Follow .assignment) (Same e) := by
  refine takes_nested fun fewer same => ?_
  subst same
  exact takes fewer

/-- The rule for expressions takes the phrase, whatever the room. -/
def Taken (ts : List Token) (e : Expr) : Prop :=
  Phrase .assignment ts e ∧ ∀ room, Takes (Level.assignment.rule (.level room)) room ts (Follow .assignment) (Same e)

theorem takes_arguments {args : List (List Token × Expr)} {closing : Token} {close : Token.Kind}
    {follow : List Token → Prop} (complaint : Complaint) (isClose : close = .rightParen ∨ close = .rightBracket)
    (each : ∀ arg ∈ args, Taken arg.1 arg.2) (listed : Separated (args.map Prod.fst) us)
    (closes : closing.kind = close) :
    Takes ((Nested.level room).arguments close complaint) room (us ++ [closing]) follow
      fun es => Expr.bareAll es = Expr.bareAll (args.map Prod.snd) := by
  have ends : ∀ es : List Expr, Expr.bareAll es = Expr.bareAll (args.map Prod.snd) →
      Takes (do let _ ← expect close complaint; pure es) room [closing] follow
        fun es => Expr.bareAll es = Expr.bareAll (args.map Prod.snd) :=
    fun es same => takes_expect closes (takes_pure same)
  refine takes_choose (Begins close) _ ?_ ends fun rest _ => ⟨closing,rest,rfl,closes⟩
  cases args with
  | nil =>
    cases listed
    exact takes_sees (fun rest begins => begins) (takes_pure rfl)
  | cons arg args =>
    let items := (arg :: args).map fun arg => (arg.1,arg.2.bare)
    have texts : items.map Prod.fst = (arg :: args).map Prod.fst := by simp [items]
    have trees : items.map Prod.snd = Expr.bareAll ((arg :: args).map Prod.snd) := by
      simp [items,Expr.bareAll_eq_map]
    have opens : Opens Level.assignment.openers us := by
      obtain ⟨tail,rfl⟩ := separated_first listed
      exact (each arg List.mem_cons_self).1.opens.append tail
    have closed : close ∉ Level.assignment.openers ∧ close ∉ Level.assignment.reach ∧ close ≠ .comma := by
      rcases isClose with rfl | rfl <;> decide
    refine takes_unseen (fun rest _ => (opens.append rest).not_begins closed.1) ?_
    have listed' : Separated (items.map Prod.fst) us := texts ▸ listed
    refine (takes_commaSeparated Expr.bare (Follow .assignment) ?_ ?_ (by simp [items]) ?_ listed').weaken
      (fun rest begins => begins) fun es same => ?_
    · exact fun rest begins => follow_of_begins begins (by decide)
    · intro rest begins
      exact ⟨follow_of_begins begins closed.2.1,fun comma => closed.2.2 (begins_unique begins comma)⟩
    · intro item member
      obtain ⟨arg,isArg,rfl⟩ := List.mem_map.mp member
      exact takes_expression (each arg isArg).2
    · rw [Expr.bareAll_eq_map,same,trees]

theorem takes_call {f target : Expr} {args : List (List Token × Expr)} {opening closing : Token} {span : Span}
    (same : Same f target) (opens : opening.kind = .leftParen) (each : ∀ arg ∈ args, Taken arg.1 arg.2)
    (listed : Separated (args.map Prod.fst) us) (closes : closing.kind = .rightParen) :
    Takes ((Nested.level room).suffixed target) room (opening :: (us ++ [closing])) (Follow .primary)
      fun next => ∃ e, next = some e ∧ Same (.call f (args.map Prod.snd) span) e := by
  refine takes_sees (fun rest _ => ⟨opening,_,rfl,opens⟩) ?_
  rw [if_pos rfl]
  refine takes_deepen (takes_advance ((takes_arguments _ (.inl rfl) each listed closes).last fun es same' => ?_))
  refine takes_look fun _ => takes_pure ⟨_,rfl,?_⟩
  unfold Same at same ⊢
  simp only [Expr.bare,same,same']

theorem takes_index {a b target : Expr} {opening closing : Token} {span : Span} (same : Same a target)
    (opens : opening.kind = .leftBracket) (position : Taken us b) (closes : closing.kind = .rightBracket) :
    Takes ((Nested.level room).suffixed target) room (opening :: (us ++ [closing])) (Follow .primary)
      fun next => ∃ e, next = some e ∧ Same (.index a b span) e := by
  have other : ∀ rest, ¬ Begins .leftParen (opening :: (us ++ [closing]) ++ rest) := by
    intro rest begins
    have isParen := begins_cons begins
    rw [opens] at isParen
    cases isParen
  refine takes_unseen (fun rest _ => other rest) ?_
  rw [if_neg Bool.false_ne_true]
  refine takes_sees (fun rest _ => ⟨opening,_,rfl,opens⟩) ?_
  rw [if_pos rfl]
  refine takes_deepen (takes_advance ((takes_expression position.2).bind (fun e same' => ?_)
    fun rest _ => follow_cons (by rw [closes]; decide)))
  refine takes_expect closes (takes_look fun _ => takes_pure ⟨_,rfl,?_⟩)
  unfold Same at same same' ⊢
  simp only [Expr.bare,same,same']

theorem takes_leaf {token : Token} {e : Expr} (noParen : token.kind ≠ .leftParen)
    (noBracket : token.kind ≠ .leftBracket) {f : Expr} (leaf : Nested.leaf? token = .ok f) (same : Same e f) :
    Takes (Nested.level room).primary room [token] (Follow .primary) (Same e) := by
  refine takes_next ?_
  split
  case h_1 kind => exact absurd kind noParen
  case h_2 kind => exact absurd kind noBracket
  case h_3 =>
    rw [leaf]
    exact takes_advance (takes_pure same)

theorem takes_group {e : Expr} {opening closing : Token} {span : Span} (opens : opening.kind = .leftParen)
    (content : Taken ts e) (closes : closing.kind = .rightParen) :
    Takes (Nested.level room).primary room (opening :: (ts ++ [closing])) (Follow .primary)
      (Same (.grouping e span)) := by
  refine takes_next ?_
  simp only [opens]
  refine takes_advance ((takes_expression content.2).bind (fun f same => ?_)
    fun rest _ => follow_cons (by rw [closes]; decide))
  refine takes_expect closes (takes_look fun _ => takes_pure ?_)
  unfold Same at same ⊢
  simp only [Expr.bare,same]

theorem takes_array {items : List (List Token × Expr)} {opening closing : Token} {span : Span}
    (opens : opening.kind = .leftBracket) (each : ∀ item ∈ items, Taken item.1 item.2)
    (listed : Separated (items.map Prod.fst) us) (closes : closing.kind = .rightBracket) :
    Takes (Nested.level room).primary room (opening :: (us ++ [closing])) (Follow .primary)
      (Same (.array (items.map Prod.snd) span)) := by
  refine takes_next ?_
  simp only [opens]
  refine takes_advance ((takes_arguments _ (.inr rfl) each listed closes).last fun es same => ?_)
  refine takes_look fun _ => takes_pure ?_
  unfold Same
  simp only [Expr.bare,same]

theorem takes_literal {token : Token} {value : Literal} {span : Span} (stands : literal? token = some value) :
    Takes (Nested.level room).primary room [token] (Follow .primary) (Same (.literal value span)) := by
  unfold literal? at stands
  refine takes_leaf ?_ ?_ (f := .literal value token.span) ?_ rfl
  · intro kind
    simp [kind] at stands
  · intro kind
    simp [kind] at stands
  · split at stands
    case h_1 kind | h_2 kind | h_3 kind =>
      cases stands
      simp only [Nested.leaf?,kind]
    case h_4 kind | h_5 kind =>
      split at stands
      case h_1 payload | h_2 payload =>
        cases stands
        simp only [Nested.leaf?,kind,payload]
      case h_3 => cases stands
    case h_6 => cases stands

theorem takes_var {token : Token} {span : Span} (isName : token.kind = .identifier) :
    Takes (Nested.level room).primary room [token] (Follow .primary) (Same (.var token.lexeme span)) := by
  refine takes_leaf ?_ ?_ (f := .var token.lexeme token.span) ?_ rfl
  · simp [isName]
  · simp [isName]
  · simp only [Nested.leaf?,isName]

theorem takes_name {token : Token} (span : Span) (isName : token.kind = .identifier) :
    Takes (Level.logical.rule (.level room)) room [token] (Follow .logical) (Same (.var token.lexeme span)) := by
  have looser : ∀ level : Level, Phrase level.tighter [token] (.var token.lexeme span) ∧
      Takes (level.tighter.rule (.level room)) room [token] (Follow level.tighter) (Same (.var token.lexeme span)) →
      Phrase level [token] (.var token.lexeme span) ∧
      Takes (level.rule (.level room)) room [token] (Follow level) (Same (.var token.lexeme span)) :=
    fun level known => ⟨.tighter level known.1,(grown_of_tighter known.1 known.2).takes⟩
  have primary : Phrase .primary [token] (.var token.lexeme span) ∧
      Takes (Level.primary.rule (.level room)) room [token] (Follow .primary) (Same (.var token.lexeme span)) :=
    ⟨.var isName,takes_var isName⟩
  exact (looser .logical (looser .equality (looser .comparison (looser .term (looser .factor
    (looser .unary (looser .call primary))))))).2

theorem Grown.loops {level : Level} {e : Expr} (grows : level.grows = true) (grown : Grown level room ts e) :
    Loops (level.tighter.rule (.level room)) (level.piece (.level room)) room ts (Follow level.tighter) (Same e) := by
  unfold Grown at grown
  rwa [if_pos grows] at grown

theorem grown_of_loops {level : Level} {e : Expr} (grows : level.grows = true)
    (loops : Loops (level.tighter.rule (.level room)) (level.piece (.level room)) room ts (Follow level.tighter)
      (Same e)) : Grown level room ts e := by
  unfold Grown
  rwa [if_pos grows]

theorem operator_grows {level : Level} {kind : Token.Kind} {op : BinaryOp}
    (joins : level.operator kind = some op) (inner : Nested) :
    level.grows = true ∧ level.piece inner = Nested.operand level.operator (level.tighter.rule inner) := by
  cases level with
  | equality | comparison | term | factor => exact ⟨rfl,rfl⟩
  | _ => cases joins

theorem takes_unary {mark : Token} {op : UnaryOp} {e : Expr} {span : Span} (stands : sign mark.kind = some op)
    (operand : ∀ room, Takes (Level.unary.rule (.level room)) room ts (Follow .unary) (Same e)) :
    Takes (Nested.level room).unaryRule room (mark :: ts) (Follow .unary) (Same (.unary op e span)) := by
  have deeper : Takes (nested (Nested.level room).unary) room ts (Follow .unary) (Same e) := by
    refine takes_nested fun fewer same => ?_
    subst same
    exact operand fewer
  refine takes_next ?_
  simp only [Nested.unaryOp_eq,stands]
  refine takes_advance (deeper.last fun f same => takes_pure ?_)
  unfold Same at same ⊢
  simp only [Expr.bare,same]

theorem takes_assign {name equals : Token} {value : Expr} {span : Span} (isName : name.kind = .identifier)
    (isEquals : equals.kind = .eq)
    (right : ∀ room, Takes (Level.assignment.rule (.level room)) room ts (Follow .assignment) (Same value)) :
    Takes (Nested.level room).assignmentRule room (name :: equals :: ts) (Follow .assignment)
      (Same (.assign name.lexeme value span)) := by
  show Takes _ room ([name] ++ equals :: ts) _ _
  refine (takes_name default isName).bind (fun target same => ?_)
    fun rest _ => follow_cons (by rw [isEquals]; decide)
  refine takes_accept isEquals ?_
  rw [if_pos rfl]
  refine takes_look fun _ => (takes_expression right).last fun e same' => ?_
  cases target with
  | var other place =>
    unfold Same at same same' ⊢
    simp only [Expr.bare,Expr.var.injEq] at same
    refine takes_pure ?_
    show (Expr.assign other e _).bare = _
    simp only [Expr.bare,same.1,same']
  | _ =>
    unfold Same at same
    simp [Expr.bare] at same

theorem Phrase.grown {level : Level} {ts : List Token} {e : Expr} (phrase : Phrase level ts e) :
    ∀ room, Grown level room ts e := by
  induction phrase with
  | tighter level inner ih => exact fun room => grown_of_tighter inner (ih room).takes
  | assign isName isEquals right ih =>
    exact fun room => takes_assign isName isEquals fun room => (ih room).takes
  | logical left joins right ihLeft ihRight =>
    intro room
    refine grown_of_loops rfl (((ihLeft room).loops rfl).more (fun a same => ?_) (by simp) fun rest _ => ?_)
    · exact takes_logicalOperand joins same (ihRight room).takes
    · exact follow_cons (Level.connective_reach joins).2
  | @binary level _ _ _ _ _ _ _ left joins right ihLeft ihRight =>
    intro room
    obtain ⟨grows,piece⟩ := operator_grows joins (.level room)
    refine grown_of_loops grows (((ihLeft room).loops grows).more (fun a same => ?_) (by simp) fun rest _ => ?_)
    · rw [piece]
      exact takes_operand joins same (ihRight room).takes
    · exact follow_cons (Level.operator_reach joins).2
  | unary stands operand ih => exact fun room => takes_unary stands fun room => (ih room).takes
  | @call _ _ _ _ _ args _ callee opens each listed closes ihCallee ihArgs =>
    intro room
    have taken : ∀ arg ∈ args, Taken arg.1 arg.2 := fun arg member =>
      ⟨each arg member,fun room => (ihArgs arg member room).takes⟩
    refine grown_of_loops rfl (((ihCallee room).loops rfl).more (fun a same => ?_) (by simp) fun rest _ => ?_)
    · exact takes_call same opens taken listed closes
    · intro token later _ reached
      cases reached
  | index target opens position closes ihTarget ihPosition =>
    intro room
    refine grown_of_loops rfl (((ihTarget room).loops rfl).more (fun a same => ?_) (by simp) fun rest _ => ?_)
    · exact takes_index same opens ⟨position,fun room => (ihPosition room).takes⟩ closes
    · intro token later _ reached
      cases reached
  | literal stands => exact fun room => takes_literal stands
  | var isName => exact fun room => takes_var isName
  | group opens content closes ih =>
    exact fun room => takes_group opens ⟨content,fun room => (ih room).takes⟩ closes
  | array opens each listed closes ih =>
    exact fun room => takes_array opens (fun item member =>
      ⟨each item member,fun room => (ih item member room).takes⟩) listed closes

end TurtleScript.Program
