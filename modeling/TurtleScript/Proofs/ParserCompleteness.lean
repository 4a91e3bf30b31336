import TurtleScript.Proofs.PhraseCompleteness

/-!
Programs of the grammar are accepted. The rule of a form takes the tokens of a sentence, unless an `else`
behind them could join it or things nest too deeply (`Sentence.takes`). Together with soundness, the parser
accepts exactly the programs of the grammar that do not nest too deeply (`ofTokens_exact`).
-/

namespace TurtleScript.Program

open TurtleScript.Program.Parser

namespace Form

/-- The kinds of tokens that can begin a statement. -/
def statementOpeners : List Token.Kind :=
  [.kwFor,.kwIf,.kwReturn,.kwWhile,.leftBrace] ++ Level.assignment.openers

/-- The kinds of tokens that can begin a sentence of the form. -/
def openers : Form → List Token.Kind
  | .declaration => [.kwFunction,.kwVar] ++ statementOpeners
  | .statement _ => statementOpeners

/-- The tokens could not join a sentence of the form. Only an `else` ever could. -/
def Behind : Form → List Token → Prop
  | .statement false,_ => True
  | _,rest => ¬ Begins .kwElse rest

def rule (inner : Nested) : Form → Parser Stmt
  | .declaration => inner.declarationRule
  | .statement _ => inner.statementRule

def deeper (inner : Nested) : Form → Parser Stmt
  | .declaration => nested inner.declaration
  | .statement _ => nested inner.statement

theorem behind_of_no_else (form : Form) {rest : List Token} (other : ¬ Begins .kwElse rest) :
    form.Behind rest := by
  cases form with
  | declaration => exact other
  | statement dangling =>
    cases dangling with
    | false => trivial
    | true => exact other

end Form

theorem opens_word {word : Token} {later : List Token} {kind : Token.Kind} {kinds : List Token.Kind}
    (isKind : word.kind = kind) (named : kind ∈ kinds) : Opens kinds (word :: later) :=
  ⟨word,later,rfl,isKind ▸ named⟩

theorem Variable.opens {ts : List Token} {s : Stmt} (declared : Variable ts s) : Opens [.kwVar] ts := by
  cases declared with
  | unset isVar _ _ => exact opens_word isVar (by decide)
  | set isVar _ _ _ _ => exact opens_word isVar (by decide)

theorem Effect.opens {ts : List Token} {s : Stmt} (effect : Effect ts s) : Opens Level.assignment.openers ts := by
  cases effect with
  | mk phrase _ => exact phrase.opens.append _

theorem Opens.weaken {kinds others : List Token.Kind} {ts : List Token} (opens : Opens kinds ts)
    (more : ∀ kind ∈ kinds, kind ∈ others) : Opens others ts := by
  obtain ⟨token,later,same,isKind⟩ := opens
  exact ⟨token,later,same,more _ isKind⟩

theorem Sentence.opens {form : Form} {ts : List Token} {s : Stmt} (sentence : Sentence form ts s) :
    Opens form.openers ts := by
  have word : ∀ kind ∈ [Token.Kind.kwFor,.kwIf,.kwReturn,.kwWhile,.leftBrace], kind ∈ Form.statementOpeners :=
    fun kind => List.mem_append_left _
  induction sentence with
  | function isFunction _ _ _ _ _ _ _ _ _ _ => exact opens_word isFunction (by decide)
  | var declared => exact declared.opens.weaken (by decide)
  | statement _ ih => exact ih.weaken fun kind => List.mem_append_right _
  | effect effect => exact effect.opens.weaken fun kind => List.mem_append_right _
  | giveBack isReturn _ _ => exact opens_word isReturn (word _ (by decide))
  | block begins _ _ _ => exact opens_word begins (word _ (by decide))
  | loop isWhile _ _ _ _ _ => exact opens_word isWhile (word _ (by decide))
  | forLoop isFor _ _ _ _ _ _ _ _ _ _ _ => exact opens_word isFor (word _ (by decide))
  | ifOnly isIf _ _ _ _ _ => exact opens_word isIf (word _ (by decide))
  | ifElse isIf _ _ _ _ _ _ _ _ => exact opens_word isIf (word _ (by decide))

def Alike (s t : Stmt) : Prop := t.bare = s.bare

variable {room : Nat} {ts us : List Token} {follow : List Token → Prop}

theorem takes_phrase {e : Expr} (phrase : Phrase .assignment ts e) :
    Takes (Nested.level room).expression room ts (Follow .assignment) (Same e) :=
  takes_expression fun room => (phrase.grown room).takes

theorem takes_effect {s : Stmt} (effect : Effect ts s) :
    Takes (Nested.level room).expressionStatement room ts follow (Alike s) := by
  cases effect with
  | mk phrase ends =>
    refine (takes_phrase phrase).bind (fun f same => ?_) fun rest _ => follow_cons (by rw [ends]; decide)
    refine takes_expect ends (takes_pure ?_)
    unfold Same at same
    unfold Alike
    simp only [Stmt.bare,same]

theorem takes_variable (room : Nat) (follow : List Token → Prop) {s : Stmt} (declared : Variable ts s) :
    ∃ word later, ts = word :: later ∧ word.kind = .kwVar ∧
      Takes (Nested.level room).varRule room later follow (Alike s) := by
  cases declared with
  | @unset word name semicolon _ _ isVar isName ends =>
    refine ⟨word,[name,semicolon],rfl,isVar,takes_look fun _ => takes_expect isName ?_⟩
    show Takes _ room ([] ++ [semicolon]) _ _
    refine takes_choose (Begins .semicolon) (fun initial => initial = none) ?_ ?_ fun rest _ =>
      ⟨semicolon,rest,rfl,ends⟩
    · refine takes_unaccepted (fun rest semicolon equals => ?_) (takes_pure rfl)
      cases begins_unique semicolon equals
    · rintro initial rfl
      exact takes_expect ends (takes_look fun _ => takes_pure rfl)
  | @set word name equals semicolon ts e _ _ isVar isName isEquals initial ends =>
    refine ⟨word,name :: equals :: (ts ++ [semicolon]),rfl,isVar,takes_look fun _ => takes_expect isName ?_⟩
    show Takes _ room ((equals :: ts) ++ [semicolon]) _ _
    refine takes_choose (Follow .assignment) (fun initial => initial.map Expr.bare = some e.bare) ?_ ?_
      fun rest _ => follow_cons (by rw [ends]; decide)
    · exact takes_accept isEquals ((takes_phrase initial).map fun f same => congrArg some same)
    · intro initial same
      refine takes_expect ends (takes_look fun _ => takes_pure ?_)
      unfold Alike
      simp only [Stmt.bare,same,Option.map_some]

theorem takes_optional {e : Option Expr} {kind : Token.Kind} (isClose : kind = .semicolon ∨ kind = .rightParen)
    (optional : Optional ts e) :
    Takes ((Nested.level room).expressionUnless kind) room ts (Begins kind)
      fun f => f.map Expr.bare = e.map Expr.bare := by
  have closes : kind ∉ Level.assignment.openers ∧ kind ∉ Level.assignment.reach := by
    rcases isClose with rfl | rfl <;> decide
  cases optional with
  | missing => exact takes_sees (fun rest begins => begins) (takes_pure rfl)
  | given phrase =>
    refine takes_unseen (fun rest _ => (phrase.opens.append rest).not_begins closes.1) ?_
    refine Takes.map ((takes_phrase phrase).weaken (fun rest begins => ?_) fun f same => same)
      fun f same => congrArg some same
    exact follow_of_begins begins closes.2

theorem takes_forStart (follow : List Token → Prop) {start : Option Stmt} (started : ForStart ts start) :
    Takes (Nested.level room).forStart room ts follow fun s => s.map Stmt.bare = start.map Stmt.bare := by
  cases started with
  | missing ends => exact takes_accept ends (takes_pure rfl)
  | declared declared =>
    obtain ⟨word,later,rfl,isVar,takes⟩ := takes_variable room follow declared
    refine takes_unaccepted (fun rest _ => ?_) (takes_accept isVar (takes.map fun s alike => congrArg some alike))
    exact (declared.opens.append rest).not_begins (by decide)
  | effect effect =>
    have opens := effect.opens
    refine takes_unaccepted (fun rest _ => (opens.append rest).not_begins (by decide)) ?_
    refine takes_unaccepted (fun rest _ => (opens.append rest).not_begins (by decide)) ?_
    exact (takes_effect effect).map fun s alike => congrArg some alike

theorem takes_deeper {form : Form} {s : Stmt}
    (takes : ∀ room, Takes (form.rule (.level room)) room ts form.Behind (Alike s)) :
    Takes (form.deeper (.level room)) room ts form.Behind (Alike s) := by
  cases form with
  | declaration =>
    refine takes_nested fun fewer same => ?_
    subst same
    exact takes fewer
  | statement dangling =>
    refine takes_nested fun fewer same => ?_
    subst same
    exact takes fewer

theorem takes_declarations {stop : State → Bool} {allowed : List Token → Prop} {body : List (List Token × Stmt)}
    (goes : ∀ (s : State) token later, s.rest = token :: later → token.kind ∈ Form.declaration.openers →
      stop s = false)
    (close : ∀ rest, allowed rest → Form.declaration.Behind rest)
    (stops : ∀ s : State, allowed s.rest → stop s = true)
    (opens : ∀ item ∈ body, Opens Form.declaration.openers item.1)
    (each : ∀ item ∈ body, ∀ room,
      Takes (Form.declaration.rule (.level room)) room item.1 Form.declaration.Behind (Alike item.2)) :
    Takes (many stop (Form.declaration.deeper (.level room))) room (body.map Prod.fst).flatten allowed
      fun ss => Stmt.bareAll ss = Stmt.bareAll (body.map Prod.snd) := by
  let items := body.map fun item => (item.1,item.2.bare)
  have texts : items.map Prod.fst = body.map Prod.fst := by simp [items]
  have trees : items.map Prod.snd = Stmt.bareAll (body.map Prod.snd) := by
    simp [items,Stmt.bareAll_eq_map]
  rw [← texts]
  refine Takes.weaken (takes_many Stmt.bare (· ∈ Form.declaration.openers) Form.declaration.Behind goes ?_ close
    stops ?_ ?_) (fun rest allow => allow) fun ss same => ?_
  · intro token later isOpener begins
    have other : Token.Kind.kwElse ∉ Form.declaration.openers := by decide
    rw [begins_cons begins] at isOpener
    exact other isOpener
  · intro item member
    obtain ⟨item,isItem,rfl⟩ := List.mem_map.mp member
    exact takes_deeper (each item isItem)
  · intro item member
    obtain ⟨item,isItem,rfl⟩ := List.mem_map.mp member
    exact opens item isItem
  · rw [Stmt.bareAll_eq_map,same,trees]

/-- The declarations in a block, which are sentences that are taken whatever the room. -/
structure Body (body : List (List Token × Stmt)) : Prop where
  opens : ∀ item ∈ body, Opens Form.declaration.openers item.1
  takes : ∀ item ∈ body, ∀ room,
    Takes (Form.declaration.rule (.level room)) room item.1 Form.declaration.Behind (Alike item.2)

theorem takes_block {body : List (List Token × Stmt)} {close : Token} (each : Body body)
    (ends : close.kind = .rightBrace) :
    Takes (Nested.level room).block room ((body.map Prod.fst).flatten ++ [close]) follow
      fun ss => Stmt.bareAll ss = Stmt.bareAll (body.map Prod.snd) := by
  have declarations : Takes (many (fun s => s.sees .rightBrace || s.atEnd) (nested (Nested.level room).declaration))
      room (body.map Prod.fst).flatten (Begins .rightBrace)
      fun ss => Stmt.bareAll ss = Stmt.bareAll (body.map Prod.snd) := by
    refine takes_declarations ?_ ?_ ?_ each.opens each.takes
    · intro s token later tokens isOpener
      have other : token.kind ≠ .rightBrace := by
        intro isBrace
        rw [isBrace] at isOpener
        exact absurd isOpener (by decide)
      simp [State.sees,State.atEnd,tokens,other]
    · intro rest begins begins'
      cases begins_unique begins begins'
    · intro s begins
      simp [sees_iff.mpr begins]
  refine declarations.bind (fun ss same => takes_expect ends (takes_pure same)) fun rest _ => ?_
  exact ⟨close,rest,rfl,ends⟩

theorem takes_parameter {param : Token} (isName : param.kind = .identifier) :
    Takes Nested.parameter room [param] follow fun name => name.text = param.lexeme :=
  takes_expect isName (takes_pure rfl)

theorem takes_parameters {params : List Token} (named : ∀ param ∈ params, param.kind = .identifier)
    (listed : Separated (params.map fun param => [param]) us) :
    Takes (do if ← sees .rightParen then pure [] else commaSeparated Nested.parameter) room us (Begins .rightParen)
      fun names => names.map Name.text = params.map Token.lexeme := by
  cases params with
  | nil =>
    cases listed
    exact takes_sees (fun rest begins => begins) (takes_pure rfl)
  | cons param params =>
    let items := (param :: params).map fun param => ([param],param.lexeme)
    have texts : items.map Prod.fst = (param :: params).map fun param => [param] := by simp [items]
    have lexemes : items.map Prod.snd = (param :: params).map Token.lexeme := by simp [items]
    have opens : Opens [.identifier] us := by
      obtain ⟨tail,rfl⟩ := separated_first listed
      exact opens_word (named param List.mem_cons_self) (by decide)
    refine takes_unseen (fun rest _ => (opens.append rest).not_begins (by decide)) ?_
    rw [← texts] at listed
    rw [← lexemes]
    refine takes_commaSeparated Name.text (fun _ => True) (fun _ _ => trivial) ?_ (by simp [items]) ?_ listed
    · exact fun rest begins => ⟨trivial,fun comma => nomatch begins_unique begins comma⟩
    · intro item member
      obtain ⟨param,isParam,rfl⟩ := List.mem_map.mp member
      exact takes_parameter (named param isParam)

/-! ### Statements behind their first word -/

theorem takes_function {name opening closing brace close : Token} {params : List Token} {names : List Name}
    {body : List (List Token × Stmt)} {place span : Span} (isName : name.kind = .identifier)
    (opens : opening.kind = .leftParen) (named : ∀ param ∈ params, param.kind = .identifier)
    (listed : Separated (params.map fun param => [param]) us)
    (same : names.map Name.text = params.map Token.lexeme) (closes : closing.kind = .rightParen)
    (begins : brace.kind = .leftBrace) (each : Body body) (ends : close.kind = .rightBrace) :
    Takes (Nested.level room).functionRule room
      (name :: opening :: (us ++ closing :: brace :: ((body.map Prod.fst).flatten ++ [close]))) follow
      (Alike (.function ⟨name.lexeme,place⟩ names (body.map Prod.snd) span)) := by
  refine takes_look fun _ => takes_expect isName (takes_expect opens ?_)
  refine takes_choose (Begins .rightParen) _ (takes_parameters named listed) (fun params' same' => ?_) fun rest _ =>
    ⟨closing,_,rfl,closes⟩
  refine takes_expect closes (takes_expect begins ((takes_block each ends).last fun body' sameBody => ?_))
  refine takes_look fun _ => takes_pure ?_
  have bare : ∀ others : List Name, others.map Name.text = names.map Name.text →
      (others.map fun other => (⟨other.text,default⟩ : Name)) = names.map fun other => ⟨other.text,default⟩ := by
    intro others texts
    have through : ∀ names : List Name, (names.map fun other => (⟨other.text,default⟩ : Name)) =
        (names.map Name.text).map fun text => ⟨text,default⟩ := by simp
    rw [through,through,texts]
  unfold Alike
  simp only [Stmt.bare,sameBody,bare params' (same'.trans same.symm)]

theorem forTree_alike {start start' : Option Stmt} {test test' step step' : Option Expr} {condition : Expr}
    {body body' round tree : Stmt} {place span span' : Span} (isCondition : ForTest test condition)
    (isRound : ForRound body step round) (isTree : ForBlock (.loop condition round span) start tree)
    (sameStart : start'.map Stmt.bare = start.map Stmt.bare) (sameTest : test'.map Expr.bare = test.map Expr.bare)
    (sameStep : step'.map Expr.bare = step.map Expr.bare) (sameBody : Alike body body') :
    Alike tree (Nested.forTree start' test' place step' body' span') := by
  obtain ⟨condition',round',isCondition',isRound',isTree'⟩ :=
    Nested.forTree_derived start' test' place step' body' span'
  unfold Alike at sameBody ⊢
  have conditions : condition'.bare = condition.bare := by
    cases isCondition <;> cases isCondition' <;> simp_all [Expr.bare]
  have rounds : round'.bare = round.bare := by
    cases isRound <;> cases isRound' <;> simp_all [Stmt.bare,Stmt.bareAll]
  generalize Nested.forTree start' test' place step' body' span' = tree' at isTree' ⊢
  cases isTree <;> cases isTree' <;> simp_all [Stmt.bare,Stmt.bareAll]

theorem takes_for {opening semicolon closing : Token} {starts tests steps : List Token} {start : Option Stmt}
    {test step : Option Expr} {condition : Expr} {body round tree : Stmt} {form : Form} {span : Span}
    (opens : opening.kind = .leftParen) (started : ForStart starts start) (tested : Optional tests test)
    (divides : semicolon.kind = .semicolon) (stepped : Optional steps step) (closes : closing.kind = .rightParen)
    (repeated : Takes (nested (Nested.level room).statement) room us form.Behind (Alike body))
    (isCondition : ForTest test condition) (isRound : ForRound body step round)
    (isTree : ForBlock (.loop condition round span) start tree) :
    Takes (Nested.level room).forRule room
      (opening :: (starts ++ (tests ++ semicolon :: (steps ++ closing :: us)))) form.Behind (Alike tree) := by
  refine takes_look fun _ => takes_expect opens
    ((takes_forStart (fun _ => True) started).bind (fun start' sameStart => ?_) fun rest _ => trivial)
  refine (takes_optional (.inl rfl) tested).bind (fun test' sameTest => takes_expect divides ?_)
    fun rest _ => ⟨semicolon,_,rfl,divides⟩
  refine (takes_optional (.inr rfl) stepped).bind (fun step' sameStep => takes_expect closes ?_)
    fun rest _ => ⟨closing,_,rfl,closes⟩
  refine repeated.last fun body' sameBody => takes_look fun _ => takes_pure ?_
  exact forTree_alike isCondition isRound isTree sameStart sameTest sameStep sameBody

theorem takes_tested {opening closing : Token} {test : Expr} {openComplaint closeComplaint : Complaint}
    {f : Token → Expr → Parser Stmt} {check : Stmt → Prop} (opens : opening.kind = .leftParen)
    (tested : Phrase .assignment ts test) (closes : closing.kind = .rightParen)
    (takes : ∀ start e, Same test e → Takes (f start e) room us follow check) :
    Takes (do
      let start ← last
      let _ ← expect .leftParen openComplaint
      let test ← (Nested.level room).expression
      let _ ← expect .rightParen closeComplaint
      f start test) room (opening :: (ts ++ closing :: us)) follow check := by
  refine takes_look fun start => takes_expect opens ((takes_phrase tested).bind (fun e same => ?_)
    fun rest _ => follow_cons (by rw [closes]; decide))
  exact takes_expect closes (takes start e same)

theorem takes_while {opening closing : Token} {test : Expr} {body : Stmt} {form : Form} {span : Span}
    (opens : opening.kind = .leftParen) (tested : Phrase .assignment ts test) (closes : closing.kind = .rightParen)
    (repeated : Takes (nested (Nested.level room).statement) room us form.Behind (Alike body)) :
    Takes (Nested.level room).whileRule room (opening :: (ts ++ closing :: us)) form.Behind
      (Alike (.loop test body span)) := by
  refine takes_tested opens tested closes fun start test' sameTest => repeated.last fun body' sameBody => ?_
  refine takes_look fun _ => takes_pure ?_
  unfold Same at sameTest
  unfold Alike at sameBody ⊢
  simp only [Stmt.bare,sameTest,sameBody]

theorem takes_ifOnly {opening closing : Token} {test : Expr} {yes : Stmt} {form : Form} {span : Span}
    (opens : opening.kind = .leftParen) (tested : Phrase .assignment ts test) (closes : closing.kind = .rightParen)
    (done : Takes (nested (Nested.level room).statement) room us form.Behind (Alike yes)) :
    Takes (Nested.level room).ifRule room (opening :: (ts ++ closing :: us)) (¬ Begins .kwElse ·)
      (Alike (.branch test yes none span)) := by
  refine takes_tested opens tested closes fun start test' sameTest => ?_
  refine (done.weaken (fun rest => form.behind_of_no_else) fun s alike => alike).last fun yes' sameYes => ?_
  show Takes _ room ([] ++ []) _ _
  refine takes_choose (¬ Begins .kwElse ·) (fun no => no = none) ?_ ?_ fun rest other => other
  · exact takes_unaccepted (fun rest other => other) (takes_pure rfl)
  · rintro no rfl
    refine takes_look fun _ => takes_pure ?_
    unfold Same at sameTest
    unfold Alike at sameYes ⊢
    simp only [Stmt.bare,Stmt.bareOption,sameTest,sameYes]

/-- An `else` is taken with the `if` in front of it, if no `if` inside that one could take it. -/
theorem takes_ifElse {opening closing other : Token} {vs : List Token} {test : Expr} {yes no : Stmt} {form : Form}
    {span : Span} (opens : opening.kind = .leftParen) (tested : Phrase .assignment ts test)
    (closes : closing.kind = .rightParen)
    (done : Takes (nested (Nested.level room).statement) room us (Form.statement false).Behind (Alike yes))
    (isElse : other.kind = .kwElse)
    (otherwise : Takes (nested (Nested.level room).statement) room vs form.Behind (Alike no)) :
    Takes (Nested.level room).ifRule room (opening :: (ts ++ closing :: (us ++ other :: vs))) form.Behind
      (Alike (.branch test yes (some no) span)) := by
  refine takes_tested opens tested closes fun start test' sameTest => ?_
  refine done.bind (fun yes' sameYes => ?_) fun rest _ => trivial
  rw [← List.append_nil (other :: vs)]
  refine takes_choose form.Behind (fun no' => ∃ s, no' = some s ∧ Alike no s) ?_ ?_ fun rest behind => behind
  · exact takes_accept isElse (otherwise.map fun s alike => ⟨s,rfl,alike⟩)
  · rintro _ ⟨no',rfl,sameNo⟩
    refine takes_look fun _ => takes_pure ?_
    unfold Same at sameTest
    unfold Alike at sameYes sameNo ⊢
    simp only [Stmt.bare,Stmt.bareOption,sameTest,sameYes,sameNo]

theorem takes_return {semicolon : Token} {e : Option Expr} {span : Span} (value : Optional ts e)
    (ends : semicolon.kind = .semicolon) :
    Takes (Nested.level room).returnRule room (ts ++ [semicolon]) follow (Alike (.giveBack e span)) := by
  refine takes_look fun _ => (takes_optional (.inl rfl) value).bind (fun f same => ?_)
    fun rest _ => ⟨semicolon,rest,rfl,ends⟩
  refine takes_expect ends (takes_look fun _ => takes_pure ?_)
  unfold Alike
  simp only [Stmt.bare,same]

theorem takes_braced {body : List (List Token × Stmt)} {close : Token} {span : Span} (each : Body body)
    (ends : close.kind = .rightBrace) :
    Takes (Nested.level room).blockRule room ((body.map Prod.fst).flatten ++ [close]) follow
      (Alike (.block (body.map Prod.snd) span)) := by
  refine takes_look fun _ => (takes_block each ends).last fun ss same => takes_look fun _ => takes_pure ?_
  unfold Alike
  simp only [Stmt.bare,same]

/-- The rule behind a word that begins a statement. -/
def Nested.worded (inner : Nested) : Token.Kind → Option (Parser Stmt)
  | .kwFor => some inner.forRule
  | .kwIf => some inner.ifRule
  | .kwReturn => some inner.returnRule
  | .kwWhile => some inner.whileRule
  | .leftBrace => some inner.blockRule
  | _ => none

theorem takes_worded {inner : Nested} {word : Token} {p : Parser Stmt} {check : Stmt → Prop}
    (names : inner.worded word.kind = some p) (takes : Takes p room ts follow check) :
    Takes inner.statementRule room (word :: ts) follow check := by
  have skips : ∀ {kind : Token.Kind}, kind ≠ word.kind → ∀ rest, follow rest → ¬ Begins kind (word :: ts ++ rest) :=
    fun other rest _ begins => other (begins_cons begins).symm
  cases kind : word.kind <;> rw [kind] at names <;> cases names
  case kwFor => exact takes_accept kind takes
  case kwIf =>
    refine takes_unaccepted (skips (by simp [kind])) ?_
    exact takes_accept kind takes
  case kwReturn =>
    refine takes_unaccepted (skips (by simp [kind])) (takes_unaccepted (skips (by simp [kind])) ?_)
    exact takes_accept kind takes
  case kwWhile =>
    refine takes_unaccepted (skips (by simp [kind])) (takes_unaccepted (skips (by simp [kind]))
      (takes_unaccepted (skips (by simp [kind])) ?_))
    exact takes_accept kind takes
  case leftBrace =>
    refine takes_unaccepted (skips (by simp [kind])) (takes_unaccepted (skips (by simp [kind]))
      (takes_unaccepted (skips (by simp [kind])) (takes_unaccepted (skips (by simp [kind])) ?_)))
    exact takes_accept kind takes

theorem takes_unworded {inner : Nested} {check : Stmt → Prop} (opens : Opens Level.assignment.openers ts)
    (takes : Takes inner.expressionStatement room ts follow check) :
    Takes inner.statementRule room ts follow check := by
  have skips : ∀ {kind : Token.Kind}, kind ∉ Level.assignment.openers → ∀ rest, follow rest →
      ¬ Begins kind (ts ++ rest) := fun other rest _ => (opens.append rest).not_begins other
  refine takes_unaccepted (skips (by decide)) (takes_unaccepted (skips (by decide))
    (takes_unaccepted (skips (by decide)) (takes_unaccepted (skips (by decide))
      (takes_unaccepted (skips (by decide)) ?_))))
  exact takes

theorem takes_stated {inner : Nested} {check : Stmt → Prop} (opens : Opens Form.statementOpeners ts)
    (takes : Takes inner.statementRule room ts follow check) :
    Takes inner.declarationRule room ts follow check := by
  refine takes_unaccepted (fun rest _ => (opens.append rest).not_begins (by decide)) ?_
  refine takes_unaccepted (fun rest _ => (opens.append rest).not_begins (by decide)) ?_
  exact takes

theorem Sentence.takes {form : Form} {ts : List Token} {s : Stmt} (sentence : Sentence form ts s) :
    ∀ room, Takes (form.rule (.level room)) room ts form.Behind (Alike s) := by
  induction sentence with
  | function isFunction isName opens named listed same closes begins each ends ih =>
    intro room
    have body := Body.mk (fun item member => (each item member).opens) ih
    exact takes_accept isFunction (takes_function isName opens named listed same closes begins body ends)
  | var declared =>
    intro room
    obtain ⟨word,later,rfl,isVar,takes⟩ := takes_variable room Form.declaration.Behind declared
    refine takes_unaccepted (fun rest _ => ?_) (takes_accept isVar takes)
    exact (declared.opens.append rest).not_begins (by decide)
  | @statement dangling _ _ inner ih =>
    intro room
    refine takes_stated inner.opens ((ih room).weaken (fun rest other => ?_) fun s alike => alike)
    exact Form.behind_of_no_else (.statement dangling) other
  | effect effect => exact fun room => takes_unworded effect.opens (takes_effect effect)
  | giveBack isReturn value ends =>
    intro room
    exact takes_worded (by rw [isReturn]; rfl) (takes_return value ends)
  | block begins each ends ih =>
    intro room
    have body := Body.mk (fun item member => (each item member).opens) ih
    exact takes_worded (by rw [begins]; rfl) (takes_braced body ends)
  | loop isWhile opens tested closes repeated ih =>
    intro room
    exact takes_worded (by rw [isWhile]; rfl) (takes_while opens tested closes (takes_deeper ih))
  | forLoop isFor opens started tested divides stepped closes repeated isCondition isRound isTree ih =>
    intro room
    refine takes_worded (by rw [isFor]; rfl) ?_
    exact takes_for opens started tested divides stepped closes (takes_deeper ih) isCondition isRound isTree
  | ifOnly isIf opens tested closes done ih =>
    intro room
    exact takes_worded (by rw [isIf]; rfl) (takes_ifOnly opens tested closes (takes_deeper ih))
  | ifElse isIf opens tested closes done isElse otherwise ihDone ihOtherwise =>
    intro room
    refine takes_worded (by rw [isIf]; rfl) ?_
    exact takes_ifElse opens tested closes (takes_deeper ihDone) isElse (takes_deeper ihOtherwise)

/-- A program of the grammar is parsed, but for the spans, or it nests too deeply, which is then the one
problem there is. -/
theorem parsed_of_derives {tokens : List Token} {program : Program}
    (derives : Derives (tokens.takeWhile (·.kind ≠ .endOfFile)) program) :
    (∃ parsed, ofTokens tokens = .ok parsed ∧ parsed.bare = program.bare) ∨
      ∃ d, ofTokens tokens = .error [d] ∧ d.message = Complaint.nesting.message := by
  obtain ⟨items,each,texts,trees⟩ := derives
  have takes : Takes (many State.atEnd declaration) maxNesting (items.map Prod.fst).flatten (fun rest => rest = [])
      fun ss => Stmt.bareAll ss = Stmt.bareAll (items.map Prod.snd) := by
    refine takes_declarations ?_ ?_ ?_ (fun item member => (each item member).opens)
      fun item member => (each item member).takes
    · intro s token later tokens _
      simp [State.atEnd,tokens]
    · rintro rest rfl ⟨token,later,same,_⟩
      cases same
    · intro s empty
      simp [State.atEnd,empty]
  have ready : Ready maxNesting (State.ofTokens tokens) := ⟨final_isEnd tokens,Nat.le_add_left _ _⟩
  have rest : (State.ofTokens tokens).rest = (items.map Prod.fst).flatten ++ [] := by
    rw [List.append_nil]
    exact texts
  rcases takes _ [] ready rest rfl with ⟨ss,t,out,reached,same⟩ | ⟨t,d,out,_,problems,message⟩
  · refine .inl ⟨⟨ss⟩,?_,?_⟩
    · have clean : t.problems = [] := reached.problems
      simp only [ofTokens,out,clean]
    · rw [← trees] at same
      exact congrArg Program.mk same
  · refine .inr ⟨d,?_,message⟩
    have single : t.problems = [d] := problems
    simp only [ofTokens,out,single]

/-- For every list of tokens, with those in front of the end mark: what is parsed without a problem is
derived from them, and what is derived from them is parsed, but for the spans, or else nests too deeply,
which is then the one problem there is. -/
theorem ofTokens_exact (tokens : List Token) :
    (∀ program, ofTokens tokens = .ok program → Derives (tokens.takeWhile (·.kind ≠ .endOfFile)) program) ∧
      ∀ program, Derives (tokens.takeWhile (·.kind ≠ .endOfFile)) program →
        (∃ parsed, ofTokens tokens = .ok parsed ∧ parsed.bare = program.bare) ∨
          ∃ d, ofTokens tokens = .error [d] ∧ d.message = "Too much nesting." :=
  ⟨fun _ => derives_of_ofTokens,fun _ => parsed_of_derives⟩

/-- The tokens of `if (a) if (b) c; else d;`. -/
def danglingElse : List Token :=
  [(.kwIf,"if"),(.leftParen,"("),(.identifier,"a"),(.rightParen,")"),(.kwIf,"if"),(.leftParen,"("),
    (.identifier,"b"),(.rightParen,")"),(.identifier,"c"),(.semicolon,";"),(.kwElse,"else"),(.identifier,"d"),
    (.semicolon,";")].map fun (kind,lexeme) => { kind := kind, lexeme := lexeme, span := default }

theorem ofTokens_exact_danglingElse : ∃ program, Derives danglingElse program ∧
    ∃ parsed, ofTokens danglingElse = .ok parsed ∧ parsed.bare = program.bare := by
  have accepted : (ofTokens danglingElse).isOk = true := by decide +kernel
  cases parsed : ofTokens danglingElse with
  | error problems =>
    rw [parsed] at accepted
    cases accepted
  | ok program =>
    have derives := (ofTokens_exact danglingElse).1 program parsed
    rcases (ofTokens_exact danglingElse).2 program derives with found | ⟨d,failed,_⟩
    · rw [parsed] at found
      exact ⟨program,derives,found⟩
    · rw [parsed] at failed
      cases failed

end TurtleScript.Program
