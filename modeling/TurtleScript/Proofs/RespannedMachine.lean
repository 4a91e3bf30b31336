import TurtleScript.Proofs.LexicalMachine
import TurtleScript.Proofs.Lockstep

/-!
Machines that differ in spans only. A machine beside another one does the same code with other spans, has the same left
to do and is in a world that is paired with the other's (`Machine.Respans`). It takes a step when the other does, and the
two are beside each other again (`Machine.Respans.step`). So they come to rest together (`Machine.Respans.rests`), and
every state that the second passes through is beside one that the first passes through (`Machine.Passed.respans`).
-/

namespace TurtleScript

def Piece.respan (f : Span → Span) : Piece → Piece
  | .text t => .text t
  | .value depth a => .value depth (a.respan f)

def respanBindings (f : Span → Span) (bindings : List (Name × Value)) : List (Name × Value) :=
  bindings.map (Prod.map (Name.respan f) (Value.respan f))

/-- The same code with other spans, and of what kind its results are. -/
inductive Code.Respans (p : Pairing) : {α : Type} → Code α → Code α → (α → α → Prop) → Prop where
  | expr (e : Expr) : Respans p (.expr e) (.expr (e.respan p.span)) p.Values
  | exprs (es : List Expr) : Respans p (.exprs es) (.exprs (Expr.respanAll p.span es)) p.Lists
  | stmt (s : Stmt) : Respans p (.stmt s) (.stmt (s.respan p.span)) p.Flows
  | inside (s : Stmt) : Respans p (.inside s) (.inside (s.respan p.span)) p.Flows
  | stmts (index : Nat) (ss : List Stmt) : Respans p (.stmts index ss) (.stmts index (Stmt.respanAll p.span ss)) p.Flows
  | rounds (test : Expr) (body : Stmt) (begun : Nat) :
      Respans p (.rounds test body begun) (.rounds (test.respan p.span) (body.respan p.span) begun) p.Flows
  | between (test : Expr) (body : Stmt) (begun : Nat) :
      Respans p (.between test body begun) (.between (test.respan p.span) (body.respan p.span) begun) p.Flows
  | call (c : Closure) {as bs : List Value} (paired : p.Lists as bs) :
      Respans p (.call c as) (.call (c.respan p.span) bs) p.Values
  | params (scope : FrameId) (bindings : List (Name × Value)) :
      Respans p (.params scope bindings) (.params scope (respanBindings p.span bindings)) (· = ·)
  | text (pieces : List Piece) (written : String) :
      Respans p (.text pieces written) (.text (pieces.map (Piece.respan p.span)) written) (· = ·)

/-- The same is left to do, with other spans, for results of a kind. -/
inductive Rest.Respans (p : Pairing) :
    {α β : Type} → Rest α β → Rest α β → (α → α → Prop) → (β → β → Prop) → Prop where
  | located {α : Type} {kind : α → α → Prop} (span : Span) :
      Respans p (.located span) (.located (p.span span)) kind kind
  | exit {α : Type} {kind : α → α → Prop} (x : Exit) : Respans p (.exit x) (.exit x) kind kind
  | assign (name : String) : Respans p (.assign name) (.assign name) p.Values p.Values
  | assigned {a b : Value} (paired : p.Values a b) : Respans p (.assigned a) (.assigned b) (· = ·) p.Values
  | unary (op : UnaryOp) : Respans p (.unary op) (.unary op) p.Values p.Values
  | left (op : BinaryOp) (e : Expr) : Respans p (.left op e) (.left op (e.respan p.span)) p.Values p.Values
  | right (op : BinaryOp) {a b : Value} (paired : p.Values a b) :
      Respans p (.right op a) (.right op b) p.Values p.Values
  | decider (op : LogicalOp) (e : Expr) : Respans p (.decider op e) (.decider op (e.respan p.span)) p.Values p.Values
  | callee (e : Expr) (args : List Expr) :
      Respans p (.callee e args) (.callee (e.respan p.span) (Expr.respanAll p.span args)) p.Values p.Values
  | arguments (g : Function) : Respans p (.arguments g) (.arguments (g.respan p.span)) p.Lists p.Values
  | items : Respans p .items .items p.Lists p.Values
  | target (e : Expr) : Respans p (.target e) (.target (e.respan p.span)) p.Values p.Values
  | position {a b : Value} (paired : p.Values a b) : Respans p (.position a) (.position b) p.Values p.Values
  | first (es : List Expr) : Respans p (.first es) (.first (Expr.respanAll p.span es)) p.Values p.Lists
  | others {a b : Value} (paired : p.Values a b) : Respans p (.others a) (.others b) p.Lists p.Lists
  | effect {α : Type} {kind : α → α → Prop} : Respans p .effect .effect kind p.Flows
  | initial (name : Name) : Respans p (.initial name) (.initial (name.respan p.span)) p.Values p.Flows
  | result : Respans p .result .result p.Values p.Flows
  | test (yes : Stmt) (no : Option Stmt) :
      Respans p (.test yes no) (.test (yes.respan p.span) (Stmt.respanOption p.span no)) p.Values p.Flows
  | entered (body : List Stmt) : Respans p (.entered body) (.entered (Stmt.respanAll p.span body)) (· = ·) p.Flows
  | next (index : Nat) (ss : List Stmt) :
      Respans p (.next index ss) (.next index (Stmt.respanAll p.span ss)) p.Flows p.Flows
  | condition (test : Expr) (body : Stmt) (begun : Nat) :
      Respans p (.condition test body begun) (.condition (test.respan p.span) (body.respan p.span) begun) p.Values
        p.Flows
  | round (test : Expr) (body : Stmt) (begun : Nat) :
      Respans p (.round test body begun) (.round (test.respan p.span) (body.respan p.span) begun) p.Flows p.Flows
  | calling (c : Closure) {as bs : List Value} (paired : p.Lists as bs) :
      Respans p (.scoped c as) (.scoped (c.respan p.span) bs) (· = ·) p.Values
  | bound (scope : FrameId) (c : Closure) : Respans p (.bound scope c) (.bound scope (c.respan p.span)) (· = ·) p.Values
  | param (scope : FrameId) (bindings : List (Name × Value)) :
      Respans p (.param scope bindings) (.param scope (respanBindings p.span bindings)) (· = ·) (· = ·)
  | body : Respans p .body .body p.Flows p.Values
  | printed : Respans p .printed .printed (· = ·) p.Values
  | asText : Respans p .asText .asText (· = ·) p.Values

inductive Stack.Respans (p : Pairing) : {α : Type} → Stack α → Stack α → (α → α → Prop) → Prop where
  | empty : Respans p .empty .empty p.Flows
  | push {α β : Type} {rest rest' : Stack β} {r r' : Rest α β} {kind : α → α → Prop} {other : β → β → Prop}
      (top : r.Respans p r' kind other) (below : Respans p rest rest' other) :
      Respans p (rest.push r) (rest'.push r') kind

/-- The second machine is where the first one is, with other spans. -/
inductive Machine.Respans (p : Pairing) : Machine → Machine → Prop where
  | doing {α : Type} {code code' : Code α} {rest rest' : Stack α} {w v : World} {kind : α → α → Prop}
      (here : code.Respans p code' kind) (below : rest.Respans p rest' kind) (worlds : p.Worlds w v) :
      Respans p (.doing code rest w) (.doing code' rest' v)
  | waiting {α : Type} {code code' : Code α} {rest rest' : Stack α} {w v : World} {kind : α → α → Prop}
      (here : code.Respans p code' kind) (below : rest.Respans p rest' kind) (worlds : p.Worlds w v) :
      Respans p (.waiting code rest w) (.waiting code' rest' v)
  | giving {α : Type} {r r' : Except Interruption α} {rest rest' : Stack α} {w v : World} {kind : α → α → Prop}
      (results : p.Results kind r r') (below : rest.Respans p rest' kind) (worlds : p.Worlds w v) :
      Respans p (.giving r rest w) (.giving r' rest' v)

section
variable {f : Span → Span} {α β : Type} {kind : α → α → Prop} {rest rest' : Stack α} {w v : World}

theorem values_changed (a : Value) : (spansChanged f).Values a (a.respan f) := ⟨rfl,a.only_all⟩

theorem lists_changed (as : List Value) : (spansChanged f).Lists as (as.map (Value.respan f)) :=
  ⟨rfl,fun a _ => a.only_all⟩

namespace Machine

theorem respans_act {m n : Action α} (steps : (spansChanged f).Steps kind m n)
    (below : rest.Respans (spansChanged f) rest' kind) (worlds : (spansChanged f).Worlds w v) :
    (act m rest w).Respans (spansChanged f) (act n rest' v) := by
  have ends := steps.ends worlds.scenes worlds.only
  have only := steps.only (s := w.scene) worlds.only
  unfold act
  rw [steps.left.run_eq,steps.right.run_eq]
  generalize m.onScene w.scene = out at ends only
  generalize n.onScene v.scene = out' at ends
  cases ends with
  | ok results scenes =>
    exact .giving (.ok results) below ⟨scenes,only,worlds.scope,worlds.callDepth,worlds.asked⟩
  | error fault scenes =>
    exact .giving (.error _) below ⟨scenes,only,worlds.scope,worlds.callDepth,worlds.asked⟩

theorem respans_ite {c : Prop} [Decidable c] {m m' n n' : Machine} (yes : m.Respans (spansChanged f) n)
    (no : m'.Respans (spansChanged f) n') :
    (if c then m else m').Respans (spansChanged f) (if c then n else n') := by
  split
  · exact yes
  · exact no

theorem respans_fail (fault : Fault) (below : rest.Respans (spansChanged f) rest' kind)
    (worlds : (spansChanged f).Worlds w v) :
    (fail fault rest w).Respans (spansChanged f) (fail fault rest' v) :=
  .giving (.error _) below worlds

theorem respans_stop (below : rest.Respans (spansChanged f) rest' kind) (worlds : (spansChanged f).Worlds w v) :
    (stop rest w).Respans (spansChanged f) (stop rest' v) :=
  .giving (.error .killed) below (worlds.draw (·.stopGlide))

theorem respans_pause {code code' : Code α} (here : code.Respans (spansChanged f) code' kind)
    (below : rest.Respans (spansChanged f) rest' kind) (worlds : (spansChanged f).Worlds w v) :
    (pause code rest w).Respans (spansChanged f) (pause code' rest' v) := by
  have told := worlds.look (some w.scope) (some v.scope)
  unfold pause
  rw [worlds.asked,worlds.gliding]
  refine respans_ite (respans_stop below worlds) (respans_ite ?_ ?_)
  · exact .waiting here below told
  · exact .doing here below told

theorem respans_option (e : Option Expr) {rest rest' : Stack Value}
    (below : rest.Respans (spansChanged f) rest' (spansChanged f).Values) (worlds : (spansChanged f).Worlds w v) :
    (option e rest w).Respans (spansChanged f) (option (e.map (Expr.respan f)) rest' v) := by
  cases e with
  | some e => exact .doing (.expr e) below worlds
  | none => exact .giving (.ok (values_changed .null)) below worlds

theorem respans_enter (scope : FrameId) (ss : List Stmt) {rest rest' : Stack Flow}
    (below : rest.Respans (spansChanged f) rest' (spansChanged f).Flows) (worlds : (spansChanged f).Worlds w v) :
    (enter scope ss rest w).Respans (spansChanged f) (enter scope (Stmt.respanAll f ss) rest' v) := by
  unfold enter
  rw [worlds.scope]
  exact .doing (.stmts 0 ss) (.push (.exit _) below) (worlds.enter scope _ _)

end Machine

/-! ### Single steps -/

section
variable {config : Config}

theorem Expr.begin_respans (e : Expr) {rest rest' : Stack Value}
    (below : rest.Respans (spansChanged f) rest' (spansChanged f).Values) (worlds : (spansChanged f).Worlds w v) :
    (e.begin rest w).Respans (spansChanged f) ((e.respan f).begin rest' v) := by
  cases e with
  | literal value span =>
    exact .giving (.ok ⟨(Value.respan_ofLiteral f value).symm,Value.only_all _⟩) below worlds
  | grouping inner span => exact .doing (.expr inner) below worlds
  | var name span =>
    rw [Expr.respan,Expr.begin,Expr.begin,worlds.scope]
    exact Machine.respans_act (Pairing.steps_get w.scope trivial) below worlds
  | assign name value span => exact .doing (.expr value) (.push (.assign name) below) worlds
  | unary op operand span => exact .doing (.expr operand) (.push (.unary op) below) worlds
  | binary op left right span => exact .doing (.expr left) (.push (.left op right) below) worlds
  | logical op left right span => exact .doing (.expr left) (.push (.decider op right) below) worlds
  | call callee args span => exact .doing (.expr callee) (.push (.callee callee args) below) worlds
  | array items span => exact .doing (.exprs items) (.push .items below) worlds
  | index target position span => exact .doing (.expr target) (.push (.target position) below) worlds

theorem Stmt.begin_respans (s : Stmt) {rest rest' : Stack Flow}
    (below : rest.Respans (spansChanged f) rest' (spansChanged f).Flows) (worlds : (spansChanged f).Worlds w v) :
    (s.begin rest w).Respans (spansChanged f) ((s.respan f).begin rest' v) := by
  cases s with
  | expression value span => exact .doing (.expr value) (.push .effect below) worlds
  | var name initial span => exact Machine.respans_option initial (.push (.initial name) below) worlds
  | function name params body span =>
    rw [Stmt.respan,Stmt.begin,Stmt.begin,worlds.scope]
    refine Machine.respans_act ?_ (.push (.initial name) below) worlds
    exact Pairing.steps_newClosure w.scope name (fun _ _ => trivial) fun _ _ => trivial
  | block body span =>
    rw [Stmt.respan,Stmt.begin,Stmt.begin,worlds.scope]
    exact Machine.respans_act (Pairing.steps_child w.scope) (.push (.entered body) below) worlds
  | branch test yes no span => exact .doing (.expr test) (.push (.test yes no) below) worlds
  | loop test body span => exact .doing (.rounds test body 0) below worlds
  | giveBack value span => exact Machine.respans_option value (.push .result below) worlds

theorem intersperse_map {β : Type} (g : α → β) (sep : α) :
    ∀ as : List α, (as.map g).intersperse (g sep) = (as.intersperse sep).map g
  | [] => rfl
  | [_] => rfl
  | a :: b :: as => by
    rw [List.map_cons,List.map_cons,List.intersperse_cons_cons,List.intersperse_cons_cons,List.map_cons,List.map_cons,
      ← intersperse_map g sep (b :: as),List.map_cons]

theorem Piece.items_respan (depth : Nat) (items : List Value) :
    Piece.items depth (items.map (Value.respan f)) = (Piece.items depth items).map (Piece.respan f) := by
  unfold Piece.items
  rw [← intersperse_map,List.map_map,List.map_map]
  rfl

theorem Code.step_respans {code code' : Code α} (here : code.Respans (spansChanged f) code' kind)
    (below : rest.Respans (spansChanged f) rest' kind) (worlds : (spansChanged f).Worlds w v) :
    (code.step config rest w).Respans (spansChanged f) (code'.step config rest' v) := by
  cases here with
  | expr e =>
    have span : (e.respan f).span = f e.span := by cases e <;> rfl
    rw [Code.step,Code.step]
    refine e.begin_respans ?_ worlds
    rw [show (e.respan (spansChanged f).span).span = f e.span from span]
    exact .push (.located e.span) below
  | exprs es =>
    cases es with
    | nil => exact .giving (.ok (lists_changed [])) below worlds
    | cons e es => exact .doing (.expr e) (.push (.first es) below) worlds
  | stmt s => exact Machine.respans_pause (.inside s) below worlds
  | inside s =>
    have span : (s.respan f).span = f s.span := by cases s <;> rfl
    rw [Code.step,Code.step]
    refine s.begin_respans ?_ worlds
    rw [show (s.respan (spansChanged f).span).span = f s.span from span]
    exact .push (.located s.span) below
  | stmts index ss =>
    cases ss with
    | nil => exact .giving (.ok .next) below worlds
    | cons s ss => exact .doing (.stmt s) (.push (.next _ ss) below) (worlds.atStatement _ _ _ _)
  | rounds test body begun => exact .doing (.expr test) (.push (.condition test body begun) below) worlds
  | between test body begun => exact Machine.respans_pause (.rounds test body begun) below worlds
  | call c paired =>
    rw [Code.step,Code.step,worlds.callDepth]
    refine Machine.respans_ite (Machine.respans_fail _ below worlds) ?_
    exact Machine.respans_act (Pairing.steps_child c.scope) (.push (.calling c paired) below) worlds
  | params scope bindings =>
    cases bindings with
    | nil => exact .giving (.ok rfl) below worlds
    | cons binding bindings =>
      obtain ⟨name,a⟩ := binding
      refine Machine.respans_act (Pairing.steps_define scope trivial (values_changed a)) ?_ worlds
      exact .push (.located name.span) (.push (.param scope bindings) below)
  | text pieces written =>
    cases pieces with
    | nil => exact .giving (.ok rfl) below worlds
    | cons piece pieces =>
      cases piece with
      | text more => exact .doing (.text pieces _) below worlds
      | value depth a =>
        have shown : Code.Respans (spansChanged f) (.text pieces (written ++ w.store.shownWithin 0 a))
            (.text (pieces.map (Piece.respan f)) (written ++ v.store.shownWithin 0 (a.respan f))) (· = ·) := by
          rw [worlds.store,Store.shownWithin_respan]
          exact .text pieces _
        cases a with
        | array id =>
          refine Machine.respans_ite (.doing (.text pieces _) below worlds) ?_
          have items : Piece.items (depth + 1) (v.store.items id) =
              (Piece.items (depth + 1) (w.store.items id)).map (Piece.respan f) := by
            rw [worlds.store,Store.items_respan,Piece.items_respan]
          rw [items]
          have code : Code.Respans (spansChanged f) _ _ _ :=
            .text (.text "[" :: (Piece.items (depth + 1) (w.store.items id) ++ .text "]" :: pieces)) written
          rw [List.map_cons,List.map_append,List.map_cons] at code
          exact .doing code below worlds
        | _ => exact .doing shown below worlds

theorem Function.begin_respans (g : Function) {as bs : List Value} (paired : (spansChanged f).Lists as bs)
    {rest rest' : Stack Value} (below : rest.Respans (spansChanged f) rest' (spansChanged f).Values)
    (worlds : (spansChanged f).Worlds w v) :
    (g.begin as rest w).Respans (spansChanged f) ((g.respan f).begin bs rest' v) := by
  have lengths : bs.length = as.length := by rw [paired.1,List.length_map]
  unfold Function.begin
  rw [lengths,Function.arity_respan,Function.name_respan]
  by_cases fits : as.length = g.arity
  · rw [if_neg (not_not_intro fits),if_neg (not_not_intro fits)]
    cases g with
    | declared c => exact .doing (.call c paired) below worlds
    | builtin b =>
      have applies := (spansChanged_fair f).steps_apply (b := b) trivial paired fits
      obtain ⟨rfl,_⟩ := paired
      cases b with
      | print =>
        obtain ⟨a,rfl⟩ := List.length_eq_one_iff.mp fits
        exact .doing (.text [.value 0 a] "") (.push .printed below) worlds
      | toString =>
        obtain ⟨a,rfl⟩ := List.length_eq_one_iff.mp fits
        exact .doing (.text [.value 0 a] "") (.push .asText below) worlds
      | _ => exact Machine.respans_act applies below worlds
  · rw [if_pos fits,if_pos fits]
    exact Machine.respans_fail _ below worlds

theorem Rest.take_respans {rest rest' : Stack β} {r r' : Rest α β} {other : β → β → Prop}
    (top : r.Respans (spansChanged f) r' kind other) (below : rest.Respans (spansChanged f) rest' other) {a b : α}
    (same : kind a b) (worlds : (spansChanged f).Worlds w v) :
    (r.take config a rest w).Respans (spansChanged f) (r'.take config b rest' v) := by
  cases top with
  | located span => exact .giving (.ok same) below worlds
  | exit x =>
    refine .giving (.ok same) below ?_
    cases x with
    | block outer => exact worlds.exit rfl
    | call depth => exact worlds.atDepth rfl
    | program => exact worlds.look _ _
  | assign name =>
    rw [Rest.take,Rest.take,worlds.scope]
    exact Machine.respans_act (Pairing.steps_assign w.scope name same) (.push (.assigned same) below) worlds
  | assigned paired => exact .giving (.ok paired) below worlds
  | unary op =>
    refine Machine.respans_act (Pairing.steps_inquire (fun _ => ?_) fun _ _ => Value.only_all _) below worlds
    rw [same.1,UnaryOp.apply_respan]
  | left op e => exact .doing (.expr e) (.push (.right op same) below) worlds
  | right op paired =>
    refine Machine.respans_act (Pairing.steps_inquire (fun _ => ?_) fun _ _ => Value.only_all _) below worlds
    rw [paired.1,same.1,BinaryOp.apply_respan]
  | decider op e =>
    rw [Rest.take,Rest.take,same.1,LogicalOp.settledBy_respan,← same.1]
    exact Machine.respans_ite (.giving (.ok same) below worlds) (.doing (.expr e) below worlds)
  | callee e args =>
    obtain ⟨rfl,_⟩ := same
    cases a with
    | function g => exact .doing (.exprs args) (.push (.arguments g) below) worlds
    | _ =>
      simp only [Rest.take,Value.respan,Expr.shown_respan]
      exact Machine.respans_fail _ below worlds
  | arguments g => exact g.begin_respans same below worlds
  | items => exact Machine.respans_act (Pairing.steps_newArray same) below worlds
  | target e => exact .doing (.expr e) (.push (.position same) below) worlds
  | position paired =>
    refine Machine.respans_act (Pairing.steps_inquire (fun store => ?_) fun _ _ => Value.only_all _) below worlds
    rw [paired.1,same.1,Store.itemOf_respan]
  | first es => exact .doing (.exprs es) (.push (.others same) below) worlds
  | others paired =>
    obtain ⟨rfl,_⟩ := same
    obtain ⟨rfl,_⟩ := paired
    exact .giving (.ok (lists_changed (_ :: _))) below worlds
  | effect => exact .giving (.ok .next) below worlds
  | initial name =>
    rw [Rest.take,Rest.take,worlds.scope]
    refine Machine.respans_act (Pairing.steps_define w.scope trivial same) ?_ worlds
    exact .push (.located name.span) (.push .effect below)
  | result => exact .giving (.ok (.returned same)) below worlds
  | test yes no =>
    unfold Rest.take
    dsimp only
    rw [same.1,Value.truthy_respan]
    refine Machine.respans_ite (.doing (.stmt yes) below worlds) ?_
    cases no with
    | some no => exact .doing (.stmt no) below worlds
    | none => exact .giving (.ok .next) below worlds
  | entered body =>
    cases same
    exact Machine.respans_enter _ body below worlds
  | next index ss =>
    cases same with
    | next => exact .doing (.stmts index ss) below worlds
    | returned paired => exact .giving (.ok (.returned paired)) below worlds
  | condition test body begun =>
    rw [Rest.take,Rest.take,same.1,Value.truthy_respan]
    refine Machine.respans_ite (Machine.respans_ite (Machine.respans_fail _ below worlds) ?_)
      (.giving (.ok .next) below worlds)
    exact .doing (.stmt body) (.push (.round test body (begun + 1)) below) worlds
  | round test body begun =>
    cases same with
    | next => exact .doing (.between test body begun) below worlds
    | returned paired => exact .giving (.ok (.returned paired)) below worlds
  | @calling c as bs paired =>
    cases same
    obtain ⟨rfl,_⟩ := paired
    have bindings : (c.respan (spansChanged f).span).params.zip (as.map (Value.respan (spansChanged f).span)) =
        respanBindings f (c.params.zip as) := List.zip_map
    rw [Rest.take,Rest.take,bindings]
    exact .doing (.params _ _) (.push (.bound _ c) below) worlds
  | bound scope c =>
    rw [Rest.take,Rest.take,worlds.callDepth]
    refine Machine.respans_enter scope c.body (.push (.exit _) (.push .body below)) ?_
    exact worlds.atDepth rfl
  | param scope bindings => exact .doing (.params scope bindings) below worlds
  | body =>
    cases same with
    | next => exact .giving (.ok (values_changed .null)) below worlds
    | returned paired => exact .giving (.ok paired) below worlds
  | printed =>
    cases same
    have prints : (spansChanged f).Acts (spansChanged f).Values (do Action.print a; return .null)
        (do Action.print a; return .null) :=
      (Pairing.acts_print a).then fun _ => Pairing.acts_pure (values_changed .null)
    exact Machine.respans_act (prints.steps fun _ => Store.only_all _) below worlds
  | asText =>
    cases same
    exact .giving (.ok (values_changed (.text _))) below worlds

theorem Rest.drop_respans {rest rest' : Stack β} {r r' : Rest α β} {other : β → β → Prop}
    (top : r.Respans (spansChanged f) r' kind other) (below : rest.Respans (spansChanged f) rest' other)
    (e : Interruption) (worlds : (spansChanged f).Worlds w v) :
    (r.drop e rest w).Respans (spansChanged f) (r'.drop (e.respan f) rest' v) := by
  cases top with
  | located span =>
    have same : (e.respan f).locate (f span) = (e.locate span).respan f := (e.locate_respan f span).symm
    rw [Rest.drop,Rest.drop]
    refine .giving ?_ below worlds
    rw [show (e.respan f).locate ((spansChanged f).span span) = (e.locate span).respan f from same]
    exact .error _
  | exit x =>
    refine .giving (.error e) below ?_
    cases x with
    | block outer => exact worlds.exit rfl
    | call depth => exact worlds.atDepth rfl
    | program => exact worlds.look _ _
  | _ => exact .giving (.error e) below worlds

theorem Machine.Respans.step {m n : Machine} (beside : m.Respans (spansChanged f) n) (config : Config) :
    Option.Rel (Machine.Respans (spansChanged f)) (m.step config) (n.step config) := by
  cases beside with
  | doing here below worlds => exact .some (Code.step_respans here below worlds)
  | @waiting α code code' rest rest' w v kind here below worlds =>
    unfold Machine.step
    dsimp only
    rw [worlds.asked,worlds.gliding]
    split
    · exact .some (Machine.respans_stop below worlds)
    · split
      · exact .none
      · exact .some (.doing here below worlds)
  | giving results below worlds =>
    cases below with
    | empty => cases results <;> exact .none
    | push top below =>
      cases results with
      | ok same => exact .some (Rest.take_respans top below same worlds)
      | error e => exact .some (Rest.drop_respans top below e worlds)

end

end

namespace Machine

variable {f : Span → Span} {config : Config} {m n later : Machine}

theorem Respans.comes (beside : m.Respans (spansChanged f) n) (comes : m.Comes config later) :
    ∃ other, n.Comes config other ∧ later.Respans (spansChanged f) other := by
  obtain ⟨steps,rfl⟩ := comes
  refine ⟨n.after config steps,⟨steps,rfl⟩,?_⟩
  induction steps generalizing m n with
  | zero => exact beside
  | succ steps ih =>
    have both := beside.step config
    unfold Machine.after
    generalize m.step config = next at both
    generalize n.step config = next' at both
    cases both with
    | some beside => exact ih beside
    | none => exact beside

theorem Respans.rests (beside : m.Respans (spansChanged f) n) (rests : m.step config = none) :
    n.step config = none := by
  have both := beside.step config
  rw [rests] at both
  generalize n.step config = next at both
  cases both
  rfl

theorem Respans.world (beside : m.Respans (spansChanged f) n) : (spansChanged f).Worlds m.world n.world := by
  cases beside with
  | doing _ _ worlds => exact worlds
  | waiting _ _ worlds => exact worlds
  | giving _ _ worlds => exact worlds

theorem Respans.hand (beside : m.Respans (spansChanged f) n) {w v : World} (worlds : (spansChanged f).Worlds w v) :
    (m.hand w).Respans (spansChanged f) (n.hand v) := by
  cases beside with
  | doing here below _ => exact .doing here below worlds
  | waiting here below _ => exact .waiting here below worlds
  | giving results below _ => exact .giving results below worlds

theorem Respans.suspended (beside : m.Respans (spansChanged f) n) (suspended : n.Suspended) : m.Suspended := by
  cases beside with
  | doing => exact suspended.elim
  | giving => exact suspended.elim
  | waiting here below worlds => exact ⟨worlds.gliding.symm.trans suspended.1,worlds.asked.symm.trans suspended.2⟩

theorem Passed.respans {start other : Machine} (beside : start.Respans (spansChanged f) other)
    (passed : Passed config other n) : ∃ m, Passed config start m ∧ m.Respans (spansChanged f) n := by
  induction passed with
  | start => exact ⟨start,.start,beside⟩
  | @step n later _ stepped ih =>
    obtain ⟨m,passed,beside⟩ := ih
    have both := beside.step config
    rw [stepped] at both
    cases stepped' : m.step config with
    | none =>
      rw [stepped'] at both
      cases both
    | some next =>
      rw [stepped'] at both
      cases both with
      | some beside => exact ⟨next,passed.step stepped',beside⟩
  | @handed n v _ suspended handed ih =>
    obtain ⟨m,passed,beside⟩ := ih
    -- The host of the other run does with its world what this one does.
    let w : World := { m.world with
      sprite := v.sprite, monitor := { m.world.monitor with killRequested := v.monitor.killRequested } }
    have worlds := beside.world
    refine ⟨m.hand w,passed.handed (beside.suspended suspended) ⟨rfl,rfl,rfl,rfl,rfl,rfl⟩,beside.hand ?_⟩
    refine ⟨⟨?_,rfl,?_⟩,worlds.only,?_,?_,rfl⟩
    · exact handed.store.trans worlds.scenes.store
    · exact handed.printed.trans worlds.scenes.printed
    · exact handed.scope.trans worlds.scope
    · exact handed.callDepth.trans worlds.callDepth

end Machine

theorem Program.machine_respans {f : Span → Span} (program : Program) {w v : World}
    (worlds : (spansChanged f).Worlds w v) :
    (program.machine w).Respans (spansChanged f) ((program.respan f).machine v) := by
  refine Machine.respans_enter Store.global program.statements (.push (.exit _) .empty) ?_
  exact ⟨worlds.scenes,worlds.only,rfl,rfl,worlds.asked⟩

end TurtleScript
