import TurtleScript.Proofs.Halting
import TurtleScript.Proofs.LexicalScopes

/-!
Lexical machines. A machine is lexical if its store is, if each piece of code on its way stands in the text where the
scope it is executed in says, and if each value on its way is lexical. There is one rule for each sort of code
(`Code.Lexical`) and for each thing that can be left to do (`Rest.Lexical`), and each says what it expects of the result
it gets and what the one it makes is like. A lexical machine stays lexical from step to step (`Machine.Lexical.step`)
and so in every state that a run passes through, whatever its host does (`Machine.Passed.lexical`).
-/

namespace TurtleScript

def Unasked {α : Type} (_ : Store) (_ : α) : Prop := True

/-- Code that stands in the text where its scope says, with what its results are like. -/
inductive Code.Lexical (roots : Nat → Stmt → Prop) (store : Store) (scope : FrameId) :
    {α : Type} → Code α → (Store → α → Prop) → Prop where
  | expr {e : Expr} (inside : e.Within (SpanOf roots)) : Lexical roots store scope (.expr e) (Value.Lexical roots)
  | exprs {es : List Expr} (each : ∀ e ∈ es, e.Within (SpanOf roots)) :
      Lexical roots store scope (.exprs es) (Value.LexicalAll roots)
  | stmt {d : Nat} {s : Stmt} (nests : Nests roots d s) (deep : store.Deep scope d) :
      Lexical roots store scope (.stmt s) (Flow.Lexical roots)
  | inside {d : Nat} {s : Stmt} (nests : Nests roots d s) (deep : store.Deep scope d) :
      Lexical roots store scope (.inside s) (Flow.Lexical roots)
  | stmts {d index : Nat} {ss : List Stmt} (each : ∀ s ∈ ss, Nests roots d s) (deep : store.Deep scope d) :
      Lexical roots store scope (.stmts index ss) (Flow.Lexical roots)
  | rounds {d begun : Nat} {test : Expr} {body : Stmt} {span : Span} (nests : Nests roots d (.loop test body span))
      (deep : store.Deep scope d) : Lexical roots store scope (.rounds test body begun) (Flow.Lexical roots)
  | between {d begun : Nat} {test : Expr} {body : Stmt} {span : Span} (nests : Nests roots d (.loop test body span))
      (deep : store.Deep scope d) : Lexical roots store scope (.between test body begun) (Flow.Lexical roots)
  | call {c : Closure} {args : List Value} (called : c.Lexical roots store)
      (given : Value.LexicalAll roots store args) :
      Lexical roots store scope (.call c args) (Value.Lexical roots)
  | params {inner : FrameId} {bindings : List (Name × Value)} (places : ∀ b ∈ bindings, SpanOf roots b.1.span)
      (given : ∀ b ∈ bindings, b.2.Lexical roots store) : Lexical roots store scope (.params inner bindings) Unasked
  | text {pieces : List Piece} {written : String} : Lexical roots store scope (.text pieces written) Unasked

/-- What is left to do in a scope, with what it expects of a result and what the result it makes is like. -/
inductive Rest.Lexical (roots : Nat → Stmt → Prop) (store : Store) (scope : FrameId) :
    {α β : Type} → Rest α β → (Store → α → Prop) → (Store → β → Prop) → Prop where
  | assign {name : String} : Lexical roots store scope (.assign name) (Value.Lexical roots) (Value.Lexical roots)
  | assigned {a : Value} (fits : a.Lexical roots store) :
      Lexical roots store scope (.assigned a) Unasked (Value.Lexical roots)
  | unary {op : UnaryOp} : Lexical roots store scope (.unary op) (Value.Lexical roots) (Value.Lexical roots)
  | left {op : BinaryOp} {e : Expr} (inside : e.Within (SpanOf roots)) :
      Lexical roots store scope (.left op e) (Value.Lexical roots) (Value.Lexical roots)
  | right {op : BinaryOp} {a : Value} : Lexical roots store scope (.right op a) (Value.Lexical roots) (Value.Lexical roots)
  | decider {op : LogicalOp} {e : Expr} (inside : e.Within (SpanOf roots)) :
      Lexical roots store scope (.decider op e) (Value.Lexical roots) (Value.Lexical roots)
  | callee {e : Expr} {args : List Expr} (each : ∀ e ∈ args, e.Within (SpanOf roots)) :
      Lexical roots store scope (.callee e args) (Value.Lexical roots) (Value.Lexical roots)
  | arguments {f : Function} (fits : (Value.function f).Lexical roots store) :
      Lexical roots store scope (.arguments f) (Value.LexicalAll roots) (Value.Lexical roots)
  | items : Lexical roots store scope .items (Value.LexicalAll roots) (Value.Lexical roots)
  | target {e : Expr} (inside : e.Within (SpanOf roots)) :
      Lexical roots store scope (.target e) (Value.Lexical roots) (Value.Lexical roots)
  | position {a : Value} : Lexical roots store scope (.position a) (Value.Lexical roots) (Value.Lexical roots)
  | first {es : List Expr} (each : ∀ e ∈ es, e.Within (SpanOf roots)) :
      Lexical roots store scope (.first es) (Value.Lexical roots) (Value.LexicalAll roots)
  | others {a : Value} (fits : a.Lexical roots store) :
      Lexical roots store scope (.others a) (Value.LexicalAll roots) (Value.LexicalAll roots)
  | effect {α : Type} {post : Store → α → Prop} : Lexical roots store scope .effect post (Flow.Lexical roots)
  | initial {name : Name} (place : SpanOf roots name.span) :
      Lexical roots store scope (.initial name) (Value.Lexical roots) (Flow.Lexical roots)
  | result : Lexical roots store scope .result (Value.Lexical roots) (Flow.Lexical roots)
  | test {d : Nat} {yes : Stmt} {no : Option Stmt} (first : Nests roots d yes) (second : ∀ s ∈ no, Nests roots d s)
      (deep : store.Deep scope d) : Lexical roots store scope (.test yes no) (Value.Lexical roots) (Flow.Lexical roots)
  | entered {d : Nat} {body : List Stmt} {span : Span} (nests : Nests roots d (.block body span)) :
      Lexical roots store scope (.entered body) (fun store id => store.Deep id (d + 1)) (Flow.Lexical roots)
  | next {d index : Nat} {ss : List Stmt} (each : ∀ s ∈ ss, Nests roots d s) (deep : store.Deep scope d) :
      Lexical roots store scope (.next index ss) (Flow.Lexical roots) (Flow.Lexical roots)
  | condition {d begun : Nat} {test : Expr} {body : Stmt} {span : Span} (nests : Nests roots d (.loop test body span))
      (deep : store.Deep scope d) :
      Lexical roots store scope (.condition test body begun) (Value.Lexical roots) (Flow.Lexical roots)
  | round {d begun : Nat} {test : Expr} {body : Stmt} {span : Span} (nests : Nests roots d (.loop test body span))
      (deep : store.Deep scope d) :
      Lexical roots store scope (.round test body begun) (Flow.Lexical roots) (Flow.Lexical roots)
  | calling {d : Nat} {name : Name} {c : Closure} {span : Span} {args : List Value}
      (nests : Nests roots d (.function name c.params c.body span)) (given : Value.LexicalAll roots store args) :
      Lexical roots store scope (.scoped c args) (fun store id => store.Deep id (d + 1)) (Value.Lexical roots)
  | bound {d : Nat} {name : Name} {inner : FrameId} {c : Closure} {span : Span}
      (nests : Nests roots d (.function name c.params c.body span)) (deep : store.Deep inner (d + 1)) :
      Lexical roots store scope (.bound inner c) Unasked (Value.Lexical roots)
  | param {inner : FrameId} {bindings : List (Name × Value)} (places : ∀ b ∈ bindings, SpanOf roots b.1.span)
      (given : ∀ b ∈ bindings, b.2.Lexical roots store) :
      Lexical roots store scope (.param inner bindings) Unasked Unasked
  | body : Lexical roots store scope .body (Flow.Lexical roots) (Value.Lexical roots)
  | printed : Lexical roots store scope .printed Unasked (Value.Lexical roots)
  | asText : Lexical roots store scope .asText Unasked (Value.Lexical roots)

/-- All that is left to do from a scope on, each thing in the scope that the ones before it lead back to. -/
inductive Stack.Lexical (roots : Nat → Stmt → Prop) (store : Store) :
    FrameId → {α : Type} → Stack α → (Store → α → Prop) → Prop where
  | empty {scope : FrameId} : Lexical roots store scope .empty (Flow.Lexical roots)
  | located {scope : FrameId} {α : Type} {rest : Stack α} {post : Store → α → Prop} {span : Span}
      (place : SpanOf roots span) (below : Lexical roots store scope rest post) :
      Lexical roots store scope (rest.push (.located span)) post
  | block {scope outer : FrameId} {α : Type} {rest : Stack α} {post : Store → α → Prop}
      (around : store.Opened roots outer) (below : Lexical roots store outer rest post) :
      Lexical roots store scope (rest.push (.exit (.block outer))) post
  | call {scope : FrameId} {depth : Nat} {α : Type} {rest : Stack α} {post : Store → α → Prop}
      (below : Lexical roots store scope rest post) : Lexical roots store scope (rest.push (.exit (.call depth))) post
  | program {scope : FrameId} {α : Type} {rest : Stack α} {post : Store → α → Prop}
      (below : Lexical roots store scope rest post) : Lexical roots store scope (rest.push (.exit .program)) post
  | push {scope : FrameId} {α β : Type} {rest : Stack β} {r : Rest α β} {post : Store → α → Prop}
      {next : Store → β → Prop} (top : r.Lexical roots store scope post next)
      (below : Lexical roots store scope rest next) : Lexical roots store scope (rest.push r) post

/-- A statement or a loop stands as deep in the text as the scope is. -/
def Code.Stands (roots : Nat → Stmt → Prop) (store : Store) (scope : FrameId) : {α : Type} → Code α → Prop
  | _, .stmt s | _, .inside s => ∃ d, Nests roots d s ∧ store.Deep scope d
  | _, .rounds test body _ | _, .between test body _ =>
    ∃ d span, Nests roots d (.loop test body span) ∧ store.Deep scope d
  | _, _ => True

theorem Code.Lexical.stands {roots : Nat → Stmt → Prop} {store : Store} {scope : FrameId} {α : Type} {code : Code α}
    {post : Store → α → Prop} (lexical : code.Lexical roots store scope post) : code.Stands roots store scope := by
  cases lexical with
  | stmt nests deep => exact ⟨_,nests,deep⟩
  | inside nests deep => exact ⟨_,nests,deep⟩
  | rounds nests deep => exact ⟨_,_,nests,deep⟩
  | between nests deep => exact ⟨_,_,nests,deep⟩
  | _ => exact trivial

def Code.Paused : {α : Type} → Code α → Prop
  | _, .inside _ | _, .rounds _ _ _ => True
  | _, _ => False

/-- If there is a place in it, it is that of something in the roots. -/
def Interruption.Placed (roots : Nat → Stmt → Prop) (e : Interruption) : Prop :=
  ∀ failure, e = .failed failure → ∀ span ∈ failure.span, SpanOf roots span

/-- The store is lexical, and the scope of the statement being executed is as deep as what has opened it. -/
structure World.Lexical (roots : Nat → Stmt → Prop) (w : World) : Prop where
  store : w.store.Lexical roots
  inside : w.store.Opened roots w.scope

inductive Machine.Lexical (roots : Nat → Stmt → Prop) : Machine → Prop where
  | doing {α : Type} {code : Code α} {rest : Stack α} {w : World} {post : Store → α → Prop} (world : w.Lexical roots)
      (here : code.Lexical roots w.store w.scope post) (below : rest.Lexical roots w.store w.scope post) :
      Lexical roots (.doing code rest w)
  | waiting {α : Type} {code : Code α} {rest : Stack α} {w : World} {post : Store → α → Prop} (paused : code.Paused)
      (world : w.Lexical roots) (here : code.Lexical roots w.store w.scope post)
      (below : rest.Lexical roots w.store w.scope post) : Lexical roots (.waiting code rest w)
  | given {α : Type} {a : α} {rest : Stack α} {w : World} {post : Store → α → Prop} (world : w.Lexical roots)
      (result : post w.store a) (below : rest.Lexical roots w.store w.scope post) :
      Lexical roots (.giving (.ok a) rest w)
  | failed {α : Type} {e : Interruption} {rest : Stack α} {w : World} {post : Store → α → Prop}
      (world : w.Lexical roots) (placed : e.Placed roots) (below : rest.Lexical roots w.store w.scope post) :
      Lexical roots (.giving (.error e) rest w)

section
variable {roots : Nat → Stmt → Prop} {α β : Type}

theorem Rest.Lexical.grow {store later : Store} {scope : FrameId} {r : Rest α β} {post : Store → α → Prop}
    {next : Store → β → Prop} (lexical : r.Lexical roots store scope post next) (grows : store.Grows later) :
    r.Lexical roots later scope post next := by
  cases lexical with
  | assign => exact .assign
  | assigned fits => exact .assigned (fits.grow grows)
  | unary => exact .unary
  | left inside => exact .left inside
  | right => exact .right
  | decider inside => exact .decider inside
  | callee each => exact .callee each
  | arguments fits => exact .arguments (fits.grow grows)
  | items => exact .items
  | target inside => exact .target inside
  | position => exact .position
  | first each => exact .first each
  | others fits => exact .others (fits.grow grows)
  | effect => exact .effect
  | initial place => exact .initial place
  | result => exact .result
  | test first second deep => exact .test first second (deep.grow grows)
  | entered nests => exact .entered nests
  | next each deep => exact .next each (deep.grow grows)
  | condition nests deep => exact .condition nests (deep.grow grows)
  | round nests deep => exact .round nests (deep.grow grows)
  | calling nests given => exact .calling nests (given.grow grows)
  | bound nests deep => exact .bound nests (deep.grow grows)
  | param places given => exact .param places fun b mem => (given b mem).grow grows
  | body => exact .body
  | printed => exact .printed
  | asText => exact .asText

theorem Stack.Lexical.grow {store later : Store} {scope : FrameId} {rest : Stack α} {post : Store → α → Prop}
    (lexical : rest.Lexical roots store scope post) (grows : store.Grows later) :
    rest.Lexical roots later scope post := by
  induction lexical with
  | empty => exact .empty
  | located place _ ih => exact .located place ih
  | block around _ ih => exact .block (around.grow grows) ih
  | call _ ih => exact .call ih
  | program _ ih => exact .program ih
  | push top _ ih => exact .push (top.grow grows) ih

namespace Machine

variable {rest : Stack α} {w : World} {post : Store → α → Prop}

theorem lexical_ite {c : Prop} [Decidable c] {yes no : Machine} (holds : c → yes.Lexical roots)
    (fails : ¬ c → no.Lexical roots) : (if c then yes else no).Lexical roots := by
  by_cases which : c
  · rw [if_pos which]
    exact holds which
  · rw [if_neg which]
    exact fails which

theorem lexical_fail (world : w.Lexical roots) (fault : Fault)
    (below : rest.Lexical roots w.store w.scope post) : (fail fault rest w).Lexical roots := by
  refine .failed world (fun failure same => ?_) below
  cases same
  exact nofun

theorem lexical_act {action : Action α} (world : w.Lexical roots) (acts : action.Lexical roots w.scene post)
    (below : rest.Lexical roots w.store w.scope post) : (act action rest w).Lexical roots := by
  have later := below.grow acts.grows
  have result := acts.result
  have after : (w.withScene (action.onScene w.scene).2).Lexical roots := ⟨acts.lexical,world.inside.grow acts.grows⟩
  unfold act
  rw [acts.contained.run_eq]
  generalize action.onScene w.scene = out at later result after
  obtain ⟨fault | a,scene⟩ := out
  · exact lexical_fail after fault later
  · exact .given after (result a rfl) later

theorem lexical_stop (world : w.Lexical roots) (below : rest.Lexical roots w.store w.scope post) :
    (stop rest w).Lexical roots :=
  .failed ⟨world.store,world.inside⟩ (fun _ same => nomatch same) below

theorem lexical_pause {code : Code α} (paused : code.Paused) (world : w.Lexical roots)
    (here : code.Lexical roots w.store w.scope post) (below : rest.Lexical roots w.store w.scope post) :
    (pause code rest w).Lexical roots := by
  refine lexical_ite (fun _ => lexical_stop world below) fun _ => lexical_ite (fun _ => ?_) fun _ => ?_
  · exact .waiting paused ⟨world.store,world.inside⟩ here below
  · exact .doing ⟨world.store,world.inside⟩ here below

theorem lexical_option {e : Option Expr} {rest : Stack Value} (world : w.Lexical roots)
    (each : ∀ inner ∈ e, inner.Within (SpanOf roots)) (below : rest.Lexical roots w.store w.scope (Value.Lexical roots)) :
    (option e rest w).Lexical roots := by
  cases e with
  | some e => exact .doing world (.expr (each e rfl)) below
  | none => exact .given world (fun _ same => nomatch same) below

theorem lexical_enter {d : Nat} {scope : FrameId} {s : Stmt} {ss : List Stmt} {rest : Stack Flow}
    (world : w.Lexical roots) (nests : Nests roots d s) (opens : s.Opens) (each : ∀ s ∈ ss, Nests roots (d + 1) s)
    (deep : w.store.Deep scope (d + 1)) (below : rest.Lexical roots w.store w.scope (Flow.Lexical roots)) :
    (enter scope ss rest w).Lexical roots :=
  .doing ⟨world.store,.inr ⟨d,s,nests,opens,deep⟩⟩ (.stmts each deep) (.block world.inside below)

end Machine

/-! ### Single steps -/

section
variable {config : Config} {w : World}

theorem Expr.begin_lexical {e : Expr} {rest : Stack Value} (world : w.Lexical roots)
    (inside : e.Within (SpanOf roots)) (below : rest.Lexical roots w.store w.scope (Value.Lexical roots)) :
    (e.begin rest w).Lexical roots := by
  cases e with
  | literal value span =>
    refine .given world (fun c same => ?_) below
    cases value <;> cases same
  | grouping inner span => exact .doing world (.expr fun s mem => inside s (.tail _ mem)) below
  | var name span =>
    refine Machine.lexical_act world (Action.lexical_inquire world.store fun a found => ?_) below
    exact world.store.held a (Store.holds_of_get found)
  | assign name value span => exact .doing world (.expr fun s mem => inside s (.tail _ mem)) (.push .assign below)
  | unary op operand span => exact .doing world (.expr fun s mem => inside s (.tail _ mem)) (.push .unary below)
  | binary op left right span =>
    refine .doing world (.expr fun s mem => inside s (.tail _ (List.mem_append_left _ mem))) (.push (.left ?_) below)
    exact fun s mem => inside s (.tail _ (List.mem_append_right _ mem))
  | logical op left right span =>
    refine .doing world (.expr fun s mem => inside s (.tail _ (List.mem_append_left _ mem))) (.push (.decider ?_) below)
    exact fun s mem => inside s (.tail _ (List.mem_append_right _ mem))
  | call callee args span =>
    refine .doing world (.expr fun s mem => inside s (.tail _ (List.mem_append_left _ mem))) (.push (.callee ?_) below)
    exact fun e mem s there => inside s (.tail _ (List.mem_append_right _ (Expr.mem_spansAll.mpr ⟨e,mem,there⟩)))
  | array items span =>
    refine .doing world (.exprs fun e mem s there => ?_) (.push .items below)
    exact inside s (.tail _ (Expr.mem_spansAll.mpr ⟨e,mem,there⟩))
  | index target position span =>
    refine .doing world (.expr fun s mem => inside s (.tail _ (List.mem_append_left _ mem))) (.push (.target ?_) below)
    exact fun s mem => inside s (.tail _ (List.mem_append_right _ mem))

theorem Stmt.begin_lexical {s : Stmt} {d : Nat} {rest : Stack Flow} (world : w.Lexical roots)
    (nests : Nests roots d s) (deep : w.store.Deep w.scope d)
    (below : rest.Lexical roots w.store w.scope (Flow.Lexical roots)) : (s.begin rest w).Lexical roots := by
  have inside := nests.spanned
  have optional : ∀ (front : List Span) {e : Option Expr}, s.spans = front ++ Expr.spansOption e →
      ∀ inner ∈ e, inner.Within (SpanOf roots) := by
    intro front e same inner mem
    cases mem
    exact fun place there => inside place (same ▸ List.mem_append_right _ there)
  cases s with
  | expression value span => exact .doing world (.expr fun s mem => inside s (.tail _ mem)) (.push .effect below)
  | var name initial span =>
    refine Machine.lexical_option world (optional [_,_] rfl) (.push (.initial ?_) below)
    exact inside name.span (.tail _ (.head _))
  | function name params body span =>
    refine Machine.lexical_act world (Action.lexical_newClosure world.store nests deep) (.push (.initial ?_) below)
    exact inside name.span (.tail _ (.head _))
  | block body span =>
    exact Machine.lexical_act world (Action.lexical_child world.store deep) (.push (.entered nests) below)
  | branch test yes no span =>
    refine .doing world (.expr fun s mem => inside s (.tail _ (List.mem_append_left _ mem))) (.push ?_ below)
    refine .test (.yes nests) (fun s mem => ?_) deep
    cases mem
    exact .no nests
  | loop test body span => exact .doing world (.rounds nests deep) below
  | giveBack value span => exact Machine.lexical_option world (optional [_] rfl) (.push .result below)

theorem Code.step_lexical {code : Code α} {rest : Stack α} {post : Store → α → Prop} (world : w.Lexical roots)
    (here : code.Lexical roots w.store w.scope post) (below : rest.Lexical roots w.store w.scope post) :
    (code.step config rest w).Lexical roots := by
  cases here with
  | expr inside => exact Expr.begin_lexical world inside (.located inside.span below)
  | @exprs es each =>
    cases es with
    | nil => exact .given world nofun below
    | cons e es =>
      exact .doing world (.expr (each e (.head _))) (.push (.first fun e mem => each e (.tail _ mem)) below)
  | stmt nests deep => exact Machine.lexical_pause trivial world (.inside nests deep) below
  | inside nests deep =>
    exact Stmt.begin_lexical world nests deep (.located (nests.spanned _ (Stmt.span_mem _)) below)
  | @stmts d index ss each deep =>
    cases ss with
    | nil => exact .given world (fun _ same => nomatch same) below
    | cons s ss =>
      refine .doing ⟨world.store,world.inside⟩ (.stmt (each s (.head _)) deep) (.push (.next ?_ deep) below)
      exact fun s mem => each s (.tail _ mem)
  | rounds nests deep =>
    refine .doing world (.expr fun s mem => ?_) (.push (.condition nests deep) below)
    exact nests.spanned s (.tail _ (List.mem_append_left _ mem))
  | between nests deep => exact Machine.lexical_pause trivial world (.rounds nests deep) below
  | @call c args called given =>
    refine Machine.lexical_ite (fun _ => Machine.lexical_fail world _ below) fun _ => ?_
    obtain ⟨d,span,nests,deep⟩ := called
    exact Machine.lexical_act world (Action.lexical_child world.store deep) (.push (.calling nests given) below)
  | @params inner bindings places given =>
    match bindings with
    | [] => exact .given world trivial below
    | (name,a) :: bindings =>
      refine Machine.lexical_act world (Action.lexical_define world.store inner name.text (given _ (.head _))) ?_
      refine .located (places _ (.head _)) (.push (.param ?_ ?_) below)
      · exact fun b mem => places b (.tail _ mem)
      · exact fun b mem => given b (.tail _ mem)
  | @text pieces written =>
    match pieces with
    | [] => exact .given world trivial below
    | .text more :: pieces => exact .doing world .text below
    | .value depth a :: pieces =>
      cases a with
      | array id =>
        exact Machine.lexical_ite (fun _ => .doing world .text below) fun _ => .doing world .text below
      | _ => exact .doing world .text below

theorem Function.begin_lexical {f : Function} {args : List Value} {rest : Stack Value} (world : w.Lexical roots)
    (fits : (Value.function f).Lexical roots w.store) (given : Value.LexicalAll roots w.store args)
    (below : rest.Lexical roots w.store w.scope (Value.Lexical roots)) : (f.begin args rest w).Lexical roots := by
  unfold Function.begin
  split
  · exact Machine.lexical_fail world _ below
  · split
    · exact .doing world .text (.push .printed below)
    · exact .doing world .text (.push .asText below)
    · exact Machine.lexical_act world (Action.lexical_apply world.store _ given) below
    · exact .doing world (.call (fits _ rfl) given) below

theorem Rest.take_lexical {r : Rest α β} {a : α} {rest : Stack β} {post : Store → α → Prop} {next : Store → β → Prop}
    (world : w.Lexical roots) (top : r.Lexical roots w.store w.scope post next) (result : post w.store a)
    (below : rest.Lexical roots w.store w.scope next) : (r.take config a rest w).Lexical roots := by
  cases top with
  | assign =>
    exact Machine.lexical_act world (Action.lexical_assign world.store _ _ result) (.push (.assigned result) below)
  | assigned fits => exact .given world fits below
  | unary =>
    refine Machine.lexical_act world (Action.lexical_inquire world.store fun b made => ?_) below
    exact (UnaryOp.plain_apply made).lexical
  | left inside => exact .doing world (.expr inside) (.push .right below)
  | right =>
    refine Machine.lexical_act world (Action.lexical_inquire world.store fun b made => ?_) below
    exact (BinaryOp.plain_apply made).lexical
  | decider inside =>
    exact Machine.lexical_ite (fun _ => .given world result below) fun _ => .doing world (.expr inside) below
  | callee each =>
    cases a with
    | function f => exact .doing world (.exprs each) (.push (.arguments result) below)
    | _ => exact Machine.lexical_fail world _ below
  | arguments fits => exact Function.begin_lexical world fits result below
  | items => exact Machine.lexical_act world (Action.lexical_newArray world.store result) below
  | target inside => exact .doing world (.expr inside) (.push .position below)
  | position =>
    refine Machine.lexical_act world (Action.lexical_inquire world.store fun b found => ?_) below
    rcases Builtin.found_of_itemOf found with plain | ⟨id,mem⟩
    · exact plain.lexical
    · exact world.store.held b (.inr ⟨id,mem⟩)
  | first each => exact .doing world (.exprs each) (.push (.others result) below)
  | others fits => exact .given world (List.forall_mem_cons.mpr ⟨fits,result⟩) below
  | effect => exact .given world (fun _ same => nomatch same) below
  | initial place =>
    exact Machine.lexical_act world (Action.lexical_define world.store _ _ result) (.located place (.push .effect below))
  | result =>
    refine .given world (fun b same => ?_) below
    cases same
    exact result
  | @test d yes no first second deep =>
    refine Machine.lexical_ite (fun _ => .doing world (.stmt first deep) below) fun _ => ?_
    cases no with
    | some s => exact .doing world (.stmt (second s rfl) deep) below
    | none => exact .given world (fun _ same => nomatch same) below
  | entered nests => exact Machine.lexical_enter world nests trivial (fun _ mem => .block nests mem) result below
  | next each deep =>
    cases a with
    | next => exact .doing world (.stmts each deep) below
    | returned b => exact .given world result below
  | condition nests deep =>
    refine Machine.lexical_ite (fun _ => ?_) fun _ => .given world (fun _ same => nomatch same) below
    refine Machine.lexical_ite (fun _ => Machine.lexical_fail world _ below) fun _ => ?_
    exact .doing world (.stmt (.loop nests) deep) (.push (.round nests deep) below)
  | round nests deep =>
    cases a with
    | next => exact .doing world (.between nests deep) below
    | returned b => exact .given world result below
  | calling nests given =>
    refine .doing world (.params (fun b mem => ?_) fun b mem => ?_) (.push (.bound nests result) below)
    · refine nests.spanned b.1.span (.tail _ (.tail _ (List.mem_append_left _ ?_)))
      exact List.mem_map.mpr ⟨b.1,(List.of_mem_zip mem).1,rfl⟩
    · exact given b.2 (List.of_mem_zip mem).2
  | bound nests deep =>
    have deeper : World.Lexical roots { w with callDepth := w.callDepth + 1 } := ⟨world.store,world.inside⟩
    exact Machine.lexical_enter deeper nests trivial (fun _ mem => .body nests mem) deep (.call (.push .body below))
  | param places given => exact .doing world (.params places given) below
  | body =>
    cases a with
    | next => exact .given world (fun _ same => nomatch same) below
    | returned b => exact .given world (result b rfl) below
  | printed =>
    have prints : (do Action.print a; return Value.null : Action Value).Lexical roots w.scene (Value.Lexical roots) := by
      refine ⟨Action.contained_bind (Action.contained_print a) fun _ => Action.contained_pure _,.refl _,world.store,?_⟩
      intro b same
      cases same
      exact nofun
    exact Machine.lexical_act world prints below
  | asText => exact .given world (fun _ same => nomatch same) below

theorem Interruption.Placed.locate {e : Interruption} (placed : e.Placed roots) {span : Span}
    (place : SpanOf roots span) : (e.locate span).Placed roots := by
  cases e with
  | killed => exact fun _ same => nomatch same
  | failed failure =>
    intro later same other mem
    cases same
    obtain ⟨fault,known⟩ := failure
    cases known with
    | none =>
      cases mem
      exact place
    | some before => exact placed _ rfl other mem

theorem Machine.Lexical.step {m later : Machine} (lexical : m.Lexical roots) (stepped : m.step config = some later) :
    later.Lexical roots := by
  cases lexical with
  | doing world here below =>
    cases stepped
    exact Code.step_lexical world here below
  | waiting _ world here below =>
    rw [Machine.step] at stepped
    split at stepped
    · cases stepped
      exact Machine.lexical_stop world below
    · split at stepped
      · cases stepped
      · cases stepped
        exact .doing world here below
  | given world result below =>
    cases below with
    | empty => cases stepped
    | located place below =>
      cases stepped
      exact .given world result below
    | block around below =>
      cases stepped
      exact .given ⟨world.store,around⟩ result below
    | call below =>
      cases stepped
      exact .given ⟨world.store,world.inside⟩ result below
    | program below =>
      cases stepped
      exact .given ⟨world.store,world.inside⟩ result below
    | push top below =>
      cases stepped
      exact Rest.take_lexical world top result below
  | failed world placed below =>
    cases below with
    | empty => cases stepped
    | located place below =>
      cases stepped
      exact .failed world (placed.locate place) below
    | block around below =>
      cases stepped
      exact .failed ⟨world.store,around⟩ placed below
    | call below =>
      cases stepped
      exact .failed ⟨world.store,world.inside⟩ placed below
    | program below =>
      cases stepped
      exact .failed ⟨world.store,world.inside⟩ placed below
    | push top below =>
      cases top <;> (cases stepped; exact .failed world placed below)

end

end

namespace Machine

/-- The states that a run passes through, whatever its host does where it is suspended. -/
inductive Passed (config : Config) (start : Machine) : Machine → Prop where
  | start : Passed config start start
  | step {m later : Machine} (passed : Passed config start m) (stepped : m.step config = some later) :
      Passed config start later
  | handed {m : Machine} {v : World} (passed : Passed config start m) (suspended : m.Suspended)
      (handed : Handed m.world v) : Passed config start (m.hand v)

variable {config : Config} {start m later : Machine}

theorem Passed.after (passed : Passed config start m) (n : Nat) : Passed config start (m.after config n) := by
  induction n generalizing m with
  | zero => exact passed
  | succ n ih =>
    rw [Machine.after]
    cases stepped : m.step config with
    | none => exact passed
    | some later => exact ih (passed.step stepped)

theorem Passed.comes (passed : Passed config start m) (comes : m.Comes config later) : Passed config start later := by
  obtain ⟨n,rfl⟩ := comes
  exact passed.after n

/-- Whatever state a run passes through is lexical, if the one it starts from is. -/
theorem Passed.lexical {roots : Nat → Stmt → Prop} (lexical : start.Lexical roots) (passed : Passed config start m) :
    m.Lexical roots := by
  induction passed with
  | start => exact lexical
  | step _ stepped ih => exact ih.step stepped
  | @handed m v _ suspended handed ih =>
    cases ih with
    | doing => exact suspended.elim
    | waiting paused world here below =>
      have same : _ = v.store := handed.store.symm
      have back : _ = v.scope := handed.scope.symm
      dsimp only [Machine.world] at same back
      have there : v.Lexical roots := ⟨same ▸ world.store,same ▸ back ▸ world.inside⟩
      rw [same,back] at here below
      exact .waiting paused there here below
    | given => exact suspended.elim
    | failed => exact suspended.elim

theorem Lexical.world_lexical {roots : Nat → Stmt → Prop} (lexical : m.Lexical roots) : m.world.Lexical roots := by
  cases lexical with
  | doing world _ _ => exact world
  | waiting _ world _ _ => exact world
  | given world _ _ => exact world
  | failed world _ _ => exact world

end Machine

theorem Program.machine_lexical {roots : Nat → Stmt → Prop} {program : Program} {w : World}
    (store : w.store.Lexical roots) (each : ∀ s ∈ program.statements, roots 0 s) :
    (program.machine w).Lexical roots := by
  have deep : w.store.Deep Store.global 0 := store.scopes.global_deep
  have stmts : ∀ s ∈ program.statements, TurtleScript.Nests roots 0 s := fun s mem => .root (each s mem)
  exact .doing ⟨store,.inl deep⟩ (.stmts stmts deep) (.block (.inl deep) (.program .empty))

end TurtleScript
