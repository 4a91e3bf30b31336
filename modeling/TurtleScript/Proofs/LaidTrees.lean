import Mathlib.Data.List.Infix
import Mathlib.Logic.Relation
import TurtleScript.Program.Grammar
import TurtleScript.Proofs.Reads

/-!
Trees laid over tokens. All that knows its place in a tree is a `Node`. A node is exact (`Node.Exact`) if its span runs
over some tokens that stand together, holds the spans of its children, has the statements it encloses in order, and is
that of its name where it is a name. A node is laid over a text if it runs over all of it and it and everything below
it is exact (`Node.Laid`); there is a lemma for each kind of node, from those of its children to that of its own.
-/

namespace TurtleScript

/-- What knows its place in a tree. -/
inductive Node where
  | expr (e : Expr)
  | stmt (s : Stmt)
  /-- A name where it is declared, as that of a function, a variable or a parameter. -/
  | declared (name : Name)

namespace Node

def span : Node → Span
  | .expr e => e.span
  | .stmt s => s.span
  | .declared name => name.span

/-- The nodes directly below. -/
def children : Node → List Node
  | .expr (.literal _ _) | .expr (.var _ _) | .declared _ => []
  | .expr (.assign _ value _) => [.expr value]
  | .expr (.grouping inner _) => [.expr inner]
  | .expr (.unary _ operand _) => [.expr operand]
  | .expr (.binary _ left right _) | .expr (.logical _ left right _) => [.expr left,.expr right]
  | .expr (.call callee args _) => .expr callee :: args.map .expr
  | .expr (.array items _) => items.map .expr
  | .expr (.index target position _) => [.expr target,.expr position]
  | .stmt (.block body _) => body.map .stmt
  | .stmt (.expression value _) => [.expr value]
  | .stmt (.function name params body _) => .declared name :: (params.map .declared ++ body.map .stmt)
  | .stmt (.branch test yes no _) => .expr test :: .stmt yes :: no.toList.map .stmt
  | .stmt (.giveBack value _) => value.toList.map .expr
  | .stmt (.var name initial _) => .declared name :: initial.toList.map .expr
  | .stmt (.loop test body _) => [.expr test,.stmt body]

/-- The name that the node is: of a variable that is referred to, or one that is declared. -/
def name? : Node → Option String
  | .expr (.var name _) => some name
  | .declared name => some name.text
  | _ => none

def Below (root : Node) : Node → Prop := Relation.ReflTransGen (fun parent child => child ∈ parent.children) root

/-- The statements stand between the braces of the node: it is a function, or a block that is written. One that is made
up for a `for` loop is told by the word that it begins with. -/
inductive Encloses (tokens : List Token) : Node → List Stmt → Prop where
  | function {name : Name} {params : List Name} {body : List Stmt} {span : Span} :
      Encloses tokens (.stmt (.function name params body span)) body
  | block {body : List Stmt} {span : Span}
      (written : ∀ token ∈ tokens, token.kind = .kwFor → token.span.start ≠ span.start) :
      Encloses tokens (.stmt (.block body span)) body

end Node

/-- The node is in the tree of the program. -/
def Program.Has (program : Program) (node : Node) : Prop := ∃ s ∈ program.statements, (Node.stmt s).Below node

/-- The spans of the statements come one behind the other, without overlaps. -/
def Stmt.InOrder (body : List Stmt) : Prop := body.Pairwise fun a b => a.span.stop ≤ b.span.start

/-- The span runs from the start of the first token to the end of the last one. -/
def Span.Over (span : Span) (text : List Token) : Prop :=
  ∃ first ∈ text.head?, ∃ last ∈ text.getLast?,
    span.start = first.span.start ∧ span.line = first.span.line ∧ span.stop = last.span.stop

/-- The spans at a node are what they should be in the tokens. -/
structure Node.Exact (tokens : List Token) (node : Node) : Prop where
  /-- It runs over some of the tokens, without a gap. -/
  runs : ∃ text, text <:+: tokens ∧ node.span.Over text
  inside : ∀ child ∈ node.children, node.span.start ≤ child.span.start ∧ child.span.stop ≤ node.span.stop
  ordered : ∀ body, node.Encloses tokens body → Stmt.InOrder body
  /-- A name has the place of a token with its text. -/
  named : ∀ name ∈ node.name?, ∃ token ∈ tokens, token.lexeme = name ∧ token.span = node.span

/-- The tokens come one behind the other, without overlaps, and none is empty. -/
structure Token.Sequential (tokens : List Token) : Prop where
  filled : ∀ token ∈ tokens, token.span.start < token.span.stop
  ordered : tokens.Pairwise fun a b => a.span.stop ≤ b.span.start

namespace Token.Sequential

variable {tokens text : List Token} {a b first last token : Token}

theorem part (sequential : Sequential tokens) (inside : text <:+: tokens) : Sequential text :=
  ⟨fun token mem => sequential.filled token (inside.subset mem),sequential.ordered.sublist inside.sublist⟩

theorem first_le (sequential : Sequential text) (isFirst : first ∈ text.head?) (mem : token ∈ text) :
    first.span.start ≤ token.span.start := by
  obtain ⟨later,rfl⟩ := List.head?_eq_some_iff.mp isFirst
  rcases List.mem_cons.mp mem with rfl | behind
  · exact Nat.le_refl _
  · have filled := sequential.filled first (.head _)
    have ordered := (List.pairwise_cons.mp sequential.ordered).1 token behind
    omega

theorem le_last (sequential : Sequential text) (isLast : last ∈ text.getLast?) (mem : token ∈ text) :
    token.span.stop ≤ last.span.stop := by
  obtain ⟨front,rfl⟩ := List.getLast?_eq_some_iff.mp isLast
  rcases List.mem_append.mp mem with before | same
  · have filled := sequential.filled last (by simp)
    have ordered := (List.pairwise_append.mp sequential.ordered).2.2 token before last (by simp)
    omega
  · cases List.mem_singleton.mp same
    exact Nat.le_refl _

end Token.Sequential

namespace Span

open Token (Sequential)

variable {a b : Span} {text part ts us : List Token}

theorem Over.inside (sequential : Sequential text) (whole : a.Over text) (some : b.Over part) (within : part <:+: text) :
    a.start ≤ b.start ∧ b.stop ≤ a.stop := by
  obtain ⟨first,isFirst,last,isLast,start,_,stop⟩ := whole
  obtain ⟨first',isFirst',last',isLast',start',_,stop'⟩ := some
  rw [start,stop,start',stop']
  exact ⟨sequential.first_le isFirst (within.subset (List.mem_of_mem_head? isFirst')),
    sequential.le_last isLast (within.subset (List.mem_of_mem_getLast? isLast'))⟩

theorem Over.join (sequential : Sequential text) (front : a.Over ts) (back : b.Over us) (begins : ts <+: text)
    (ends : us <:+ text) : (a.join b).Over text := by
  obtain ⟨first,isFirst,last,isLast,start,line,stop⟩ := front
  obtain ⟨first',isFirst',last',isLast',start',_,stop'⟩ := back
  have isHead : first ∈ text.head? := by
    obtain ⟨behind,rfl⟩ := begins
    rw [List.head?_append,isFirst]
    rfl
  have isEnd : last' ∈ text.getLast? := by
    obtain ⟨front,rfl⟩ := ends
    rw [List.getLast?_append,isLast']
    rfl
  have before := sequential.first_le isHead (ends.subset (List.mem_of_mem_head? isFirst'))
  have behind := sequential.le_last isEnd (begins.subset (List.mem_of_mem_getLast? isLast))
  refine ⟨first,isHead,last',isEnd,?_,?_,?_⟩
  · rw [join_start]
    omega
  · rw [← line]
    unfold Span.join
    dsimp only
    rw [if_pos (by omega)]
  · rw [join_stop]
    omega

theorem over_token (token : Token) : token.span.Over [token] := ⟨token,rfl,token,rfl,rfl,rfl,rfl⟩

/-- If the text is among the tokens, the span runs over it. -/
def Spread (tokens text : List Token) (span : Span) : Prop := text <:+: tokens → span.Over text

variable {tokens : List Token}

theorem spread_token (token : Token) : token.span.Spread tokens [token] := fun _ => over_token token

theorem Spread.join (sequential : Sequential tokens) (front : a.Spread tokens ts) (back : b.Spread tokens us)
    (begins : ts <+: text) (ends : us <:+ text) : (a.join b).Spread tokens text := fun inside =>
  (front (begins.isInfix.trans inside)).join (sequential.part inside) (back (ends.isInfix.trans inside)) begins ends

theorem suffix_behind (ts : List Token) (mark : Token) (us : List Token) : us <:+ ts ++ mark :: us :=
  (List.suffix_cons _ _).trans (List.suffix_append _ _)

theorem getLastD_suffix (word : Token) (used : List Token) : [used.getLastD word] <:+ word :: used := by
  rcases List.eq_nil_or_concat used with rfl | ⟨front,token,rfl⟩
  · exact List.suffix_refl _
  · rw [List.concat_eq_append,List.getLastD_concat]
    exact ⟨word :: front,rfl⟩

theorem spread_behind (sequential : Sequential tokens) {word last : Token} {used : List Token}
    (ends : [last] <:+ word :: used) : (word.span.join last.span).Spread tokens (word :: used) :=
  (spread_token word).join sequential (spread_token last) ⟨used,rfl⟩ ends

end Span

/-! ### Trees over tokens -/

namespace Node

open Token (Sequential)

variable {tokens text more ts us : List Token} {node : Node}

/-- If the text is among the tokens, the node runs over it, and it and all nodes below it are exact. -/
def Laid (tokens text : List Token) (node : Node) : Prop :=
  text <:+: tokens → node.span.Over text ∧ ∀ below, node.Below below → below.Exact tokens

def Held (tokens text : List Token) (node : Node) : Prop := ∃ part, part <:+: text ∧ node.Laid tokens part

theorem Laid.spread (laid : node.Laid tokens text) : node.span.Spread tokens text := fun inside => (laid inside).1

theorem Laid.held (laid : node.Laid tokens ts) (within : ts <:+: text) : node.Held tokens text := ⟨ts,within,laid⟩

theorem Held.mono (held : node.Held tokens text) (within : text <:+: more) : node.Held tokens more := by
  obtain ⟨part,inside,laid⟩ := held
  exact ⟨part,inside.trans within,laid⟩

/-- A node is laid over a text that its span runs over, if its children are laid over some of it. -/
theorem laid_of (sequential : Sequential tokens) (spread : node.span.Spread tokens text)
    (held : ∀ child ∈ node.children, child.Held tokens text)
    (named : ∀ name ∈ node.name?, ∃ token ∈ text, token.lexeme = name ∧ token.span = node.span)
    (ordered : text <:+: tokens → ∀ body, node.Encloses tokens body → Stmt.InOrder body) : node.Laid tokens text := by
  intro inside
  have runs := spread inside
  refine ⟨runs,fun below path => ?_⟩
  rcases path.cases_head with rfl | ⟨child,mem,path⟩
  · refine ⟨⟨text,inside,runs⟩,fun child mem => ?_,ordered inside,fun name isName => ?_⟩
    · obtain ⟨part,within,laid⟩ := held child mem
      exact runs.inside (sequential.part inside) (laid (within.trans inside)).1 within
    · obtain ⟨token,mem,same⟩ := named name isName
      exact ⟨token,inside.subset mem,same⟩
  · obtain ⟨part,within,laid⟩ := held child mem
    exact (laid (within.trans inside)).2 below path

theorem laid_expr {e : Expr} (sequential : Sequential tokens) (spread : e.span.Spread tokens text)
    (unnamed : (Node.expr e).name? = none) (held : ∀ child ∈ (Node.expr e).children, child.Held tokens text) :
    (Node.expr e).Laid tokens text := by
  refine laid_of sequential spread held (fun name isName => ?_) fun _ _ => nofun
  rw [unnamed] at isName
  cases isName

theorem laid_stmt {s : Stmt} (sequential : Sequential tokens) (spread : s.span.Spread tokens text)
    (held : ∀ child ∈ (Node.stmt s).children, child.Held tokens text)
    (ordered : text <:+: tokens → ∀ body, (Node.stmt s).Encloses tokens body → Stmt.InOrder body) :
    (Node.stmt s).Laid tokens text :=
  laid_of sequential spread held nofun ordered

theorem laid_token {token : Token} (sequential : Sequential tokens) (place : node.span = token.span)
    (alone : node.children = []) (named : ∀ name ∈ node.name?, token.lexeme = name)
    (open' : ∀ body, ¬ node.Encloses tokens body) : node.Laid tokens [token] := by
  refine laid_of sequential (place ▸ Span.spread_token token) ?_ (fun name isName => ?_) fun _ body encloses => ?_
  · rw [alone]
    exact nofun
  · exact ⟨token,.head _,named name isName,place.symm⟩
  · exact absurd encloses (open' body)

theorem laid_declared (sequential : Sequential tokens) (token : Token) :
    (Node.declared ⟨token.lexeme,token.span⟩).Laid tokens [token] := by
  refine laid_token sequential rfl rfl (fun name isName => ?_) nofun
  cases isName
  rfl

theorem inOrder_of_each {body : List Stmt} {texts : List (List Token)} (sequential : Sequential tokens)
    (each : Program.Parser.Each (fun used s => (Node.stmt s).Laid tokens used) body texts)
    (inside : texts.flatten <:+: tokens) : Stmt.InOrder body := by
  obtain ⟨items,laid,rfl,rfl⟩ := each
  induction items with
  | nil => exact .nil
  | cons item items ih =>
    rw [List.map_cons,List.flatten_cons] at inside
    have front : item.1 <:+: tokens := (List.infix_append' [] _ _).trans inside
    have back : (items.map Prod.fst).flatten <:+: tokens := (List.suffix_append _ _).isInfix.trans inside
    have apart := (List.pairwise_append.mp (sequential.part inside).ordered).2.2
    refine .cons (fun s mem => ?_) (ih (fun other mem => laid other (.tail _ mem)) back)
    obtain ⟨other,later,rfl⟩ := List.mem_map.mp mem
    have within : other.1 <:+: (items.map Prod.fst).flatten := List.infix_of_mem_flatten (List.mem_map_of_mem later)
    obtain ⟨_,_,last,isLast,_,_,stop⟩ := (laid item (.head _) front).1
    obtain ⟨first,isFirst,_,_,start,_⟩ := (laid other (.tail _ later) (within.trans back)).1
    rw [show item.2.span.stop = last.span.stop from stop,show other.2.span.start = first.span.start from start]
    exact apart last (List.mem_of_mem_getLast? isLast) first (within.subset (List.mem_of_mem_head? isFirst))

/-- The nodes that are made up for a `for` loop run over the loop, the semicolon behind its test, or its step. -/
theorem laid_forTree {start : Option Stmt} {test step : Option Expr} {semicolon word : Token} {body : Stmt} {span : Span}
    {used : List Token} (sequential : Sequential tokens) (isFor : word.kind = .kwFor)
    (spread : span.Spread tokens (word :: used))
    (starts : ∀ s ∈ start, (Node.stmt s).Held tokens (word :: used))
    (tested : ∀ e ∈ test, (Node.expr e).Held tokens (word :: used)) (parted : semicolon ∈ word :: used)
    (stepped : ∀ e ∈ step, (Node.expr e).Held tokens (word :: used))
    (repeated : (Node.stmt body).Held tokens (word :: used)) :
    (Node.stmt (Program.Nested.forTree start test semicolon.span step body span)).Laid tokens (word :: used) := by
  have made : ∀ first second : Stmt, (Node.stmt first).Held tokens (word :: used) →
      (Node.stmt second).Held tokens (word :: used) →
      (Node.stmt (.block [first,second] span)).Laid tokens (word :: used) := by
    intro first second held held'
    refine laid_stmt sequential spread ?_ fun inside body encloses => ?_
    · exact List.forall_mem_cons.mpr ⟨held,List.forall_mem_singleton.mpr held'⟩
    · cases encloses with
      | block written =>
        obtain ⟨_,isFirst,_,_,start,_⟩ := spread inside
        cases isFirst
        exact absurd start.symm (written word (inside.subset (.head _)) isFor)
  have condition : (Node.expr (test.getD (.literal (.bool true) semicolon.span))).Held tokens (word :: used) := by
    cases test with
    | none =>
      have given : (Node.expr (.literal (.bool true) semicolon.span)).Laid tokens [semicolon] :=
        laid_token sequential rfl rfl nofun nofun
      exact given.held ((List.singleton_infix_iff _ _).mpr parted)
    | some e => exact tested e rfl
  have loop : ∀ round : Stmt, (Node.stmt round).Held tokens (word :: used) →
      (Node.stmt (.loop (test.getD (.literal (.bool true) semicolon.span)) round span)).Laid tokens (word :: used) := by
    intro round held
    refine laid_stmt sequential spread ?_ fun _ _ => nofun
    exact List.forall_mem_cons.mpr ⟨condition,List.forall_mem_singleton.mpr held⟩
  have stepping : ∀ e ∈ step, (Node.stmt (.block [body,.expression e e.span] span)).Held tokens (word :: used) := by
    intro e mem
    obtain ⟨part,within,laid⟩ := stepped e mem
    have effect : (Node.stmt (.expression e e.span)).Laid tokens part :=
      laid_stmt sequential laid.spread (List.forall_mem_singleton.mpr (laid.held List.infix_rfl)) fun _ _ => nofun
    exact (made _ _ repeated (effect.held within)).held List.infix_rfl
  cases start with
  | none =>
    cases step with
    | none => exact loop _ repeated
    | some e => exact loop _ (stepping e rfl)
  | some s =>
    cases step with
    | none => exact made _ _ (starts s rfl) ((loop _ repeated).held List.infix_rfl)
    | some e => exact made _ _ (starts s rfl) ((loop _ (stepping e rfl)).held List.infix_rfl)

end Node

end TurtleScript
