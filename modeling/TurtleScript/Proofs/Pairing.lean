import TurtleScript.Proofs.Evaluation
import TurtleScript.Proofs.Respan
import TurtleScript.Proofs.UsedNames

/-!
Two runs side by side. In a pairing the second run has other spans than the first, both use certain names only, and
their turtles are of a kind. What the library does keeps two scenes paired (`Pairing.steps_apply`). A relation between
computations that the ways of putting them together respect (`Pairing.Respects`) therefore holds between every
expression, statement and call and the same one with other spans (`Respects.eval`, `Respects.exec`,
`Respects.invokeWithin`).
-/

namespace TurtleScript

open TurtleScript.Turtle (Sprite Point Color)

/-- Two configurations with the same limits. -/
structure Config.SameLimits (config config' : Config) : Prop where
  rounds : config'.maxLoopIterations = config.maxLoopIterations
  calls : config'.maxCallDepth = config.maxCallDepth

/-- How two runs are set side by side. -/
structure Pairing where
  /-- The span in the second run in place of one in the first. -/
  span : Span → Span
  /-- The names that programs may use. -/
  name : String → Prop
  turtle : Sprite → Sprite → Prop

namespace Pairing

variable (p : Pairing) {α β : Type}

/-- What programs can tell of two paired turtles is the same, and stays so. -/
structure Fair : Prop where
  heading {x y : Sprite} : p.turtle x y → y.heading = x.heading
  polygon {x y : Sprite} : p.turtle x y → y.polygon = x.polygon
  /-- Where a turtle is can be told by two functions only. -/
  position {x y : Sprite} : p.name Builtin.getX.name ∨ p.name Builtin.getY.name → p.turtle x y →
    y.position = x.position
  stroke {f : Sprite → Sprite} {x y : Sprite} : Turtle.Stroke f → p.turtle x y → p.turtle (f x) (f y)

structure Scenes (s t : Scene) : Prop where
  store : t.store = s.store.respan p.span
  turtle : p.turtle s.sprite t.sprite
  printed : t.printed = s.printed

def Values (a b : Value) : Prop := b = a.respan p.span ∧ a.Only p.name

def Lists (as bs : List Value) : Prop := bs = as.map (Value.respan p.span) ∧ ∀ a ∈ as, a.Only p.name

inductive Flows : Flow → Flow → Prop where
  | next : Flows .next .next
  | returned {a b : Value} (paired : p.Values a b) : Flows (.returned a) (.returned b)

/-- Two steps end with the same fault, or with results of a kind, in paired scenes. -/
inductive Ends (kind : α → α → Prop) : Except Fault α × Scene → Except Fault α × Scene → Prop where
  | ok {a b : α} {s t : Scene} (results : kind a b) (scenes : p.Scenes s t) : Ends kind (.ok a,s) (.ok b,t)
  | error (fault : Fault) {s t : Scene} (scenes : p.Scenes s t) : Ends kind (.error fault,s) (.error fault,t)

/-- Two steps on paired scenes end alike. -/
structure Acts (kind : α → α → Prop) (m n : Action α) : Prop where
  left : m.Contained
  right : n.Contained
  ends {s t : Scene} : p.Scenes s t → p.Ends kind (m.onScene s) (n.onScene t)

/-- Two steps on paired scenes end alike where the first store has nothing of other names, and has none then. -/
structure Steps (kind : α → α → Prop) (m n : Action α) : Prop where
  left : m.Contained
  right : n.Contained
  ends {s t : Scene} : p.Scenes s t → s.store.Only p.name → p.Ends kind (m.onScene s) (n.onScene t)
  only {s : Scene} : s.store.Only p.name → (m.onScene s).2.store.Only p.name

variable {p} {kind : α → α → Prop} {other : β → β → Prop}

theorem acts_pure {a b : α} (results : kind a b) : p.Acts kind (pure a) (pure b) :=
  ⟨Action.contained_pure a,Action.contained_pure b,fun scenes => .ok results scenes⟩

theorem acts_fail (fault : Fault) : p.Acts kind (.fail fault) (.fail fault) :=
  ⟨Action.contained_fail fault,Action.contained_fail fault,fun scenes => .error fault scenes⟩

theorem Acts.bind {m n : Action α} {f g : α → Action β} (first : p.Acts kind m n)
    (second : ∀ a b, kind a b → p.Acts other (f a) (g b)) (contained : ∀ a, (f a).Contained ∧ (g a).Contained) :
    p.Acts other (m >>= f) (n >>= g) := by
  refine ⟨Action.contained_bind first.left fun a => (contained a).1,
    Action.contained_bind first.right fun a => (contained a).2,fun {s t} scenes => ?_⟩
  rw [Action.onScene_bind m fun a => (contained a).1,Action.onScene_bind n fun a => (contained a).2]
  have ends := first.ends scenes
  generalize m.onScene s = out at ends
  generalize n.onScene t = out' at ends
  cases ends with
  | ok results scenes => exact (second _ _ results).ends scenes
  | error fault scenes => exact .error fault scenes

theorem Acts.then {m n : Action α} {f g : α → Action β} (first : p.Acts (· = ·) m n)
    (second : ∀ a, p.Acts other (f a) (g a)) : p.Acts other (m >>= f) (n >>= g) := by
  refine first.bind (fun a b same => ?_) fun a => ⟨(second a).left,(second a).right⟩
  cases same
  exact second a

theorem acts_read {f g : Store → α} (results : ∀ store, kind (f store) (g (store.respan p.span))) :
    p.Acts kind (.read f) (.read g) := by
  refine ⟨Action.contained_read f,Action.contained_read g,fun {s t} scenes => ?_⟩
  rw [Action.onScene_read,Action.onScene_read,scenes.store]
  exact .ok (results s.store) scenes

theorem acts_observe {f : Sprite → α} (results : ∀ x y, p.turtle x y → f y = f x) :
    p.Acts (· = ·) (.observe f) (.observe f) :=
  ⟨Action.contained_observe f,Action.contained_observe f,
    fun scenes => .ok (results _ _ scenes.turtle).symm scenes⟩

/-- A question to the store that has the same answer or fault on both sides, but for spans. -/
theorem acts_inquire {f g : Store → Except Fault α} (respan : α → α) (kinds : ∀ a, kind a (respan a))
    (same : ∀ store, g (store.respan p.span) = (f store).map respan) : p.Acts kind (.inquire f) (.inquire g) := by
  refine ⟨Action.contained_inquire f,Action.contained_inquire g,fun {s t} scenes => ?_⟩
  rw [Action.onScene_inquire,Action.onScene_inquire,scenes.store,same]
  cases f s.store with
  | ok a => exact .ok (kinds a) scenes
  | error fault => exact .error fault scenes

theorem acts_inquire_same {f g : Store → Except Fault α} (same : ∀ store, g (store.respan p.span) = f store) :
    p.Acts (· = ·) (.inquire f) (.inquire g) := by
  refine acts_inquire id (fun _ => rfl) fun store => ?_
  rw [same,Except.map_id,id]

theorem acts_renew {f g : Store → α × Store} (respan : α → α) (kinds : ∀ a, kind a (respan a))
    (same : ∀ store, g (store.respan p.span) = (respan (f store).1,(f store).2.respan p.span)) :
    p.Acts kind (.renew f) (.renew g) := by
  refine ⟨Action.contained_renew f,Action.contained_renew g,fun {s t} scenes => ?_⟩
  rw [Action.onScene_renew,Action.onScene_renew,scenes.store,same]
  exact .ok (kinds _) ⟨rfl,scenes.turtle,scenes.printed⟩

theorem acts_alter {f g : Store → Store} (same : ∀ store, g (store.respan p.span) = (f store).respan p.span) :
    p.Acts (· = ·) (.alter f) (.alter g) :=
  acts_renew id (fun _ => rfl) fun store => Prod.ext rfl (same store)

theorem acts_print (line : String) : p.Acts (· = ·) (.print line) (.print line) := by
  refine ⟨Action.contained_print line,Action.contained_print line,fun {s t} scenes => ?_⟩
  rw [Action.onScene_print,Action.onScene_print,scenes.printed]
  exact .ok rfl ⟨scenes.store,scenes.turtle,rfl⟩

theorem Fair.acts_draw (fair : p.Fair) {f : Sprite → Sprite} (stroke : Turtle.Stroke f) :
    p.Acts (· = ·) (.draw f) (.draw f) := by
  refine ⟨Action.contained_draw f,Action.contained_draw f,fun {s t} scenes => ?_⟩
  exact .ok rfl ⟨scenes.store,fair.stroke stroke scenes.turtle,scenes.printed⟩

theorem acts_expectNumber (b : Builtin) (a : Value) :
    p.Acts (· = ·) (b.expectNumber a) (b.expectNumber (a.respan p.span)) := by
  cases a with
  | number x => exact acts_pure rfl
  | _ => exact acts_fail _

theorem acts_expectArray (b : Builtin) (a : Value) :
    p.Acts (· = ·) (b.expectArray a) (b.expectArray (a.respan p.span)) := by
  cases a with
  | array id => exact acts_pure rfl
  | _ => exact acts_fail _

theorem acts_expectComponent (b : Builtin) (a : Value) :
    p.Acts (· = ·) (b.expectComponent a) (b.expectComponent (a.respan p.span)) := by
  refine (acts_expectNumber b a).then fun x => ?_
  split
  · split
    · exact acts_pure rfl
    · exact acts_fail _
  · exact acts_fail _

/-- The second value is the first one with other spans. -/
def Respanned (p : Pairing) (a b : Value) : Prop := b = a.respan p.span

theorem acts_count {m n : Action Nat} (counts : p.Acts (· = ·) m n) :
    p.Acts p.Respanned (do return Builtin.ofCount (← m)) (do return Builtin.ofCount (← n)) :=
  counts.then fun _ => acts_pure rfl

theorem acts_sizeOf (a : Value) :
    p.Acts p.Respanned (Builtin.sizeOf a) (Builtin.sizeOf (a.respan p.span)) := by
  cases a with
  | array id =>
    have sizes : p.Acts (fun as bs => bs = as.map (Value.respan p.span)) (.read (·.items id)) (.read (·.items id)) :=
      acts_read fun store => store.items_respan p.span id
    refine sizes.bind (fun as bs same => acts_pure ?_) fun _ => ⟨Action.contained_pure _,Action.contained_pure _⟩
    rw [same,List.length_map]
    rfl
  | text t => exact acts_pure rfl
  | _ => exact acts_fail _

theorem acts_shown (a : Value) : p.Acts (· = ·) (.read (·.shown a)) (.read (·.shown (a.respan p.span))) :=
  acts_read fun store => (store.shown_respan p.span a).symm

theorem Fair.acts_drawn (fair : p.Fair) {f : Sprite → Sprite} (stroke : Turtle.Stroke f) :
    p.Acts p.Respanned (do Action.draw f; return .null) (do Action.draw f; return .null) :=
  (fair.acts_draw stroke).then fun _ => acts_pure rfl

theorem Fair.acts_apply (fair : p.Fair) (b : Builtin) (args : List Value) (allowed : p.name b.name)
    (fits : args.length = b.arity) : p.Acts p.Respanned (b.apply args) (b.apply (args.map (Value.respan p.span))) := by
  cases b
  case print =>
    obtain ⟨a,rfl⟩ := List.length_eq_one_iff.mp fits
    refine (acts_shown a).then fun line => (acts_print line).then fun _ => acts_pure rfl
  case size =>
    obtain ⟨a,rfl⟩ := List.length_eq_one_iff.mp fits
    exact acts_sizeOf a
  case pushBack =>
    obtain ⟨array,a,rfl⟩ := List.length_eq_two.mp fits
    refine (acts_expectArray _ array).then fun id => acts_count (acts_renew _ (fun _ => rfl) fun store => ?_)
    exact store.pushBack_respan p.span id a
  case pushFront =>
    obtain ⟨array,a,rfl⟩ := List.length_eq_two.mp fits
    refine (acts_expectArray _ array).then fun id => acts_count (acts_renew _ (fun _ => rfl) fun store => ?_)
    exact store.pushFront_respan p.span id a
  case popBack =>
    obtain ⟨array,rfl⟩ := List.length_eq_one_iff.mp fits
    refine (acts_expectArray _ array).then fun id => acts_renew _ (fun _ => rfl) fun store => ?_
    exact store.popBack_respan p.span id
  case popFront =>
    obtain ⟨array,rfl⟩ := List.length_eq_one_iff.mp fits
    refine (acts_expectArray _ array).then fun id => acts_renew _ (fun _ => rfl) fun store => ?_
    exact store.popFront_respan p.span id
  case get =>
    obtain ⟨array,index,rfl⟩ := List.length_eq_two.mp fits
    refine (acts_expectArray _ array).then fun id => acts_inquire _ (fun _ => rfl) fun store => ?_
    rw [Store.positionOf_respan]
    cases positionOf index with
    | error fault => rfl
    | ok position => exact store.item_respan p.span id position
  case set =>
    obtain ⟨array,index,a,rfl⟩ := List.length_eq_three.mp fits
    refine (acts_expectArray _ array).then fun id => ?_
    have revises : p.Acts (· = ·) (Action.revise fun store => do store.setItem id (← positionOf index) a)
        (Action.revise fun store => do store.setItem id (← positionOf (index.respan p.span)) (a.respan p.span)) := by
      rw [Action.revise_setItem,Action.revise_setItem]
      refine Acts.then (acts_inquire_same fun store => ?_) fun position => ?_
      · rw [Store.positionOf_respan]
        cases positionOf index with
        | error fault => rfl
        | ok position => exact store.positionIn_respan p.span id position
      · exact acts_alter fun store => store.putItem_respan p.span id position a
    exact revises.then fun _ => acts_pure rfl
  case toString =>
    obtain ⟨a,rfl⟩ := List.length_eq_one_iff.mp fits
    exact (acts_shown a).then fun _ => acts_pure rfl
  case toNumber =>
    obtain ⟨a,rfl⟩ := List.length_eq_one_iff.mp fits
    refine acts_pure ?_
    cases a with
    | text t =>
      show Builtin.numberOf (.text t) = (Builtin.numberOf (.text t)).respan p.span
      unfold Builtin.numberOf
      dsimp only
      split
      · split <;> rfl
      · rfl
    | _ => rfl
  case floor | round | abs | sin | cos =>
    obtain ⟨a,rfl⟩ := List.length_eq_one_iff.mp fits
    exact (acts_expectNumber _ a).then fun _ => acts_pure rfl
  case sqrt =>
    obtain ⟨a,rfl⟩ := List.length_eq_one_iff.mp fits
    refine (acts_expectNumber _ a).then fun x => ?_
    split
    · exact acts_fail _
    · exact acts_pure rfl
  case min | max =>
    obtain ⟨a,b,rfl⟩ := List.length_eq_two.mp fits
    exact (acts_expectNumber _ a).then fun _ => (acts_expectNumber _ b).then fun _ => acts_pure rfl
  -- The turtle.
  case getX =>
    cases List.length_eq_zero_iff.mp fits
    refine (acts_observe fun x y paired => ?_).then fun _ => acts_pure rfl
    rw [fair.position (.inl allowed) paired]
  case getY =>
    cases List.length_eq_zero_iff.mp fits
    refine (acts_observe fun x y paired => ?_).then fun _ => acts_pure rfl
    rw [fair.position (.inr allowed) paired]
  case getAngle =>
    cases List.length_eq_zero_iff.mp fits
    exact (acts_observe fun x y paired => fair.heading paired).then fun _ => acts_pure rfl
  case setPos =>
    obtain ⟨a,b,rfl⟩ := List.length_eq_two.mp fits
    refine (acts_expectNumber _ a).then fun x => (acts_expectNumber _ b).then fun y => ?_
    exact fair.acts_drawn (.moveTo ⟨x,y⟩)
  case forward | back =>
    obtain ⟨a,rfl⟩ := List.length_eq_one_iff.mp fits
    exact (acts_expectNumber _ a).then fun _ => fair.acts_drawn (.forward _)
  case setAngle =>
    obtain ⟨a,rfl⟩ := List.length_eq_one_iff.mp fits
    exact (acts_expectNumber _ a).then fun _ => fair.acts_drawn (.setHeading _)
  case turn =>
    obtain ⟨a,rfl⟩ := List.length_eq_one_iff.mp fits
    exact (acts_expectNumber _ a).then fun _ => fair.acts_drawn (.turn _)
  case hide | «show» =>
    cases List.length_eq_zero_iff.mp fits
    exact fair.acts_drawn (.visible _)
  case penUp | penDown =>
    cases List.length_eq_zero_iff.mp fits
    exact fair.acts_drawn (.penDown _)
  case setColor =>
    obtain ⟨red,green,blue,rfl⟩ := List.length_eq_three.mp fits
    refine (acts_expectComponent _ red).then fun _ => (acts_expectComponent _ green).then fun _ => ?_
    exact (acts_expectComponent _ blue).then fun _ => fair.acts_drawn (.color _)
  case setSpeed =>
    obtain ⟨a,rfl⟩ := List.length_eq_one_iff.mp fits
    refine (acts_expectNumber _ a).then fun speed => ?_
    split
    · exact acts_fail _
    · exact fair.acts_drawn (.setSpeed speed)
  -- Polygons.
  case beginPoly =>
    cases List.length_eq_zero_iff.mp fits
    exact fair.acts_drawn .beginPolygon
  case addVertex =>
    cases List.length_eq_zero_iff.mp fits
    refine (acts_observe fun x y paired => ?_).then fun recording => ?_
    · rw [fair.polygon paired]
    · split
      · exact fair.acts_drawn .addVertex
      · exact acts_fail _
  case endPoly =>
    cases List.length_eq_zero_iff.mp fits
    refine (acts_observe fun x y paired => ?_).then fun count => (fair.acts_draw .endPolygon).then fun _ => ?_
    · unfold Sprite.vertexCount
      rw [fair.polygon paired]
    · split
      · exact acts_fail _
      · exact acts_pure rfl

/-! ### Steps of programs -/

theorem Acts.steps {m n : Action α} (acts : p.Acts kind m n)
    (only : ∀ {s : Scene}, s.store.Only p.name → (m.onScene s).2.store.Only p.name) : p.Steps kind m n :=
  ⟨acts.left,acts.right,fun scenes _ => acts.ends scenes,only⟩

theorem Acts.steps_value {m n : Action Value} (acts : p.Acts p.Respanned m n)
    (only : ∀ {s : Scene}, s.store.Only p.name →
      (m.onScene s).2.store.Only p.name ∧ ∀ a, (m.onScene s).1 = .ok a → a.Only p.name) : p.Steps p.Values m n := by
  refine ⟨acts.left,acts.right,fun {s t} scenes before => ?_,fun before => (only before).1⟩
  have ends := acts.ends scenes
  have fits := (only before).2
  generalize m.onScene s = out at ends fits
  generalize n.onScene t = out' at ends
  cases ends with
  | ok same scenes => exact .ok ⟨same,fits _ rfl⟩ scenes
  | error fault scenes => exact .error fault scenes

theorem steps_inquire {f g : Store → Except Fault Value}
    (same : ∀ store, g (store.respan p.span) = (f store).map (Value.respan p.span))
    (only : ∀ {store : Store} {a}, store.Only p.name → f store = .ok a → a.Only p.name) :
    p.Steps p.Values (.inquire f) (.inquire g) := by
  refine Acts.steps_value (acts_inquire _ (fun _ => rfl) same) fun before => ?_
  rw [Action.onScene_inquire]
  exact ⟨before,fun a found => only before found⟩

theorem steps_get (scope : FrameId) {name : String} (allowed : p.name name) :
    p.Steps p.Values (.inquire (·.get scope name)) (.inquire (·.get scope name)) :=
  steps_inquire (fun store => store.get_respan p.span scope name) fun only found => only.get allowed found

theorem steps_assign (scope : FrameId) (name : String) {a b : Value} (paired : p.Values a b) :
    p.Steps (· = ·) (.assign scope name a) (.assign scope name b) := by
  obtain ⟨rfl,fits⟩ := paired
  have acts : p.Acts (· = ·) (Action.assign scope name a) (Action.assign scope name (a.respan p.span)) := by
    refine Acts.then (acts_inquire_same fun store => store.assignable_respan p.span scope name) fun holder => ?_
    exact acts_alter fun store => (store.put_respan p.span holder name a).symm
  refine acts.steps fun {s} only => ?_
  rw [Action.assign,Action.onScene_bind _ fun _ => Action.contained_alter _,Action.onScene_inquire]
  cases s.store.assignable scope name with
  | ok holder => exact only.put holder name fits
  | error fault => exact only

theorem steps_define (scope : FrameId) {name : String} (allowed : p.name name) {a b : Value} (paired : p.Values a b) :
    p.Steps (· = ·) (.define scope name a) (.define scope name b) := by
  obtain ⟨rfl,fits⟩ := paired
  have acts : p.Acts (· = ·) (Action.define scope name a) (Action.define scope name (a.respan p.span)) := by
    refine Acts.then (acts_inquire_same fun store => store.definable_respan p.span scope name) fun _ => ?_
    exact acts_alter fun store => (store.bind_respan p.span scope { name := name, value := a }).symm
  refine acts.steps fun {s} only => ?_
  rw [Action.define,Action.onScene_bind _ fun _ => Action.contained_alter _,Action.onScene_inquire]
  cases s.store.definable scope name with
  | ok => exact only.bind scope allowed fits
  | error fault => exact only

theorem steps_newArray {as bs : List Value} (paired : p.Lists as bs) :
    p.Steps p.Values (.renew (·.newArray as)) (.renew (·.newArray bs)) := by
  obtain ⟨rfl,each⟩ := paired
  refine Acts.steps_value (acts_renew _ (fun _ => rfl) fun store => store.newArray_respan p.span as) fun only => ?_
  refine ⟨only.newArray each,fun a same => ?_⟩
  cases same
  exact trivial

theorem steps_newClosure (scope : FrameId) (name : Name) {params : List Name} {body : List Stmt}
    (named : ∀ name ∈ params.map Name.text, p.name name) (inside : ∀ name ∈ Stmt.namesAll body, p.name name) :
    p.Steps p.Values (.renew (·.newClosure scope name params body))
      (.renew (·.newClosure scope (name.respan p.span) (params.map (Name.respan p.span))
        (Stmt.respanAll p.span body))) := by
  refine Acts.steps_value (acts_renew _ (fun _ => rfl) fun store => ?_) fun only =>
    ⟨⟨only.bindings,only.items⟩,?_⟩
  · exact store.newClosure_respan p.span scope name params body
  · intro a same
    cases same
    exact ⟨named,inside⟩

theorem steps_child (parent : FrameId) : p.Steps (· = ·) (.renew (·.child parent)) (.renew (·.child parent)) :=
  (acts_renew id (fun _ => rfl) fun store => store.child_respan p.span parent).steps fun only => only.child parent

theorem Fair.steps_apply (fair : p.Fair) {b : Builtin} {as bs : List Value} (allowed : p.name b.name)
    (paired : p.Lists as bs) (fits : as.length = b.arity) : p.Steps p.Values (b.apply as) (b.apply bs) := by
  obtain ⟨rfl,each⟩ := paired
  exact (fair.acts_apply b as allowed fits).steps_value fun only => b.only_apply only each

/-! ### Programs -/

/-- A relation between computations, with results of a kind, that the ways of putting them together respect. Where
in the text a statement is, is left open. -/
structure Respects (p : Pairing) (R : {α : Type} → (α → α → Prop) → Script α → Script α → Prop) : Prop where
  pure : ∀ {α : Type} {kind : α → α → Prop} {a b : α}, kind a b → R kind (pure a) (pure b)
  fail : ∀ {α : Type} {kind : α → α → Prop} (fault : Fault), R kind (Script.fail fault) (Script.fail fault)
  bind : ∀ {α β : Type} {kind : α → α → Prop} {other : β → β → Prop} {m n : Script α} {f g : α → Script β},
    R kind m n → (∀ a b, kind a b → R other (f a) (g b)) → R other (m >>= f) (n >>= g)
  scope : R (· = ·) (Script.look World.scope) (Script.look World.scope)
  callDepth : R (· = ·) (Script.look World.callDepth) (Script.look World.callDepth)
  act : ∀ {α : Type} {kind : α → α → Prop} {m n : Action α}, p.Steps kind m n →
    R kind (Script.ofAction m) (Script.ofAction n)
  locate : ∀ {α : Type} {kind : α → α → Prop} (span : Span) {m n : Script α}, R kind m n →
    R kind (Script.locate span m) (Script.locate (p.span span) n)
  checkpoint : R (· = ·) Script.checkpoint Script.checkpoint
  atStatement : ∀ (index index' : Nat) (span span' : Span), R (· = ·)
    (Script.change fun w => { w with monitor := w.monitor.atStatement index span })
    (Script.change fun w => { w with monitor := w.monitor.atStatement index' span' })
  inCall : ∀ {α : Type} {kind : α → α → Prop} {m n : Script α}, R kind m n →
    R kind (Script.inCall m) (Script.inCall n)
  inBlock : ∀ {α : Type} {kind : α → α → Prop} (scope : FrameId) (length length' : Nat) {m n : Script α},
    R kind m n → R kind (Script.inBlock scope length m) (Script.inBlock scope length' n)

def Calls (p : Pairing) (R : {α : Type} → (α → α → Prop) → Script α → Script α → Prop) (invoke invoke' : Invoke) :
    Prop :=
  ∀ (c : Closure) (as bs : List Value), (Value.function (.declared c)).Only p.name → p.Lists as bs →
    R p.Values (invoke c as) (invoke' (c.respan p.span) bs)

namespace Respects

variable {R : {α : Type} → (α → α → Prop) → Script α → Script α → Prop} {invoke invoke' : Invoke}

theorem same (kept : p.Respects R) {m n : Script α} {f g : α → Script β} (first : R (· = ·) m n)
    (second : ∀ a, R other (f a) (g a)) : R other (m >>= f) (n >>= g) := by
  refine kept.bind first fun a b same => ?_
  cases same
  exact second a

theorem ite (_ : p.Respects R) {c : Bool} {m m' n n' : Script α} (yes : R kind m n) (no : R kind m' n') :
    R kind (if c then m else m') (if c then n else n') := by
  cases c with
  | true => exact yes
  | false => exact no

theorem inScope (kept : p.Respects R) {f g : FrameId → Action α} (steps : ∀ scope, p.Steps kind (f scope) (g scope)) :
    R kind (Script.inScope f) (Script.inScope g) :=
  kept.same kept.scope fun scope => kept.act (steps scope)

theorem newScope (kept : p.Respects R) (parent : FrameId) :
    R (· = ·) (Script.newScope parent) (Script.newScope parent) :=
  kept.act (steps_child parent)

theorem call (kept : p.Respects R) (fair : p.Fair) (calls : p.Calls R invoke invoke') {function : Function}
    {as bs : List Value} (only : (Value.function function).Only p.name) (paired : p.Lists as bs) :
    R p.Values (function.call invoke as) ((function.respan p.span).call invoke' bs) := by
  have lengths : bs.length = as.length := by rw [paired.1,List.length_map]
  unfold Function.call
  rw [lengths,Function.arity_respan,Function.name_respan]
  by_cases fits : as.length = function.arity
  · rw [if_neg (not_not_intro fits),if_neg (not_not_intro fits)]
    cases function with
    | builtin b => exact kept.act (fair.steps_apply only paired fits)
    | declared c => exact calls c as bs only paired
  · rw [if_pos fits,if_pos fits]
    exact kept.fail _

theorem test (kept : p.Respects R) {m n : Script Value} (paired : R p.Values m n) :
    R (· = ·) (do return (← m).truthy) (do return (← n).truthy) := by
  refine kept.bind paired fun a b values => kept.pure ?_
  rw [values.1,Value.truthy_respan]

theorem repeatWhile (kept : p.Respects R) (limit : Nat) {test test' : Script Bool} {body body' : Script Flow}
    (tests : R (· = ·) test test') (bodies : R p.Flows body body') :
    ∀ rounds, R p.Flows (Script.repeatWhile limit test body rounds) (Script.repeatWhile limit test' body' rounds)
  | 0 => kept.same tests fun _ => kept.ite (kept.fail _) (kept.pure .next)
  | rounds + 1 => by
    refine kept.same tests fun _ => kept.ite ?_ (kept.pure .next)
    refine kept.bind bodies fun flow flow' flows => ?_
    cases flows with
    | returned paired => exact kept.pure (.returned paired)
    | next => exact kept.same kept.checkpoint fun _ => kept.repeatWhile limit tests bodies rounds

mutual

/-- Every expression of allowed names is related to the same one with other spans, if calls are. -/
theorem eval (kept : p.Respects R) (fair : p.Fair) (calls : p.Calls R invoke invoke') :
    (e : Expr) → (∀ name ∈ e.names, p.name name) → R p.Values (e.eval invoke) ((e.respan p.span).eval invoke')
  | .literal value span,_ => by
    rw [Expr.respan,Expr.eval,Expr.eval]
    exact kept.locate span (kept.pure ⟨(Value.respan_ofLiteral _ value).symm,by cases value <;> exact trivial⟩)
  | .grouping inner span,allowed => by
    rw [Expr.respan,Expr.eval,Expr.eval]
    exact kept.locate span (kept.eval fair calls inner allowed)
  | .var name span,allowed => by
    rw [Expr.respan,Expr.eval,Expr.eval]
    exact kept.locate span (kept.inScope fun scope => steps_get scope (allowed name (.head _)))
  | .assign name value span,allowed => by
    rw [Expr.respan,Expr.eval,Expr.eval]
    refine kept.locate span (kept.bind (kept.eval fair calls value fun n mem => allowed n (.tail _ mem)) ?_)
    exact fun a b paired => kept.same (kept.inScope fun scope => steps_assign scope name paired) fun _ =>
      kept.pure paired
  | .unary op operand span,allowed => by
    rw [Expr.respan,Expr.eval,Expr.eval]
    refine kept.locate span (kept.bind (kept.eval fair calls operand allowed) fun a b paired => ?_)
    refine kept.act (steps_inquire (fun _ => ?_) fun _ found => ?_)
    · rw [paired.1,UnaryOp.apply_respan]
    · exact (op.plain_apply found).only
  | .binary op left right span,allowed => by
    rw [Expr.respan,Expr.eval,Expr.eval]
    refine kept.locate span (kept.bind (kept.eval fair calls left fun n mem => ?_) fun a b paired => ?_)
    · exact allowed n (List.mem_append_left _ mem)
    refine kept.bind (kept.eval fair calls right fun n mem => ?_) fun a' b' paired' => ?_
    · exact allowed n (List.mem_append_right _ mem)
    refine kept.act (steps_inquire (fun _ => ?_) fun _ found => ?_)
    · rw [paired.1,paired'.1,BinaryOp.apply_respan]
    · exact (op.plain_apply found).only
  | .logical op left right span,allowed => by
    rw [Expr.respan,Expr.eval,Expr.eval]
    refine kept.locate span (kept.bind (kept.eval fair calls left fun n mem => ?_) fun a b paired => ?_)
    · exact allowed n (List.mem_append_left _ mem)
    rw [paired.1,LogicalOp.settledBy_respan,← paired.1]
    refine kept.ite (kept.pure paired) (kept.eval fair calls right fun n mem => ?_)
    exact allowed n (List.mem_append_right _ mem)
  | .call callee args span,allowed => by
    rw [Expr.respan,Expr.eval,Expr.eval]
    refine kept.locate span (kept.bind (kept.eval fair calls callee fun n mem => ?_) fun a b paired => ?_)
    · exact allowed n (List.mem_append_left _ mem)
    obtain ⟨rfl,only⟩ := paired
    cases a with
    | function function =>
      refine kept.bind (kept.evalAll fair calls args fun n mem => ?_) fun as bs lists => ?_
      · exact allowed n (List.mem_append_right _ mem)
      · exact kept.call fair calls only lists
    | _ =>
      simp only [Value.respan,Expr.shown_respan]
      exact kept.fail _
  | .array items span,allowed => by
    rw [Expr.respan,Expr.eval,Expr.eval]
    refine kept.locate span (kept.bind (kept.evalAll fair calls items allowed) fun as bs lists => ?_)
    exact kept.act (steps_newArray lists)
  | .index target position span,allowed => by
    rw [Expr.respan,Expr.eval,Expr.eval]
    refine kept.locate span (kept.bind (kept.eval fair calls target fun n mem => ?_) fun a b paired => ?_)
    · exact allowed n (List.mem_append_left _ mem)
    refine kept.bind (kept.eval fair calls position fun n mem => ?_) fun a' b' paired' => ?_
    · exact allowed n (List.mem_append_right _ mem)
    refine kept.act (steps_inquire (fun store => ?_) fun only found => only.itemOf found)
    rw [paired.1,paired'.1,Store.itemOf_respan]

theorem evalAll (kept : p.Respects R) (fair : p.Fair) (calls : p.Calls R invoke invoke') :
    (es : List Expr) → (∀ name ∈ Expr.namesAll es, p.name name) →
      R p.Lists (Expr.evalAll invoke es) (Expr.evalAll invoke' (Expr.respanAll p.span es))
  | [],_ => by
    rw [Expr.respanAll,Expr.evalAll,Expr.evalAll]
    exact kept.pure ⟨rfl,fun _ mem => nomatch mem⟩
  | e :: es,allowed => by
    rw [Expr.respanAll,Expr.evalAll,Expr.evalAll]
    refine kept.bind (kept.eval fair calls e fun n mem => ?_) fun a b paired => ?_
    · exact allowed n (List.mem_append_left _ mem)
    refine kept.bind (kept.evalAll fair calls es fun n mem => ?_) fun as bs lists => kept.pure ?_
    · exact allowed n (List.mem_append_right _ mem)
    obtain ⟨rfl,only⟩ := paired
    obtain ⟨rfl,each⟩ := lists
    exact ⟨rfl,fun a' mem => (List.mem_cons.mp mem).elim (fun same => same ▸ only) (each a')⟩

end

theorem evalOption (kept : p.Respects R) (fair : p.Fair) (calls : p.Calls R invoke invoke') (e : Option Expr)
    (allowed : ∀ name ∈ Expr.namesOption e, p.name name) :
    R p.Values (Expr.evalOption invoke e) (Expr.evalOption invoke' (e.map (Expr.respan p.span))) := by
  cases e with
  | some e => exact kept.eval fair calls e allowed
  | none => exact kept.pure ⟨rfl,trivial⟩

theorem define (kept : p.Respects R) (name : Name) (allowed : p.name name.text) {a b : Value} (paired : p.Values a b) :
    R p.Flows (do Script.locate name.span (Script.inScope (Action.define · name.text a)); return .next)
      (do Script.locate (p.span name.span) (Script.inScope (Action.define · name.text b)); return .next) := by
  refine kept.same (kept.locate name.span (kept.inScope fun scope => ?_)) fun _ => kept.pure .next
  exact steps_define scope allowed paired

section
variable {config config' : Config}

mutual

/-- Every statement of allowed names is related to the same one with other spans, if calls are. -/
theorem exec (kept : p.Respects R) (fair : p.Fair) (limits : config.SameLimits config')
    (calls : p.Calls R invoke invoke') : (s : Stmt) → (∀ name ∈ s.names, p.name name) →
      R p.Flows (s.exec config invoke) ((s.respan p.span).exec config' invoke')
  | .expression value span,allowed => by
    rw [Stmt.respan,Stmt.exec,Stmt.exec]
    refine kept.same kept.checkpoint fun _ => kept.locate span ?_
    exact kept.bind (kept.eval fair calls value allowed) fun _ _ _ => kept.pure .next
  | .var name initial span,allowed => by
    rw [Stmt.respan,Stmt.exec,Stmt.exec]
    refine kept.same kept.checkpoint fun _ => kept.locate span ?_
    refine kept.bind (kept.evalOption fair calls initial fun n mem => allowed n (.tail _ mem)) fun a b paired => ?_
    exact kept.define name (allowed _ (.head _)) paired
  | .function name params body span,allowed => by
    rw [Stmt.respan,Stmt.exec,Stmt.exec]
    refine kept.same kept.checkpoint fun _ => kept.locate span (kept.same kept.scope fun scope => ?_)
    refine kept.bind (kept.act (steps_newClosure scope name ?_ ?_)) fun a b paired => ?_
    · exact fun n mem => allowed n (.tail _ (List.mem_append_left _ mem))
    · exact fun n mem => allowed n (.tail _ (List.mem_append_right _ mem))
    · exact kept.define name (allowed _ (.head _)) paired
  | .block body span,allowed => by
    rw [Stmt.respan,Stmt.exec,Stmt.exec]
    refine kept.same kept.checkpoint fun _ => kept.locate span (kept.same kept.scope fun outer => ?_)
    refine kept.same (kept.newScope outer) fun scope => kept.inBlock scope _ _ ?_
    exact kept.execAll fair limits calls 0 0 body allowed
  | .branch test yes no span,allowed => by
    rw [Stmt.respan,Stmt.exec,Stmt.exec]
    refine kept.same kept.checkpoint fun _ => kept.locate span ?_
    refine kept.bind (kept.eval fair calls test fun n mem => ?_) fun a b paired => ?_
    · exact allowed n (List.mem_append_left _ mem)
    rw [paired.1,Value.truthy_respan]
    refine kept.ite (kept.exec fair limits calls yes fun n mem => ?_)
      (kept.execOption fair limits calls no fun n mem => ?_)
    · exact allowed n (List.mem_append_right _ (List.mem_append_left _ mem))
    · exact allowed n (List.mem_append_right _ (List.mem_append_right _ mem))
  | .loop test body span,allowed => by
    rw [Stmt.respan,Stmt.exec,Stmt.exec,limits.rounds]
    refine kept.same kept.checkpoint fun _ => kept.locate span ?_
    refine kept.repeatWhile _ (kept.test (kept.eval fair calls test fun n mem => ?_))
      (kept.exec fair limits calls body fun n mem => ?_) _
    · exact allowed n (List.mem_append_left _ mem)
    · exact allowed n (List.mem_append_right _ mem)
  | .giveBack value span,allowed => by
    rw [Stmt.respan,Stmt.exec,Stmt.exec]
    refine kept.same kept.checkpoint fun _ => kept.locate span ?_
    exact kept.bind (kept.evalOption fair calls value allowed) fun a b paired => kept.pure (.returned paired)

theorem execOption (kept : p.Respects R) (fair : p.Fair) (limits : config.SameLimits config')
    (calls : p.Calls R invoke invoke') : (s : Option Stmt) → (∀ name ∈ Stmt.namesOption s, p.name name) →
      R p.Flows (Stmt.execOption config invoke s) (Stmt.execOption config' invoke' (Stmt.respanOption p.span s))
  | some s,allowed => by
    rw [Stmt.respanOption,Stmt.execOption,Stmt.execOption]
    exact kept.exec fair limits calls s allowed
  | none,_ => by
    rw [Stmt.respanOption,Stmt.execOption,Stmt.execOption]
    exact kept.pure .next

theorem execAll (kept : p.Respects R) (fair : p.Fair) (limits : config.SameLimits config')
    (calls : p.Calls R invoke invoke') : (index index' : Nat) → (ss : List Stmt) →
      (∀ name ∈ Stmt.namesAll ss, p.name name) →
      R p.Flows (Stmt.execAll config invoke index ss)
        (Stmt.execAll config' invoke' index' (Stmt.respanAll p.span ss))
  | _,_,[],_ => by
    rw [Stmt.respanAll,Stmt.execAll,Stmt.execAll]
    exact kept.pure .next
  | index,index',s :: ss,allowed => by
    rw [Stmt.respanAll,Stmt.execAll,Stmt.execAll]
    refine kept.same (kept.atStatement index index' _ _) fun _ => ?_
    refine kept.bind (kept.exec fair limits calls s fun n mem => ?_) fun flow flow' flows => ?_
    · exact allowed n (List.mem_append_left _ mem)
    cases flows with
    | returned paired => exact kept.pure (.returned paired)
    | next => exact kept.execAll fair limits calls _ _ ss fun n mem => allowed n (List.mem_append_right _ mem)

end

theorem bindAll (kept : p.Respects R) (scope : FrameId) : ∀ (params : List Name) (args : List Value),
    (∀ name ∈ params.map Name.text, p.name name) → (∀ a ∈ args, a.Only p.name) →
    R (· = ·) (Script.bindAll scope (params.zip args))
      (Script.bindAll scope ((params.map (Name.respan p.span)).zip (args.map (Value.respan p.span))))
  | [],_,_,_ => kept.pure rfl
  | _ :: _,[],_,_ => kept.pure rfl
  | name :: params,a :: args,named,each => by
    refine kept.same (kept.locate name.span (kept.act ?_)) fun _ => kept.bindAll scope params args ?_ ?_
    · exact steps_define scope (named _ (.head _)) ⟨rfl,each a (.head _)⟩
    · exact fun n mem => named n (.tail _ mem)
    · exact fun a mem => each a (.tail _ mem)

theorem invokeWithin (kept : p.Respects R) (fair : p.Fair) (limits : config.SameLimits config') :
    ∀ budget, p.Calls R (invokeWithin config budget) (invokeWithin config' budget)
  | 0 => by
    intro c as bs only lists
    rw [TurtleScript.invokeWithin,TurtleScript.invokeWithin,limits.calls]
    exact kept.fail _
  | budget + 1 => by
    intro c as bs only lists
    obtain ⟨rfl,each⟩ := lists
    rw [TurtleScript.invokeWithin,TurtleScript.invokeWithin,limits.calls]
    refine kept.same kept.callDepth fun depth => ?_
    by_cases full : config.maxCallDepth ≤ depth
    · rw [if_pos full,if_pos full]
      exact kept.fail _
    rw [if_neg full,if_neg full]
    refine kept.same (kept.newScope c.scope) fun scope => ?_
    refine kept.same (kept.bindAll scope c.params as only.1 each) fun _ => ?_
    have body := kept.execAll fair limits (kept.invokeWithin fair limits budget) 0 0 c.body only.2
    refine kept.bind (kept.inCall (kept.inBlock scope _ _ body)) fun flow flow' flows => ?_
    cases flows with
    | returned paired => exact kept.pure paired
    | next => exact kept.pure ⟨rfl,trivial⟩

/-- The statements of a program are related to the same ones with other spans. -/
theorem statements (kept : p.Respects R) (fair : p.Fair) (limits : config.SameLimits config') (index index' : Nat)
    {ss : List Stmt} (allowed : ∀ name ∈ Stmt.namesAll ss, p.name name) :
    R p.Flows (Stmt.execAll config (TurtleScript.invoke config) index ss)
      (Stmt.execAll config' (TurtleScript.invoke config') index' (Stmt.respanAll p.span ss)) := by
  have calls := kept.invokeWithin fair limits config.maxCallDepth
  unfold TurtleScript.invoke
  rw [limits.calls]
  exact kept.execAll fair limits calls index index' ss allowed

end

end Respects

end Pairing

end TurtleScript
