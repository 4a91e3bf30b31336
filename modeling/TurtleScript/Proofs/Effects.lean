import TurtleScript.Proofs.LibrarySteps
import TurtleScript.Proofs.Scene

/-!
What a call of a library function can do. Every such call fails, gives a value, prints a line, changes
the items of one array or draws (`Builtin.effect`); what it gives or stores comes from its arguments
or from an array, or is no function and no array at all.
-/

namespace TurtleScript

/-- A value that holds no other: neither a function nor an array. -/
def Value.Plain : Value → Prop
  | .array _ | .function _ => False
  | _ => True

/-- What a library function does to the turtle: it moves it, sets a speed that is neither negative nor
infinite, or changes something that does not matter to how it glides. -/
inductive Draws : (Turtle.Sprite → Turtle.Sprite) → Prop where
  | move (target : Turtle.Point) : Draws (·.moveTo target)
  | forward (distance : Float) : Draws (·.forward distance)
  | speed {speed : Float} (notBelow : ¬ speed < 0.0) (finite : speed.isFinite) : Draws (·.setSpeed speed)
  | look {f : Turtle.Sprite → Turtle.Sprite} (target : ∀ x, (f x).target = x.target)
      (speed : ∀ x, (f x).speed = x.speed) (kept : ∀ x, (f x).defaultSpeed = x.defaultSpeed) : Draws f

/-- What a call with some arguments in a scene can come to. -/
inductive Effect (args : List Value) (s : Scene) : Except Fault Value × Scene → Prop where
  | fails (fault : Fault) : Effect args s (.error fault,s)
  | gives {a : Value} (plain : a.Plain) : Effect args s (.ok a,s)
  | finds {id : ArrayId} {a : Value} (mem : a ∈ s.store.items id) : Effect args s (.ok a,s)
  | prints (line : String) : Effect args s (.ok .null,{ s with printed := s.printed.push line })
  | stores {id : ArrayId} {items : List Value} {a : Value}
      (source : ∀ b ∈ items, b ∈ args ∨ b ∈ s.store.items id)
      (result : a.Plain ∨ a ∈ args ∨ a ∈ s.store.items id) :
      Effect args s (.ok a,{ s with store := s.store.setItems id items })
  | draws {f : Turtle.Sprite → Turtle.Sprite} (drawn : Draws f) {result : Except Fault Value}
      (null : ∀ a, result = .ok a → a = .null) : Effect args s (result,{ s with sprite := f s.sprite })

theorem Store.items_setItems {store : Store} {id other : ArrayId} {items : List Value} {a : Value}
    (mem : a ∈ (store.setItems id items).items other) : a ∈ items ∨ a ∈ store.items other := by
  unfold Store.items setItems at mem
  simp only [Array.getD_eq_getD_getElem?,Array.getElem?_modify] at mem
  by_cases same : id = other
  · subst same
    by_cases there : id < store.arrays.size
    · exact .inl (by simpa [there] using mem)
    · simp [there] at mem
  · simp only [same,if_false] at mem
    exact .inr (by simpa [Store.items,Array.getD_eq_getD_getElem?] using mem)

namespace Effect

variable {args : List Value} {s : Scene} {out : Except Fault Value × Scene}

theorem frames_eq (effect : Effect args s out) : out.2.store.frames = s.store.frames := by
  cases effect <;> rfl

/-- What is true of every value that holds no other, of the arguments and of all items stays true of all items,
and is true of the value given. -/
theorem carries {P : Value → Prop} (effect : Effect args s out) (plain : ∀ a : Value, a.Plain → P a)
    (given : ∀ a ∈ args, P a) (items : ∀ id, ∀ a ∈ s.store.items id, P a) :
    (∀ id, ∀ a ∈ out.2.store.items id, P a) ∧ ∀ a, out.1 = .ok a → P a := by
  cases effect with
  | fails fault => exact ⟨items,nofun⟩
  | gives harmless =>
    refine ⟨items,fun a same => ?_⟩
    cases same
    exact plain _ harmless
  | finds mem =>
    refine ⟨items,fun a same => ?_⟩
    cases same
    exact items _ _ mem
  | prints line =>
    refine ⟨items,fun a same => ?_⟩
    cases same
    exact plain _ trivial
  | @stores id list a source result =>
    have known : ∀ b, b ∈ args ∨ b ∈ s.store.items id → P b := by
      rintro b (passed | held)
      · exact given b passed
      · exact items id b held
    refine ⟨fun other b mem => ?_,fun b same => ?_⟩
    · rcases Store.items_setItems mem with new | old
      · exact known b (source b new)
      · exact items other b old
    · cases same
      rcases result with harmless | from'
      · exact plain _ harmless
      · exact known _ from'
  | draws drawn null =>
    refine ⟨items,fun a same => ?_⟩
    rw [null a same]
    exact plain _ trivial

end Effect

namespace Builtin

open TurtleScript.Action

variable {α β : Type} {args : List Value}

def Checks (action : Action α) : Prop := ∀ w, (action.run.run w).2 = w

theorem effect_bind {action : Action α} (checks : Checks action) {next : α → Action Value} {s : Scene}
    (rest : ∀ a, Effect args s ((next a).onScene s)) : Effect args s ((action >>= next).onScene s) := by
  have same := checks s.world
  unfold onScene at rest ⊢
  rw [run_bind]
  rcases out : action.run.run s.world with ⟨fault | a,v⟩
  · rw [out] at same
    cases same
    exact .fails fault
  · rw [out] at same
    cases same
    exact rest a

theorem checks_bind {action : Action α} {next : α → Action β} (first : Checks action)
    (second : ∀ a, Checks (next a)) : Checks (action >>= next) := by
  intro w
  have same := first w
  rw [run_bind]
  rcases out : action.run.run w with ⟨fault | a,v⟩
  · rw [out] at same
    exact same
  · rw [out] at same
    cases same
    exact second a v

theorem checks_sequential : Sequential Checks := ⟨fun _ _ => rfl,fun _ _ => rfl,checks_bind⟩

theorem checks_expectNumber (function : Builtin) (value : Value) : Checks (expectNumber function value) :=
  checks_sequential.expectNumber function value

theorem checks_expectArray (function : Builtin) (value : Value) : Checks (expectArray function value) :=
  checks_sequential.expectArray function value

theorem checks_expectComponent (function : Builtin) (value : Value) : Checks (expectComponent function value) :=
  checks_sequential.expectComponent function value

theorem checks_inquire (f : Store → Except Fault α) : Checks (inquire f) := by
  refine checks_bind (fun _ => rfl) fun w => ?_
  intro v
  split <;> rfl

theorem checks_read (f : Store → α) : Checks (read f) := fun _ => rfl

theorem checks_observe (f : Turtle.Sprite → α) : Checks (observe f) := fun _ => rfl

theorem effect_inquire {f : Store → Except Fault Value} {s : Scene}
    (found : ∀ a, f s.store = .ok a → a.Plain ∨ ∃ id, a ∈ s.store.items id) :
    Effect args s ((inquire f).onScene s) := by
  rw [onScene_inquire]
  cases answer : f s.store with
  | error fault => exact .fails fault
  | ok a =>
    rcases found a answer with plain | ⟨id,mem⟩
    · exact .gives plain
    · exact .finds mem

theorem effect_sizeOf (value : Value) (s : Scene) : Effect args s ((sizeOf value).onScene s) := by
  cases value with
  | array id => exact effect_bind (checks_read _) fun _ => .gives trivial
  | text t => exact .gives trivial
  | _ => exact .fails _

theorem plain_numberOf (value : Value) : (numberOf value).Plain := by
  unfold numberOf
  split
  · exact trivial
  · split
    · split <;> exact trivial
    · exact trivial
  · exact trivial

theorem mem_of_item {store : Store} {id : ArrayId} {index : Int} {a : Value}
    (found : store.item id index = .ok a) : a ∈ store.items id := by
  unfold Store.item at found
  simp only at found
  split at found
  case h_1 value found' =>
    cases found
    obtain ⟨position,_,there⟩ := Option.bind_eq_some_iff.mp found'
    exact List.mem_of_getElem? there
  case h_2 => cases found

theorem found_of_itemOf {store : Store} {target position a : Value} (found : store.itemOf target position = .ok a) :
    a.Plain ∨ ∃ id, a ∈ store.items id := by
  unfold Store.itemOf at found
  cases placed : positionOf position with
  | error fault =>
    rw [placed] at found
    cases target <;> cases found
  | ok index =>
    rw [placed] at found
    cases target with
    | array id => exact .inr ⟨id,mem_of_item found⟩
    | text t =>
      have character : Store.character t index = .ok a := found
      unfold Store.character at character
      simp only at character
      split at character
      · cases character
        exact .inl trivial
      · cases character
    | _ => cases found

/-- Taking an item off leaves items of the array, and gives one of them or null. -/
theorem effect_pop {id : ArrayId} {s : Scene} {items : List Value} {a : Value}
    (rest : ∀ b ∈ items, b ∈ s.store.items id) (taken : a = .null ∨ a ∈ s.store.items id) :
    Effect args s (.ok a,{ s with store := s.store.setItems id items }) := by
  refine .stores (fun b mem => .inr (rest b mem)) ?_
  rcases taken with rfl | mem
  · exact .inl trivial
  · exact .inr (.inr mem)

theorem effect_draw {f : Turtle.Sprite → Turtle.Sprite} (drawn : Draws f) {s : Scene} :
    Effect args s ((do draw f; return .null : Action Value).onScene s) :=
  .draws drawn fun _ same => (Except.ok.inj same).symm

theorem effect_look {f : Turtle.Sprite → Turtle.Sprite} {s : Scene} (target : ∀ x, (f x).target = x.target)
    (speed : ∀ x, (f x).speed = x.speed) (kept : ∀ x, (f x).defaultSpeed = x.defaultSpeed) :
    Effect args s ((do draw f; return .null : Action Value).onScene s) :=
  effect_draw (.look target speed kept)

theorem effect (function : Builtin) (args : List Value) (s : Scene) :
    Effect args s ((apply function args).onScene s) := by
  unfold apply
  split
  -- Printing and arrays.
  · exact effect_bind (checks_read _) fun line => .prints line
  · exact effect_sizeOf _ s
  · refine effect_bind (checks_expectArray _ _) fun id => .stores (fun b mem => ?_) (.inl trivial)
    rcases List.mem_append.mp mem with old | new
    · exact .inr old
    · exact .inl (.tail _ new)
  · refine effect_bind (checks_expectArray _ _) fun id => .stores (fun b mem => ?_) (.inl trivial)
    rcases List.mem_cons.mp mem with rfl | old
    · exact .inl (.tail _ (.head _))
    · exact .inr old
  · refine effect_bind (checks_expectArray _ _) fun id => effect_pop (fun b mem => List.dropLast_subset _ mem) ?_
    exact List.mem_cons.mp List.getLastD_mem_cons
  · refine effect_bind (checks_expectArray _ _) fun id => effect_pop (fun b mem => List.mem_of_mem_tail mem) ?_
    cases s.store.items id with
    | nil => exact .inl rfl
    | cons first rest => exact .inr (.head _)
  · refine effect_bind (checks_expectArray _ _) fun id => effect_inquire fun a found => ?_
    cases placed : positionOf _ with
    | error fault =>
      rw [placed] at found
      cases found
    | ok position =>
      rw [placed] at found
      exact .inr ⟨id,mem_of_item found⟩
  · refine effect_bind (checks_expectArray _ _) fun id => ?_
    rw [revise_setItem,bind_assoc]
    refine effect_bind (checks_inquire _) fun position => ?_
    refine .stores (fun b mem => ?_) (.inr (.inl (.tail _ (.tail _ (.head _)))))
    rcases List.mem_or_eq_of_mem_set mem with old | rfl
    · exact .inr old
    · exact .inl (.tail _ (.tail _ (.head _)))
  · exact effect_bind (checks_read _) fun _ => .gives trivial
  · exact .gives (plain_numberOf _)
  -- Numbers.
  · exact effect_bind (checks_expectNumber _ _) fun _ => .gives trivial
  · exact effect_bind (checks_expectNumber _ _) fun _ => .gives trivial
  · exact effect_bind (checks_expectNumber _ _) fun _ => .gives trivial
  · refine effect_bind (checks_expectNumber _ _) fun _ => ?_
    split
    · exact .fails _
    · exact .gives trivial
  · exact effect_bind (checks_expectNumber _ _) fun _ => .gives trivial
  · exact effect_bind (checks_expectNumber _ _) fun _ => .gives trivial
  · exact effect_bind (checks_expectNumber _ _) fun _ => effect_bind (checks_expectNumber _ _) fun _ => .gives trivial
  · exact effect_bind (checks_expectNumber _ _) fun _ => effect_bind (checks_expectNumber _ _) fun _ => .gives trivial
  -- The turtle.
  · exact effect_bind (checks_observe _) fun _ => .gives trivial
  · exact effect_bind (checks_observe _) fun _ => .gives trivial
  · refine effect_bind (checks_expectNumber _ _) fun x => effect_bind (checks_expectNumber _ _) fun y => ?_
    exact effect_draw (.move _)
  · exact effect_bind (checks_expectNumber _ _) fun _ => effect_draw (.forward _)
  · exact effect_bind (checks_expectNumber _ _) fun _ => effect_draw (.forward _)
  · exact effect_bind (checks_observe _) fun _ => .gives trivial
  · exact effect_bind (checks_expectNumber _ _) fun _ => effect_look (fun _ => rfl) (fun _ => rfl) fun _ => rfl
  · exact effect_bind (checks_expectNumber _ _) fun _ => effect_look (fun _ => rfl) (fun _ => rfl) fun _ => rfl
  · exact effect_look (fun _ => rfl) (fun _ => rfl) fun _ => rfl
  · exact effect_look (fun _ => rfl) (fun _ => rfl) fun _ => rfl
  · exact effect_look (fun _ => rfl) (fun _ => rfl) fun _ => rfl
  · exact effect_look (fun _ => rfl) (fun _ => rfl) fun _ => rfl
  · refine effect_bind (checks_expectComponent _ _) fun _ => effect_bind (checks_expectComponent _ _) fun _ => ?_
    refine effect_bind (checks_expectComponent _ _) fun _ => ?_
    exact effect_look (fun _ => rfl) (fun _ => rfl) fun _ => rfl
  · refine effect_bind (checks_expectNumber _ _) fun x => ?_
    split
    · exact .fails _
    · rename_i allowed
      rw [Bool.or_eq_true,not_or,decide_eq_true_iff] at allowed
      exact effect_draw (.speed allowed.1 (by simpa using allowed.2))
  -- Polygons.
  · exact effect_look (fun _ => rfl) (fun _ => rfl) fun _ => rfl
  · refine effect_bind (checks_observe _) fun recording => ?_
    split
    · exact effect_look (fun _ => rfl) (fun _ => rfl) fun _ => rfl
    · exact .fails _
  · refine effect_bind (checks_observe _) fun count => ?_
    have drawn : Draws (·.endPolygon) := .look (fun _ => rfl) (fun _ => rfl) fun _ => rfl
    by_cases few : count < 3
    · simp only [if_pos few]
      exact .draws drawn fun _ same => nomatch same
    · simp only [if_neg few]
      exact effect_draw drawn
  · exact .fails _

end Builtin

end TurtleScript
