import TurtleScript.Library

/-!
How far the steps of a program reach. The scene is what a program works on: what it holds, the turtle
and what it printed. A step is contained if it neither sees nor changes anything else in the world;
every single step is, on names and scopes too, and what is put together of such steps.
-/

namespace TurtleScript

/-- What a program works on, apart from where in the program it is. -/
structure Scene where
  store : Store
  sprite : Turtle.Sprite
  printed : Array String

namespace World

def scene (w : World) : Scene := ⟨w.store,w.sprite,w.printed⟩

def withScene (w : World) (s : Scene) : World :=
  { w with store := s.store, sprite := s.sprite, printed := s.printed }

@[simp] theorem scene_withScene (w : World) (s : Scene) : (w.withScene s).scene = s := rfl

@[simp] theorem withScene_scene (w : World) : w.withScene w.scene = w := rfl

@[simp] theorem withScene_withScene (w : World) (s t : Scene) : (w.withScene s).withScene t = w.withScene t := rfl

end World

/-- A world with a scene and nothing going on in it. -/
def Scene.world (s : Scene) : World := { store := s.store, sprite := s.sprite, printed := s.printed }

@[simp] theorem Scene.scene_world (s : Scene) : s.world.scene = s := rfl

namespace Action

variable {α β : Type}

def onScene (action : Action α) (s : Scene) : Except Fault α × Scene :=
  let (result,w) := action.run.run s.world
  (result,w.scene)

/-- A step that depends on the scene alone and changes the scene alone. -/
def Contained (action : Action α) : Prop :=
  ∃ f : Scene → Except Fault α × Scene, ∀ w, action.run.run w = ((f w.scene).1,w.withScene (f w.scene).2)

/-- In any world a contained step does what it does to the scene, and leaves the rest. -/
theorem Contained.run_eq {action : Action α} (contained : Contained action) (w : World) :
    action.run.run w = ((action.onScene w.scene).1,w.withScene (action.onScene w.scene).2) := by
  obtain ⟨f,agrees⟩ := contained
  have same : action.onScene w.scene = f w.scene := by
    unfold onScene
    rw [agrees]
    rfl
  rw [same]
  exact agrees w

theorem contained_pure (a : α) : Contained (pure a : Action α) := ⟨fun s => (.ok a,s),fun _ => rfl⟩

theorem contained_fail (fault : Fault) : Contained (fail fault : Action α) :=
  ⟨fun s => (.error fault,s),fun _ => rfl⟩

theorem run_bind (action : Action α) (next : α → Action β) (w : World) :
    (action >>= next).run.run w =
      match action.run.run w with
      | (.ok a,v) => (next a).run.run v
      | (.error fault,v) => (.error fault,v) := by
  rw [ExceptT.run_bind,StateT.run_bind]
  show (match action.run.run w with | (result,v) => _) = _
  rcases action.run.run w with ⟨_ | _,v⟩ <;> rfl

theorem contained_bind {action : Action α} {next : α → Action β} (first : Contained action)
    (second : ∀ a, Contained (next a)) : Contained (action >>= next) := by
  refine ⟨fun s => match action.onScene s with
    | (.ok a,t) => (next a).onScene t
    | (.error fault,t) => (.error fault,t),fun w => ?_⟩
  rw [run_bind,first.run_eq]
  rcases out : action.onScene w.scene with ⟨fault | a,t⟩
  · simp only [out]
  · simp only [out,(second a).run_eq,World.scene_withScene,World.withScene_withScene]

theorem contained_read (f : Store → α) : Contained (read f) := ⟨fun s => (.ok (f s.store),s),fun _ => rfl⟩

theorem contained_observe (f : Turtle.Sprite → α) : Contained (observe f) :=
  ⟨fun s => (.ok (f s.sprite),s),fun _ => rfl⟩

theorem run_inquire (f : Store → Except Fault α) (w : World) : (inquire f).run.run w = (f w.store,w) := by
  have looked : (get : Action World).run.run w = (.ok w,w) := rfl
  unfold inquire
  rw [run_bind]
  simp only [looked]
  cases f w.store with
  | ok a => rfl
  | error fault => rfl

theorem contained_inquire (f : Store → Except Fault α) : Contained (inquire f) :=
  ⟨fun s => (f s.store,s),run_inquire f⟩

theorem contained_renew (f : Store → α × Store) : Contained (renew f) :=
  ⟨fun s => (.ok (f s.store).1,{ s with store := (f s.store).2 }),fun _ => rfl⟩

theorem contained_alter (f : Store → Store) : Contained (alter f) := contained_renew _

theorem contained_draw (f : Turtle.Sprite → Turtle.Sprite) : Contained (draw f) :=
  ⟨fun s => (.ok (),{ s with sprite := f s.sprite }),fun _ => rfl⟩

theorem contained_print (line : String) : Contained (print line) :=
  ⟨fun s => (.ok (),{ s with printed := s.printed.push line }),fun _ => rfl⟩

theorem contained_define (scope : FrameId) (name : String) (value : Value) :
    Contained (define scope name value) :=
  contained_bind (contained_inquire _) fun _ => contained_alter _

theorem contained_assign (scope : FrameId) (name : String) (value : Value) :
    Contained (assign scope name value) :=
  contained_bind (contained_inquire _) fun _ => contained_alter _

theorem revise_eq {f : Store → Except Fault Store} {g : Store → Except Fault α} {h : α → Store → Store}
    (parts : ∀ store, f store = (g store).map (h · store)) : revise f = (do let a ← inquire g; alter (h a)) := by
  refine funext fun w => ?_
  show (revise f).run.run w = (inquire g >>= fun a => alter (h a)).run.run w
  rw [revise,run_bind,run_bind,run_inquire,run_inquire,parts]
  cases g w.store <;> rfl

theorem revise_setItem (id : ArrayId) (index value : Value) :
    revise (fun store => do store.setItem id (← positionOf index) value) = (do
      let position ← inquire fun store => do store.positionIn id (← positionOf index)
      alter (·.putItem id position value)) := by
  refine revise_eq fun store => ?_
  cases positionOf index with
  | error fault => rfl
  | ok named =>
    show store.setItem id named value = (store.positionIn id named).map fun position => store.putItem id position value
    unfold Store.setItem
    cases store.positionIn id named <;> rfl

/-! What the single steps do to a scene. -/

@[simp] theorem onScene_pure (a : α) (s : Scene) : onScene (pure a : Action α) s = (.ok a,s) := rfl

@[simp] theorem onScene_fail (fault : Fault) (s : Scene) :
    onScene (fail fault : Action α) s = (.error fault,s) := rfl

@[simp] theorem onScene_read (f : Store → α) (s : Scene) : (read f).onScene s = (.ok (f s.store),s) := rfl

@[simp] theorem onScene_observe (f : Turtle.Sprite → α) (s : Scene) :
    (observe f).onScene s = (.ok (f s.sprite),s) := rfl

@[simp] theorem onScene_renew (f : Store → α × Store) (s : Scene) :
    (renew f).onScene s = (.ok (f s.store).1,{ s with store := (f s.store).2 }) := rfl

@[simp] theorem onScene_alter (f : Store → Store) (s : Scene) :
    (alter f).onScene s = (.ok (),{ s with store := f s.store }) := rfl

@[simp] theorem onScene_draw (f : Turtle.Sprite → Turtle.Sprite) (s : Scene) :
    (draw f).onScene s = (.ok (),{ s with sprite := f s.sprite }) := rfl

@[simp] theorem onScene_print (line : String) (s : Scene) :
    (print line).onScene s = (.ok (),{ s with printed := s.printed.push line }) := rfl

theorem onScene_bind (action : Action α) {next : α → Action β} (contained : ∀ a, Contained (next a)) (s : Scene) :
    (action >>= next).onScene s =
      match action.onScene s with
      | (.ok a,t) => (next a).onScene t
      | (.error fault,t) => (.error fault,t) := by
  unfold onScene
  rw [run_bind]
  rcases action.run.run s.world with ⟨fault | a,v⟩
  · rfl
  · simp only [(contained a).run_eq,World.scene_withScene,Scene.scene_world]

@[simp] theorem onScene_inquire (f : Store → Except Fault α) (s : Scene) :
    (inquire f).onScene s = (f s.store,s) := by
  unfold onScene
  rw [run_inquire]
  rfl

end Action

end TurtleScript
