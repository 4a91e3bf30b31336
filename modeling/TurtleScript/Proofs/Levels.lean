import TurtleScript.Proofs.ParserSteps

/-!
Parsers and the nesting level. `Parser.Makes` says of a parser that starts at a level what holds of the
values it makes and of the level behind them. Only `deepen` changes the level for good; `nested` and
`levelled` are back at the level they started from (`nested_depth`, `Makes.levelled`), and a repetition of
a step that goes one level deeper cannot be longer than there are levels left (`makes_extend`).
-/

namespace TurtleScript.Program.Parser

variable {α β : Type} {depth : Nat}

/-- What holds of the values made from a level on, and of the level behind them. -/
def Makes (depth : Nat) (p : Parser α) (Q : α → Nat → Prop) : Prop :=
  ∀ s a t, s.depth = depth → p s = (some a,t) → Q a t.depth

/-- The value satisfies a property, at the level where the parser started. -/
def Kept (depth : Nat) (Q : α → Prop) (a : α) (level : Nat) : Prop := level = depth ∧ Q a

/-- A parser that leaves the level alone, whether it makes a value or not. -/
def Level (p : Parser α) : Prop := ∀ s, (p s).2.depth = s.depth

theorem Makes.weaken {p : Parser α} {P Q : α → Nat → Prop} (makes : Makes depth p P)
    (weaker : ∀ a level, P a level → Q a level) : Makes depth p Q :=
  fun s a t level out => weaker a t.depth (makes s a t level out)

theorem bind_some_inv {p : Parser α} {f : α → Parser β} {s t : State} {b : β} (out : (p >>= f) s = (some b,t)) :
    ∃ a u, p s = (some a,u) ∧ f a u = (some b,t) := by
  rcases first : p s with ⟨_ | a,u⟩
  · rw [bind_none first] at out
    cases out
  · rw [bind_some first] at out
    exact ⟨a,u,rfl,out⟩

theorem Makes.bind {p : Parser α} {f : α → Parser β} {P : α → Nat → Prop} {Q : β → Nat → Prop}
    (first : Makes depth p P) (second : ∀ a level, P a level → Makes level (f a) Q) :
    Makes depth (p >>= f) Q := by
  intro s b t level out
  obtain ⟨a,u,made,rest⟩ := bind_some_inv out
  exact second a u.depth (first s a u level made) u b t rfl rest

theorem Makes.then {p : Parser α} {f : α → Parser β} {P : α → Prop} {Q : β → Nat → Prop}
    (first : Makes depth p (Kept depth P)) (second : ∀ a, P a → Makes depth (f a) Q) :
    Makes depth (p >>= f) Q := by
  refine first.bind fun a level kept => ?_
  obtain ⟨rfl,holds⟩ := kept
  exact second a holds

theorem makes_pure {a : α} {Q : α → Nat → Prop} (holds : Q a depth) : Makes depth (pure a : Parser α) Q := by
  intro s b t level out
  cases out
  rw [level]
  exact holds

theorem makes_fail (complaint : Complaint) (Q : α → Nat → Prop) : Makes depth (fail complaint : Parser α) Q := by
  intro s a t _ out
  cases out

theorem Level.then {p : Parser α} (keeps : Level p) {f : α → Parser β} {Q : β → Nat → Prop}
    (second : ∀ a, Makes depth (f a) Q) : Makes depth (p >>= f) Q := by
  intro s b t level out
  obtain ⟨a,u,made,rest⟩ := bind_some_inv out
  have kept : u.depth = depth := by
    have same := keeps s
    rw [made] at same
    exact same.trans level
  exact second a u b t kept rest

theorem Makes.map {p : Parser α} {P : α → Prop} (makes : Makes depth p (Kept depth P)) (f : α → β) {Q : β → Prop}
    (holds : ∀ a, P a → Q (f a)) : Makes depth (f <$> p) (Kept depth Q) :=
  makes.then fun a made => makes_pure ⟨rfl,holds a made⟩

theorem level_look (f : State → α) : Level (look f) := fun _ => rfl

theorem advance_depth (s : State) : s.advance.depth = s.depth := by
  unfold State.advance
  split <;> rfl

theorem recover_depth (s : State) : s.recover.depth = s.depth := advance_depth s

theorem level_advance : Level advance := advance_depth

theorem level_accept (kind : Token.Kind) : Level (accept kind) := by
  intro s
  unfold accept
  split
  · exact advance_depth s
  · rfl

theorem level_expect (kind : Token.Kind) (complaint : Complaint) : Level (expect kind complaint) := by
  intro s
  unfold expect
  split
  · exact advance_depth s
  · rfl

theorem level_complain (token : Token) (complaint : Complaint) : Level (change (·.complain token complaint)) :=
  fun _ => rfl

/-! ### Nesting -/

theorem makes_deepen {f : Unit → Parser β} {Q : β → Nat → Prop}
    (second : depth < maxNesting → Makes (depth + 1) (f ()) Q) : Makes depth (do f (← deepen)) Q := by
  intro s b t level out
  by_cases full : maxNesting ≤ s.depth
  · rw [bind_none (deepen_full full)] at out
    cases out
  · rw [bind_some (deepen_free full)] at out
    have room : depth < maxNesting := by omega
    exact second room { s with depth := s.depth + 1 } b t (by simp only [level]) out

theorem nested_depth (p : Parser α) : Level (nested p) := by
  intro s
  by_cases full : maxNesting ≤ s.depth
  · rw [nested_full full]
    rfl
  · rw [nested_free full (t := (p { s with depth := s.depth + 1 }).2) rfl]

theorem Makes.nested {p : Parser α} {P : α → Prop}
    (makes : Makes (depth + 1) p (Kept (depth + 1) P)) :
    Makes depth (nested p) (Kept depth fun a => depth < maxNesting ∧ P a) := by
  intro s a t level out
  by_cases full : maxNesting ≤ s.depth
  · rw [nested_full full] at out
    cases out
  · have room : depth < maxNesting := by omega
    rcases inside : p { s with depth := s.depth + 1 } with ⟨result,u⟩
    rw [nested_free full inside] at out
    cases out
    have made := makes { s with depth := s.depth + 1 } a u (by simp only [level]) inside
    exact ⟨level,room,made.2⟩

theorem Makes.levelled {p : Parser α} {P : α → Prop} (makes : Makes depth p fun a _ => P a) :
    Makes depth (levelled p) (Kept depth P) := by
  intro s a t level out
  rcases inside : p s with ⟨_ | b,u⟩
  · rw [levelled_none inside] at out
    cases out
  · rw [levelled_some inside] at out
    cases out
    exact ⟨level,makes s a u level inside⟩

/-- What a step of a repetition does: it goes one level deeper with a value whose measure is one more than
that of the value before or than a base, or it leaves the level alone. -/
def Grows (measure : α → Nat) (base depth : Nat) (a : α) (next : Option α) (level : Nat) : Prop :=
  match next with
  | some b => level = depth + 1 ∧ depth < maxNesting ∧ measure b ≤ max (measure a) base + 1
  | none => level = depth

section
variable {measure : α → Nat} {base start : Nat} {step : α → Parser (Option α)}

theorem makes_extendWithin
    (steps : ∀ depth a, start ≤ depth → Makes depth (step a) (Grows measure base depth a)) :
    ∀ (bound : List Token) (a : α) (depth : Nat), start ≤ depth → depth = start ∨ depth ≤ maxNesting →
      measure a ≤ base + (depth - start) →
      Makes depth (extendWithin step bound a) fun b _ => measure b ≤ base + (maxNesting - start)
  | [],a,depth,behind,capped,small => makes_pure (by omega)
  | _ :: bound,a,depth,behind,capped,small => by
    refine (steps depth a behind).bind fun next level grown => ?_
    cases next with
    | none => exact makes_pure (by omega)
    | some b =>
      obtain ⟨rfl,room,grown⟩ := grown
      have larger : measure b ≤ base + (depth + 1 - start) := by omega
      exact makes_extendWithin steps bound b (depth + 1) (by omega) (.inr room) larger

theorem makes_extend (steps : ∀ depth a, start ≤ depth → Makes depth (step a) (Grows measure base depth a))
    {a : α} (small : measure a ≤ base) :
    Makes start (extend step a) fun b _ => measure b ≤ base + (maxNesting - start) := by
  intro s b t level out
  exact makes_extendWithin steps s.rest a start (Nat.le_refl _) (.inl rfl) (by omega) s b t level out

end

theorem makes_commaSeparatedWithin {item : Parser α} {P : α → Prop} (makes : Makes depth item (Kept depth P)) :
    ∀ bound : List Token, Makes depth (commaSeparatedWithin item bound) (Kept depth fun as => ∀ a ∈ as, P a)
  | [] => makes.then fun a made => makes_pure ⟨rfl,by simpa using made⟩
  | _ :: bound => by
    refine makes.then fun a made => (level_accept .comma).then fun more => ?_
    cases more with
    | false => exact makes_pure ⟨rfl,by simpa using made⟩
    | true =>
      refine (makes_commaSeparatedWithin makes bound).then fun later all => makes_pure ⟨rfl,?_⟩
      simpa using ⟨made,all⟩

theorem Makes.commaSeparated {item : Parser α} {P : α → Prop} (makes : Makes depth item (Kept depth P)) :
    Makes depth (commaSeparated item) (Kept depth fun as => ∀ a ∈ as, P a) :=
  fun s as t level out => makes_commaSeparatedWithin makes s.rest s as t level out

theorem makes_manyWithin {stop : State → Bool} {item : Parser α} {P : α → Prop} (level : Level item)
    (makes : Makes depth item (Kept depth P)) :
    ∀ bound : List Token, Makes depth (manyWithin stop item bound) (Kept depth fun as => ∀ a ∈ as, P a)
  | [] => makes_pure ⟨rfl,by simp⟩
  | _ :: bound => by
    have later : Makes depth (manyWithin stop item bound) _ := makes_manyWithin level makes bound
    intro s as t same out
    cases stopped : stop s with
    | true =>
      rw [manyWithin_stop stopped] at out
      cases out
      exact ⟨same,by simp⟩
    | false =>
      have kept := level s
      rcases first : item s with ⟨_ | a,u⟩
      · rw [first] at kept
        rw [manyWithin_fault stopped first] at out
        split at out
        · cases out
        · exact later u.recover as t ((recover_depth u).trans (kept.trans same)) out
      · rw [first] at kept
        rw [manyWithin_item stopped first] at out
        have made := (makes s a u same first).2
        refine later.map (fun as => a :: as) (fun as all => ?_) u as t (kept.trans same) out
        simpa using ⟨made,all⟩

/-- Items up to a stop keep the level if each item does, faulty ones included. -/
theorem Makes.many {stop : State → Bool} {item : Parser α} {P : α → Prop} (makes : Makes depth item (Kept depth P))
    (level : Level item) : Makes depth (many stop item) (Kept depth fun as => ∀ a ∈ as, P a) :=
  fun s as t same out => makes_manyWithin level makes s.rest s as t same out

end TurtleScript.Program.Parser
