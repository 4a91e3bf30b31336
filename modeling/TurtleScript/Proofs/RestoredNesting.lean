import TurtleScript.Proofs.Levels
import TurtleScript.Proofs.Rounds
import Mathlib.Logic.Relation

/-!
The nesting level behind errors. The loops over operators and over calls go deeper for each operand, and where they
give up they leave the level raised; every such place is inside a nested rule, which puts it back (`nested_depth`).
So the items of a list of statements are tried at the level of the list however many of those in front were faulty
(`Level.tries`), and on all its way through a parse (`Passes`) the level stays within the cap
(`Passes.within_cap`).
-/

namespace TurtleScript.Program

namespace Parser

variable {α β : Type} {p : Parser α} {s t : State}

/-- The loop over items that begins at one state tries an item at another. -/
def Tries (stop : State → Bool) (item : Parser α) (s t : State) : Prop :=
  Relation.ReflTransGen (Round stop item) s t ∧ stop t = false

section
variable {stop : State → Bool} {item : Parser α}

theorem Level.round (level : Level item) (round : Round stop item s t) : t.depth = s.depth := by
  have kept := level s
  cases round with
  | made _ out => rwa [out] at kept
  | skipped _ out =>
    rw [out] at kept
    exact (recover_depth _).trans kept

/-- Items that keep the level are all tried at the level of the first one, whatever was wrong with those in front. -/
theorem Level.tries (level : Level item) (tries : Tries stop item s t) : t.depth = s.depth := by
  obtain ⟨rounds,-⟩ := tries
  induction rounds with
  | refl => rfl
  | tail _ round ih => exact (level.round round).trans ih

theorem bind_congr {p q : Parser α} {f : α → Parser β} (same : p s = q s) : (p >>= f) s = (q >>= f) s := by
  change andThen p f s = andThen q f s
  simp only [andThen,same]

theorem manyWithin_of_tries {other : Parser α} (bound : List Token)
    (same : ∀ t, Tries stop item s t → other t = item t) :
    manyWithin stop other bound s = manyWithin stop item bound s := by
  induction bound generalizing s with
  | nil => rfl
  | cons token bound ih =>
    by_cases stopped : stop s = true
    · rw [manyWithin_stop stopped,manyWithin_stop stopped]
    · have goesOn : stop s = false := by simpa using stopped
      have first := same s ⟨.refl,goesOn⟩
      have later {t : State} (round : Round stop item s t) :
          manyWithin stop other bound t = manyWithin stop item bound t :=
        ih fun u tries => same u ⟨.head round tries.1,tries.2⟩
      rcases out : item s with ⟨_ | a,t⟩
      · rw [manyWithin_fault goesOn (first.trans out),manyWithin_fault goesOn out]
        by_cases deep : t.tooDeep = true
        · rw [if_pos deep,if_pos deep]
        · rw [if_neg deep,if_neg deep]
          exact later (.skipped goesOn out (by simpa using deep))
      · rw [manyWithin_item goesOn (first.trans out),manyWithin_item goesOn out]
        exact bind_congr (later (.made goesOn out))

theorem many_of_tries {other : Parser α} (same : ∀ t, Tries stop item s t → other t = item t) :
    many stop other s = many stop item s :=
  manyWithin_of_tries s.rest same

end

/-- The single steps of a parse. -/
inductive Basic : {α : Type} → Parser α → Prop where
  | pure {α : Type} (a : α) : Basic (pure a)
  | look {α : Type} (f : State → α) : Basic (look f)
  | advance : Basic advance
  | accept (kind : Token.Kind) : Basic (accept kind)
  | expect (kind : Token.Kind) (complaint : Complaint) : Basic (expect kind complaint)
  | complain (token : Token) (complaint : Complaint) : Basic (change (·.complain token complaint))
  | fail {α : Type} (complaint : Complaint) : Basic (α := α) (fail complaint)
  | deepen : Basic deepen

/-- A parser that is put together from single steps. -/
inductive Made : {α : Type} → Parser α → Prop where
  | basic {α : Type} {p : Parser α} (basic : Basic p) : Made p
  | bind {α β : Type} {p : Parser α} {f : α → Parser β} (first : Made p) (second : ∀ a, Made (f a)) : Made (p >>= f)
  | nested {α : Type} {p : Parser α} (inside : Made p) : Made (nested p)
  | levelled {α : Type} {p : Parser α} (inside : Made p) : Made (levelled p)
  | bounded {α : Type} {p : List Token → Parser α} (each : ∀ bound, Made (p bound)) : Made fun s => p s.rest s
  | many {α : Type} {item : Parser α} (stop : State → Bool) (each : Made item) : Made (many stop item)

/-- A parser that starts at one state is at another at some time, on its way through its parts, in whatever way it may
be put together. -/
inductive Passes : {α : Type} → Parser α → State → State → Prop where
  | start {α : Type} {p : Parser α} {s : State} (made : Made p) : Passes p s s
  | finish {α : Type} {p : Parser α} {s : State} (made : Made p) : Passes p s (p s).2
  | first {α β : Type} {p : Parser α} {f : α → Parser β} {s t : State} (inside : Passes p s t) : Passes (p >>= f) s t
  | second {α β : Type} {p : Parser α} {f : α → Parser β} {a : α} {s t u : State} (made : Made p)
      (out : p s = (some a,u)) (inside : Passes (f a) u t) : Passes (p >>= f) s t
  | nested {α : Type} {p : Parser α} {s t : State} (free : ¬ maxNesting ≤ s.depth)
      (inside : Passes p { s with depth := s.depth + 1 } t) : Passes (nested p) s t
  | levelled {α : Type} {p : Parser α} {s t : State} (inside : Passes p s t) : Passes (levelled p) s t
  | bounded {α : Type} {p : List Token → Parser α} {s t : State} (inside : Passes (p s.rest) s t) :
      Passes (fun s => p s.rest s) s t
  | item {α : Type} {stop : State → Bool} {item : Parser α} {s t u : State} (made : Made item)
      (tries : Tries stop item s u) (inside : Passes item u t) : Passes (many stop item) s t

/-- A parser that does not exceed the cap on nesting, whether it makes a value or not. -/
def Caps (p : Parser α) : Prop := ∀ s, s.depth ≤ maxNesting → (p s).2.depth ≤ maxNesting

theorem Level.caps (level : Level p) : Caps p := fun s within => (level s).trans_le within

theorem caps_deepen : Caps deepen := by
  intro s within
  by_cases full : maxNesting ≤ s.depth
  · rw [deepen_full full]
    exact within
  · rw [deepen_free full]
    exact Nat.not_le.mp full

theorem Basic.caps (basic : Basic p) : Caps p := by
  cases basic with
  | pure a => exact Level.caps fun _ => rfl
  | look f => exact (level_look f).caps
  | advance => exact level_advance.caps
  | accept kind => exact (level_accept kind).caps
  | expect kind complaint => exact (level_expect kind complaint).caps
  | complain token complaint => exact (level_complain token complaint).caps
  | fail complaint => exact Level.caps fun _ => rfl
  | deepen => exact caps_deepen

theorem Caps.bind {f : α → Parser β} (first : Caps p) (second : ∀ a, Caps (f a)) : Caps (p >>= f) := by
  intro s within
  have middle := first s within
  rcases out : p s with ⟨_ | a,u⟩
  · rw [out] at middle
    rwa [bind_none out]
  · rw [out] at middle
    rw [bind_some out]
    exact second a u middle

theorem Caps.levelled (caps : Caps p) : Caps (levelled p) := by
  intro s within
  have after := caps s within
  rcases out : p s with ⟨_ | a,u⟩
  · rw [out] at after
    rwa [levelled_none out]
  · rw [levelled_some out]
    exact within

theorem Caps.manyWithin {stop : State → Bool} {item : Parser α} (caps : Caps item) (bound : List Token) :
    Caps (manyWithin stop item bound) := by
  induction bound with
  | nil => exact fun s within => within
  | cons token bound ih =>
    intro s within
    have after := caps s within
    cases stopped : stop s with
    | true => rwa [manyWithin_stop stopped]
    | false =>
      rcases out : item s with ⟨_ | a,t⟩
      · rw [out] at after
        rw [manyWithin_fault stopped out]
        by_cases deep : t.tooDeep = true
        · rwa [if_pos deep]
        · rw [if_neg deep]
          exact ih t.recover ((recover_depth t).trans_le after)
      · rw [out] at after
        rw [manyWithin_item stopped out]
        exact ih.bind (fun as => Level.caps fun _ => rfl) t after

theorem Made.caps (made : Made p) : Caps p := by
  induction made with
  | basic basic => exact basic.caps
  | bind _ _ first second => exact first.bind second
  | nested => exact (nested_depth _).caps
  | levelled _ inside => exact inside.levelled
  | bounded _ each => exact fun s => each s.rest s
  | many stop _ each => exact fun s => each.manyWithin s.rest s

theorem Caps.round {stop : State → Bool} {item : Parser α} (caps : Caps item) (within : s.depth ≤ maxNesting)
    (round : Round stop item s t) : t.depth ≤ maxNesting := by
  have after := caps s within
  cases round with
  | made _ out => rwa [out] at after
  | skipped _ out =>
    rw [out] at after
    exact (recover_depth _).trans_le after

theorem Caps.tries {stop : State → Bool} {item : Parser α} (caps : Caps item) (within : s.depth ≤ maxNesting)
    (tries : Tries stop item s t) : t.depth ≤ maxNesting := by
  obtain ⟨rounds,-⟩ := tries
  induction rounds with
  | refl => exact within
  | tail _ round ih => exact caps.round ih round

/-- Wherever a parser is on its way, the level is within the cap, if it was at the start. -/
theorem Passes.within_cap (passes : Passes p s t) (within : s.depth ≤ maxNesting) : t.depth ≤ maxNesting := by
  induction passes with
  | start => exact within
  | finish made => exact made.caps _ within
  | first _ ih => exact ih within
  | second made out _ ih =>
    have middle := made.caps _ within
    rw [out] at middle
    exact ih middle
  | nested free _ ih => exact ih (Nat.not_le.mp free)
  | levelled _ ih => exact ih within
  | bounded _ ih => exact ih within
  | item made tries _ ih => exact ih (made.caps.tries within tries)

end Parser

/-! ### The grammar -/

open TurtleScript.Program.Parser

/-- All rules of the grammar are put together from single steps. -/
def making : Law where
  holds _ _ _ _ p := Made p
  pure value := .basic (.pure value)
  bind := .bind
  late made := made
  forget made := made
  last := .basic (.look _)
  sees kind := .basic (.look _)
  spanFrom start := .basic (.look _)
  advance := .basic .advance
  deepen := .basic .deepen
  accept yes no := .bind (.basic (.accept _)) fun found => by
    cases found with
    | true => exact yes
    | false => exact no
  expect {_} {_} kind {complaint} _ := .basic (.expect kind complaint)
  next tokens _ := .bind (.basic (.look _)) tokens
  leaf := by
    refine .bind (.basic (.look _)) fun token => ?_
    cases Nested.leaf? token with
    | ok e => exact .bind (.basic .advance) fun _ => .basic (.pure e)
    | error complaint => exact .basic (.fail complaint)
  retort token value made := .bind made fun _ => .bind (.basic (.complain token _)) fun _ => .basic (.pure value)
  nested {n} {_} {_} {_} {p} made lowest := .nested (by
    cases n with
    | zero =>
      rw [lowest rfl]
      exact .basic (.fail _)
    | succ n => exact made n rfl)
  levelled := .levelled
  bounded := .bounded
  many {_} {_} {stop} {_} _ _ made := .many stop made

theorem made_declaration : Made declaration := (Nested.level_lawful making maxNesting).declaration

theorem Nested.block_eq (inner : Nested) : inner.block = (do
    let body ← many blockEnd (nested inner.declaration)
    let _ ← expect .rightBrace .blockClose
    return body) := rfl

/-- A block is read as it is by rules that only know what to do at the level where it is entered. -/
theorem Nested.block_congr {inner other : Nested} {s : State}
    (same : ∀ t, t.depth = s.depth → nested other.declaration t = nested inner.declaration t) :
    other.block s = inner.block s := by
  rw [block_eq,block_eq]
  exact bind_congr (many_of_tries fun t tries => same t ((nested_depth _).tries tries))

/-- Nesting is as deep behind a rule as in front of it, be there faults or none, and never deeper than the cap. All
statements at the top are tried at level zero, and all in a block at the level where it is entered; what would become
of them at another level makes no difference. -/
theorem nesting_restored :
    (Parser.Level declaration ∧ ∀ n, Parser.Level (Nested.level n).expression ∧
      Parser.Level (nested (Nested.level n).declaration) ∧ Parser.Level (nested (Nested.level n).statement)) ∧
    (Made (many State.atEnd declaration) ∧ ∀ tokens s,
      Passes (many State.atEnd declaration) (State.ofTokens tokens) s → s.depth ≤ maxNesting) ∧
    (∀ tokens, (∀ s, Tries State.atEnd declaration (State.ofTokens tokens) s → s.depth = 0) ∧
      ∀ other : Parser Stmt, (∀ s, s.depth = 0 → other s = declaration s) →
        many State.atEnd other (State.ofTokens tokens) = many State.atEnd declaration (State.ofTokens tokens)) ∧
    ∀ n s, (∀ t, Tries blockEnd (nested (Nested.level n).declaration) s t → t.depth = s.depth) ∧
      ∀ other : Nested,
        (∀ t, t.depth = s.depth → nested other.declaration t = nested (Nested.level n).declaration t) →
          other.block s = (Nested.level n).block s := by
  have level : Parser.Level declaration := nested_depth _
  have top {tokens : List Token} {s : State}
      (tries : Tries State.atEnd declaration (State.ofTokens tokens) s) : s.depth = 0 := level.tries tries
  refine ⟨⟨level,fun n => ⟨nested_depth _,nested_depth _,nested_depth _⟩⟩,?_,?_,?_⟩
  · exact ⟨.many _ made_declaration,fun tokens s passes => passes.within_cap (Nat.zero_le _)⟩
  · exact fun tokens => ⟨fun s tries => top tries,fun other same => many_of_tries fun t tries => same t (top tries)⟩
  · exact fun n s => ⟨fun t tries => (nested_depth _).tries tries,fun other same => Nested.block_congr same⟩

/-- The line `true + ; null;`, whose first statement is faulty. -/
def faultyLine : List Token :=
  [⟨.kwTrue,"true",none,⟨0,4,1⟩⟩,⟨.plus,"+",none,⟨5,6,1⟩⟩,⟨.semicolon,";",none,⟨7,8,1⟩⟩,
    ⟨.kwNull,"null",none,⟨9,13,1⟩⟩,⟨.semicolon,";",none,⟨13,14,1⟩⟩]

/-- Its second statement is tried at the level of the first one, at the top and in a block, and a parser that gives up
at all other levels reads the same. -/
theorem nesting_restored_faultyLine :
    let s := State.ofTokens faultyLine
    let t := (declaration s).2.recover
    let inside := { t with depth := t.depth + 1 }
    let brittle : Parser Stmt := fun s => if s.depth = 0 then declaration s else fail .expression s
    let block := { s with depth := 3 }
    let u := (nested (Nested.level 3).declaration block).2.recover
    (Passes (many State.atEnd declaration) s inside ∧ inside.depth ≤ maxNesting) ∧
      (Tries State.atEnd declaration s t ∧ t.depth = 0) ∧
      ((∀ s, s.depth = 0 → brittle s = declaration s) ∧ many State.atEnd brittle s = many State.atEnd declaration s) ∧
      Tries blockEnd (nested (Nested.level 3).declaration) block u ∧ u.depth = 3 := by
  intro s t inside brittle block u
  have faulty : declaration s = (none,(declaration s).2) := Prod.ext (Option.isNone_iff_eq_none.mp (by decide)) rfl
  have tries : Tries State.atEnd declaration s t :=
    ⟨.single (.skipped (by decide) faulty (by decide)),by decide⟩
  have made : Made (Nested.level maxNesting).declaration := (Nested.level_lawful making 255).declarationRule
  have passes : Passes (many State.atEnd declaration) s inside :=
    .item made_declaration tries (.nested (by decide) (.start made))
  have same : ∀ s, s.depth = 0 → brittle s = declaration s := fun s zero => if_pos zero
  have within : nested (Nested.level 3).declaration block = (none,(nested (Nested.level 3).declaration block).2) :=
    Prod.ext (Option.isNone_iff_eq_none.mp (by decide)) rfl
  have triesInside : Tries blockEnd (nested (Nested.level 3).declaration) block u :=
    ⟨.single (.skipped (by decide) within (by decide)),by decide⟩
  obtain ⟨_,⟨_,capped⟩,top,below⟩ := nesting_restored
  exact ⟨⟨passes,capped faultyLine inside passes⟩,⟨tries,(top faultyLine).1 t tries⟩,
    ⟨same,(top faultyLine).2 brittle same⟩,triesInside,(below 3 block).1 u triesInside⟩

/-- The loop that gives up in the first statement leaves the level raised by itself. -/
example : ((Nested.level 1).term (State.ofTokens faultyLine)).2.depth = 1 := by decide

end TurtleScript.Program
