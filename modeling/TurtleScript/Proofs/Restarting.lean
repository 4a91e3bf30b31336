import TurtleScript.Proofs.MovedGrammar

/-!
A parse starts anew with each declaration. What was consumed last is looked at only behind what a declaration itself
consumes, so it makes no difference to a parse what came before it (`many_fresh`). How many rounds there are for the
declarations makes no difference either, since each of them and each recovery consumes a token (`manyWithin_enough`).
-/

namespace TurtleScript.Program

open TurtleScript.Program.Parser

namespace Parser

variable {α β : Type}

/-- Two outcomes that are the same, or both without a value and the same but for the token consumed last. -/
def Renewed (out out' : Option α × State) : Prop :=
  out' = out ∨ (out.1 = none ∧ ∃ last, out' = (none,{ out.2 with last := last }))

/-- It makes no difference to the parser what was consumed before it. -/
def Fresh (p : Parser α) : Prop := ∀ s last, s.rest ≠ [] → Renewed (p s) (p { s with last := last })

theorem fresh_fail (complaint : Complaint) : Fresh (fail complaint : Parser α) :=
  fun _ last _ => .inr ⟨rfl,last,rfl⟩

theorem fresh_next {g : Token → Parser β} (rest : ∀ token, Fresh (g token)) : Fresh (do g (← look State.next)) :=
  fun s last left => rest s.next s last left

theorem fresh_advance {g : Unit → Parser β} : Fresh (do g (← advance)) := by
  intro s last left
  obtain ⟨token,later,tokens⟩ := List.exists_cons_of_ne_nil left
  refine .inl ?_
  show g () { s with last := last }.advance = g () s.advance
  rw [advance_of_rest tokens,advance_of_rest (s := { s with last := last }) tokens]

theorem fresh_accept {kind : Token.Kind} {g : Bool → Parser β} (missing : Fresh (g false)) :
    Fresh (do g (← accept kind)) := by
  intro s last left
  by_cases seen : Begins kind s.rest
  · obtain ⟨token,later,tokens,isKind⟩ := seen
    rw [bind_some (accept_found tokens isKind),bind_some (accept_found (s := { s with last := last }) tokens isKind)]
    exact .inl rfl
  · rw [bind_some (accept_missing seen),bind_some (accept_missing (s := { s with last := last }) seen)]
    exact missing s last left

theorem Fresh.bind {p : Parser α} {f : α → Parser β} (fresh : Fresh p) : Fresh (p >>= f) := by
  intro s last left
  rcases fresh s last left with same | ⟨failed,last',same⟩
  · rcases out : p s with ⟨_ | a,t⟩
    · rw [out] at same
      rw [bind_none out,bind_none same]
      exact .inl rfl
    · rw [out] at same
      rw [bind_some out,bind_some same]
      exact .inl rfl
  · rcases out : p s with ⟨_ | a,t⟩
    · rw [out] at same
      rw [bind_none out,bind_none same]
      exact .inr ⟨rfl,last',rfl⟩
    · rw [out] at failed
      cases failed

theorem Fresh.nested {p : Parser α} (fresh : Fresh p) : Fresh (nested p) := by
  intro s last left
  by_cases full : maxNesting ≤ s.depth
  · rw [nested_full full,nested_full (s := { s with last := last }) full]
    exact .inr ⟨rfl,last,rfl⟩
  · rcases out : p { s with depth := s.depth + 1 } with ⟨result,t⟩
    rw [nested_free full out]
    rcases fresh { s with depth := s.depth + 1 } last left with same | ⟨failed,last',same⟩
    · rw [nested_free (s := { s with last := last }) full (same.trans out)]
      exact .inl rfl
    · rw [out] at failed same
      rw [nested_free (s := { s with last := last }) full same]
      exact .inr ⟨failed,last',rfl⟩

theorem Fresh.levelled {p : Parser α} (fresh : Fresh p) : Fresh (levelled p) := by
  intro s last left
  rcases out : p s with ⟨_ | a,t⟩
  · rw [levelled_none out]
    rcases fresh s last left with same | ⟨_,last',same⟩
    · rw [levelled_none (same.trans out)]
      exact .inl rfl
    · rw [out] at same
      rw [levelled_none same]
      exact .inr ⟨rfl,last',rfl⟩
  · rw [levelled_some out]
    rcases fresh s last left with same | ⟨failed,_⟩
    · rw [levelled_some (same.trans out)]
      exact .inl rfl
    · rw [out] at failed
      cases failed

end Parser

namespace Nested

variable (inner : Nested)

theorem primary_fresh : Fresh inner.primary := by
  refine fresh_next fun token => ?_
  split
  · exact fresh_advance
  · exact fresh_advance
  · split
    · exact fresh_advance
    · exact fresh_fail _

theorem unaryRule_fresh : Fresh inner.unaryRule := by
  refine fresh_next fun token => ?_
  split
  · exact fresh_advance
  · exact inner.primary_fresh.bind.levelled

theorem binaryLevel_fresh {op? : Token.Kind → Option BinaryOp} {tighter : Parser Expr} (fresh : Fresh tighter) :
    Fresh (binaryLevel op? tighter) :=
  fresh.bind.levelled

theorem assignmentRule_fresh : Fresh inner.assignmentRule := by
  have equality : Fresh inner.equality :=
    binaryLevel_fresh (binaryLevel_fresh (binaryLevel_fresh (binaryLevel_fresh inner.unaryRule_fresh)))
  exact equality.bind.levelled.bind

theorem declarationRule_fresh (fresh : Fresh inner.assignment) : Fresh inner.declarationRule := by
  have statement : Fresh inner.statementRule :=
    fresh_accept (fresh_accept (fresh_accept (fresh_accept (fresh_accept fresh.nested.bind))))
  exact fresh_accept (fresh_accept statement)

theorem level_fresh (n : Nat) : Fresh (level n).assignment ∧ Fresh (level n).declaration := by
  induction n with
  | zero => exact ⟨fresh_fail _,fresh_fail _⟩
  | succ n ih => exact ⟨(level n).assignmentRule_fresh,(level n).declarationRule_fresh ih.1⟩

end Nested

theorem declaration_fresh : Fresh declaration := (Nested.level_fresh maxNesting).2.nested

/-! ### Declarations one behind the other -/

namespace Parser

variable {α : Type} {stop : State → Bool} {item : Parser α} {s t : State}

/-- An item consumes something, and a faulty one brings nothing back. -/
def Consumes (item : Parser α) : Prop :=
  ∀ s, (item s).2.rest.length ≤ s.rest.length ∧ ((item s).1.isSome → (item s).2.rest.length ≤ s.rest.length - 1)

/-- How many rounds there are makes no difference, if there are enough for the tokens. -/
theorem manyWithin_enough (consumes : Consumes item) (stops : ∀ s : State, s.rest = [] → stop s = true)
    (bound : List Token) : ∀ bound' s, s.rest.length ≤ bound.length → s.rest.length ≤ bound'.length →
      manyWithin stop item bound s = manyWithin stop item bound' s := by
  induction bound with
  | nil =>
    intro bound' s enough _
    have stopped := stops s (List.length_eq_zero_iff.mp (Nat.le_zero.mp enough))
    cases bound' with
    | nil => rfl
    | cons token bound' =>
      rw [manyWithin_stop stopped]
      rfl
  | cons token bound ih =>
    intro bound' s enough enough'
    cases bound' with
    | nil =>
      have stopped := stops s (List.length_eq_zero_iff.mp (Nat.le_zero.mp enough'))
      rw [manyWithin_stop stopped]
      rfl
    | cons token' bound' =>
      rw [List.length_cons] at enough enough'
      cases stopped : stop s with
      | true => rw [manyWithin_stop stopped,manyWithin_stop stopped]
      | false =>
        have less := consumes s
        rcases out : item s with ⟨_ | a,u⟩
        · rw [out] at less
          have few := recover_shrinks u
          have kept := less.1
          dsimp only at kept
          rw [manyWithin_fault stopped out,manyWithin_fault stopped out,ih bound' u.recover (by omega) (by omega)]
        · rw [out] at less
          have few := less.2 rfl
          dsimp only at few
          have same := ih bound' u (by omega) (by omega)
          rw [manyWithin_item stopped out,manyWithin_item stopped out]
          show andThen _ _ u = andThen _ _ u
          simp only [andThen,same]

theorem map_eq {β : Type} (f : α → β) (p : Parser α) (s : State) : (f <$> p) s = ((p s).1.map f,(p s).2) := by
  rcases out : p s with ⟨_ | a,t⟩
  · exact bind_none out
  · exact bind_some out

theorem many_stop (stopped : stop s = true) : many stop item s = (some [],s) := by
  unfold many
  cases s.rest with
  | nil => rfl
  | cons token rest => exact manyWithin_stop stopped

theorem many_item (consumes : Consumes item) (stops : ∀ s : State, s.rest = [] → stop s = true) {a : α}
    (goesOn : stop s = false) (out : item s = (some a,t)) :
    many stop item s = ((many stop item t).1.map (a :: ·),(many stop item t).2) := by
  have less := (consumes s).2
  rw [out] at less
  have few := less rfl
  dsimp only at few
  unfold many
  cases tokens : s.rest with
  | nil =>
    rw [stops s tokens] at goesOn
    cases goesOn
  | cons token rest =>
    rw [tokens,List.length_cons] at few
    rw [manyWithin_item goesOn out,map_eq,manyWithin_enough consumes stops rest t.rest t (by omega) (Nat.le_refl _)]

theorem many_fault (consumes : Consumes item) (stops : ∀ s : State, s.rest = [] → stop s = true)
    (goesOn : stop s = false) (out : item s = (none,t)) :
    many stop item s = if t.tooDeep then (none,t) else many stop item t.recover := by
  have kept := (consumes s).1
  rw [out] at kept
  have few := recover_shrinks t
  dsimp only at kept
  unfold many
  cases tokens : s.rest with
  | nil =>
    rw [stops s tokens] at goesOn
    cases goesOn
  | cons token rest =>
    rw [tokens,List.length_cons] at kept
    rw [manyWithin_fault goesOn out,manyWithin_enough consumes stops rest t.recover.rest t.recover (by omega) (Nat.le_refl _)]

theorem many_congr {s' : State} (consumes : Consumes item) (stops : ∀ s : State, s.rest = [] → stop s = true)
    (goesOn : stop s = false) (goesOn' : stop s' = false) (same : item s' = item s) :
    many stop item s' = many stop item s := by
  rcases out : item s with ⟨_ | a,t⟩
  · rw [many_fault consumes stops goesOn out,many_fault consumes stops goesOn' (same.trans out)]
  · rw [many_item consumes stops goesOn out,many_item consumes stops goesOn' (same.trans out)]

end Parser

theorem declaration_consumes : Consumes declaration := by
  intro s
  have moves := declaration_moves ⟨.none,[],default⟩ s
  refine ⟨moves.passed.shrinks,fun made => ?_⟩
  obtain ⟨a,made⟩ := Option.isSome_iff_exists.mp made
  exact moves.eats a made trivial

theorem atEnd_of_nil (s : State) (empty : s.rest = []) : s.atEnd = true := by
  simp [State.atEnd,empty]

/-- Two parses that end with the same value and the same problems. -/
def Agree {α : Type} (out out' : Option α × State) : Prop := out.1 = out'.1 ∧ out.2.problems = out'.2.problems

theorem recover_fresh {s : State} (last : Token) (left : s.rest ≠ []) :
    State.recover { s with last := last } = s.recover := by
  obtain ⟨token,later,tokens⟩ := List.exists_cons_of_ne_nil left
  unfold State.recover
  rw [advance_of_rest tokens,advance_of_rest (s := { s with last := last }) tokens]

theorem many_recover {s : State} (empty : s.rest = []) :
    many State.atEnd declaration s.recover = (some [],s.recover) := by
  have few := recover_shrinks s
  rw [empty] at few
  exact many_stop (atEnd_of_nil _ (List.length_eq_zero_iff.mp (Nat.le_zero.mp few)))

/-- What was consumed before makes no difference to the declarations and the problems that are found. -/
theorem many_fresh (s : State) (last : Token) :
    Agree (many State.atEnd declaration s) (many State.atEnd declaration { s with last := last }) := by
  by_cases empty : s.rest = []
  · rw [many_stop (atEnd_of_nil s empty),many_stop (atEnd_of_nil { s with last := last } empty)]
    exact ⟨rfl,rfl⟩
  have goesOn : s.atEnd = false := by simp [State.atEnd,empty]
  have goesOn' : State.atEnd { s with last := last } = false := goesOn
  rcases declaration_fresh s last empty with same | ⟨failed,last',same⟩
  · rw [many_congr declaration_consumes atEnd_of_nil goesOn goesOn' same]
    exact ⟨rfl,rfl⟩
  · have out : declaration s = (none,(declaration s).2) := Prod.ext failed rfl
    generalize (declaration s).2 = t at out same
    rw [many_fault declaration_consumes atEnd_of_nil goesOn out,
      many_fault declaration_consumes atEnd_of_nil goesOn' same]
    dsimp only
    by_cases deep : t.tooDeep
    · rw [if_pos deep,if_pos deep]
      exact ⟨rfl,rfl⟩
    · rw [if_neg deep,if_neg deep]
      by_cases empty : t.rest = []
      · rw [many_recover empty,many_recover (s := { t with last := last' }) empty]
        exact ⟨rfl,(recover_kept t).2.trans (recover_kept { t with last := last' }).2.symm⟩
      · rw [recover_fresh last' empty]
        exact ⟨rfl,rfl⟩

end TurtleScript.Program
