import TurtleScript.Proofs.ParserLaws
import TurtleScript.Proofs.Restarting

/-!
The rounds of the parser's loops. The loops over items are left after at most as many rounds as there are tokens,
though nothing but their stops and the cap on nesting ends them (`looped_many`): a round that does not leave its loop
consumes a token (`Round.consumes`). The loops over operators and over lists with commas do not use up the rounds that
they are allowed either (`extendWithin_enough`, `commaSeparatedWithin_enough`).
-/

namespace TurtleScript.Program

open TurtleScript.Program.Parser

variable {s t : State}

section
variable {α : Type} {stop : State → Bool} {item : Parser α}

/-- A round of a loop over items that does not leave it: an item is parsed, or a faulty one is skipped. -/
inductive Round (stop : State → Bool) (item : Parser α) : State → State → Prop where
  | made {s t : State} {a : α} (goesOn : stop s = false) (out : item s = (some a,t)) : Round stop item s t
  | skipped {s t : State} (goesOn : stop s = false) (out : item s = (none,t)) (shallow : t.tooDeep = false) :
      Round stop item s t.recover

/-- The loop over items, which nothing but the stop and the cap on nesting ends: in so many rounds it comes from a
state to its outcome. -/
inductive Looped (stop : State → Bool) (item : Parser α) : Nat → State → Option (List α) × State → Prop where
  | stopped {s : State} (stopped : stop s = true) : Looped stop item 0 s (some [],s)
  | tooDeep {s t : State} (goesOn : stop s = false) (out : item s = (none,t)) (deep : t.tooDeep = true) :
      Looped stop item 0 s (none,t)
  | made {s t : State} {a : α} {rounds : Nat} {result : Option (List α) × State} (goesOn : stop s = false)
      (out : item s = (some a,t)) (later : Looped stop item rounds t result) :
      Looped stop item (rounds + 1) s (result.1.map (a :: ·),result.2)
  | skipped {s t : State} {rounds : Nat} {result : Option (List α) × State} (goesOn : stop s = false)
      (out : item s = (none,t)) (shallow : t.tooDeep = false) (later : Looped stop item rounds t.recover result) :
      Looped stop item (rounds + 1) s result

theorem Round.consumes (consumes : Consumes item) (stops : ∀ s : State, s.rest = [] → stop s = true)
    (round : Round stop item s t) : t.rest.length < s.rest.length := by
  have left {s : State} (goesOn : stop s = false) : 1 ≤ s.rest.length :=
    List.length_pos_of_ne_nil fun empty => absurd (goesOn.symm.trans (stops s empty)) nofun
  cases round with
  | made goesOn out =>
    have few := (consumes s).2
    rw [out] at few
    have less : t.rest.length ≤ s.rest.length - 1 := few rfl
    have := left goesOn
    omega
  | @skipped u goesOn out _ =>
    have few := (consumes s).1
    rw [out] at few
    have less : u.rest.length ≤ s.rest.length := few
    have := recover_shrinks u
    have := left goesOn
    omega

theorem looped_many (consumes : Consumes item) (stops : ∀ s : State, s.rest = [] → stop s = true) (s : State) :
    ∃ rounds ≤ s.rest.length, Looped stop item rounds s (many stop item s) := by
  generalize measure : s.rest.length = tokens
  induction tokens using Nat.strong_induction_on generalizing s with
  | _ tokens ih =>
  subst measure
  cases stopped : stop s with
  | true =>
    rw [many_stop stopped]
    exact ⟨0,Nat.zero_le _,.stopped stopped⟩
  | false =>
    rcases out : item s with ⟨_ | a,t⟩
    · rw [many_fault consumes stops stopped out]
      cases deep : t.tooDeep with
      | true =>
        rw [if_pos rfl]
        exact ⟨0,Nat.zero_le _,.tooDeep stopped out deep⟩
      | false =>
        rw [if_neg Bool.false_ne_true]
        have less := Round.consumes consumes stops (.skipped stopped out deep)
        obtain ⟨rounds,few,later⟩ := ih _ less t.recover rfl
        exact ⟨rounds + 1,few.trans_lt less,.skipped stopped out deep later⟩
    · rw [many_item consumes stops stopped out]
      have less := Round.consumes consumes stops (.made stopped out)
      obtain ⟨rounds,few,later⟩ := ih _ less t rfl
      exact ⟨rounds + 1,few.trans_lt less,.made stopped out later⟩

end

/-- Where the loop over the statements of a block stops. -/
def blockEnd (s : State) : Bool := s.sees .rightBrace || s.atEnd

theorem blockEnd_of_nil (s : State) (empty : s.rest = []) : blockEnd s = true := by
  simp [blockEnd,State.atEnd,empty]

theorem nested_declaration_consumes (n : Nat) : Consumes (nested (Nested.level n).declaration) := by
  intro s
  have moves := (Nested.level_moving ⟨.none,[],default⟩ n).declaration.nested s
  refine ⟨moves.passed.shrinks,fun made => ?_⟩
  obtain ⟨a,made⟩ := Option.isSome_iff_exists.mp made
  exact moves.eats a made trivial

/-! ### Operators and commas -/

/-- A step of a loop over operators consumes a token if it goes on, and finds nothing at the end. -/
structure Progresses {α : Type} (step : α → Parser (Option α)) : Prop where
  ends : ∀ a s, s.final.kind = .endOfFile → s.rest = [] → step a s = (some none,s)
  moves : ∀ a s b t, step a s = (some (some b),t) → t.final = s.final ∧ t.rest.length ≤ s.rest.length - 1

/-- How many rounds there are makes no difference to the operators, if there are enough for the tokens. -/
theorem extendWithin_enough {α : Type} {step : α → Parser (Option α)} (progresses : Progresses step) (bound : List Token) :
    ∀ bound' a s, s.final.kind = .endOfFile → s.rest.length ≤ bound.length → s.rest.length ≤ bound'.length →
      extendWithin step bound a s = extendWithin step bound' a s := by
  have ended {s : State} (marked : s.final.kind = .endOfFile) (empty : s.rest = []) (a : α) :
      ∀ bound, extendWithin step bound a s = (some a,s) := by
    rintro (_ | ⟨token,bound⟩)
    · rfl
    · exact extendWithin_stop (progresses.ends a s marked empty)
  induction bound with
  | nil =>
    intro bound' a s marked enough _
    have empty := List.length_eq_zero_iff.mp (Nat.le_zero.mp enough)
    rw [ended marked empty,ended marked empty]
  | cons token bound ih =>
    intro bound' a s marked enough enough'
    cases bound' with
    | nil =>
      have empty := List.length_eq_zero_iff.mp (Nat.le_zero.mp enough')
      rw [ended marked empty,ended marked empty]
    | cons token' bound' =>
      rw [List.length_cons] at enough enough'
      rcases out : step a s with ⟨_ | _ | b,t⟩
      · rw [extendWithin_fault out,extendWithin_fault out]
      · rw [extendWithin_stop out,extendWithin_stop out]
      · obtain ⟨final,less⟩ := progresses.moves a s b t out
        rw [extendWithin_more out,extendWithin_more out]
        exact ih bound' b t (final ▸ marked) (by omega) (by omega)

section
variable {α : Type} {item : Parser α} {a : α}

theorem commaSeparatedWithin_fault (out : item s = (none,t)) (bound : List Token) :
    commaSeparatedWithin item bound s = (none,t) := by
  cases bound <;> exact bind_none out

theorem commaSeparatedWithin_last (out : item s = (some a,t)) (unseen : ¬ Begins .comma t.rest) (bound : List Token) :
    commaSeparatedWithin item bound s = (some [a],t) := by
  cases bound with
  | nil => exact bind_some out
  | cons token bound => exact (bind_some out).trans (bind_some (accept_missing unseen))

theorem commaSeparatedWithin_more {comma token : Token} {later bound : List Token} (out : item s = (some a,t))
    (tokens : t.rest = comma :: later) (isComma : comma.kind = .comma) :
    commaSeparatedWithin item (token :: bound) s =
      ((a :: ·) <$> commaSeparatedWithin item bound) { t with rest := later, last := comma } :=
  (bind_some out).trans (bind_some (accept_found tokens isComma))

/-- Nor does it to the items of a list with commas, each of which is a token. -/
theorem commaSeparatedWithin_enough (shrinks : ∀ s, (item s).2.rest.length ≤ s.rest.length) (bound : List Token) :
    ∀ bound' s, s.rest.length ≤ bound.length → s.rest.length ≤ bound'.length →
      commaSeparatedWithin item bound s = commaSeparatedWithin item bound' s := by
  induction bound with
  | nil =>
    intro bound' s enough _
    rcases out : item s with ⟨_ | a,t⟩
    · rw [commaSeparatedWithin_fault out,commaSeparatedWithin_fault out]
    · have few := shrinks s
      rw [out] at few
      have empty : t.rest = [] := List.length_eq_zero_iff.mp (Nat.le_zero.mp (few.trans enough))
      have unseen : ¬ Begins .comma t.rest := empty ▸ begins_nil .comma
      rw [commaSeparatedWithin_last out unseen,commaSeparatedWithin_last out unseen]
  | cons token bound ih =>
    intro bound' s enough enough'
    rcases out : item s with ⟨_ | a,t⟩
    · rw [commaSeparatedWithin_fault out,commaSeparatedWithin_fault out]
    · by_cases seen : Begins .comma t.rest
      · obtain ⟨comma,later,tokens,isComma⟩ := seen
        have few := shrinks s
        rw [out] at few
        have less : later.length < s.rest.length := by
          have few : t.rest.length ≤ s.rest.length := few
          rw [tokens] at few
          exact few
        rw [List.length_cons] at enough
        cases bound' with
        | nil => exact absurd (less.trans_le enough') (Nat.not_lt_zero _)
        | cons token' bound' =>
          rw [List.length_cons] at enough'
          rw [commaSeparatedWithin_more out tokens isComma,commaSeparatedWithin_more out tokens isComma,map_eq,map_eq,
            ih bound' { t with rest := later, last := comma } (Nat.le_of_lt_succ (less.trans_le enough))
              (Nat.le_of_lt_succ (less.trans_le enough'))]
      · rw [commaSeparatedWithin_last out seen,commaSeparatedWithin_last out seen]

end

/-- The rules among themselves, where no text comes behind. -/
abbrev Nested.Alone (inner : Nested) : Prop := inner.Moving ⟨.none,[],default⟩

theorem progresses_of_moves {step : Expr → Parser (Option Expr)}
    (moves : ∀ e, Moves ⟨.none,[],default⟩ False (fun next => next.isSome) (step e) (step (Movable.move Shift.none e)))
    (ends : ∀ e s, s.final.kind = .endOfFile → s.rest = [] → step e s = (some none,s)) : Progresses step where
  ends := ends
  moves e s b t out := by
    have moved := moves e s
    have less := moved.eaten out rfl
    have passed := moved.passed
    rw [out] at passed
    exact ⟨passed.final,less⟩

namespace Nested

variable {inner : Nested}

theorem suffixed_progresses (alone : inner.Alone) : Progresses inner.suffixed := by
  refine progresses_of_moves alone.suffixed fun e s _ empty => ?_
  have unseen (kind : Token.Kind) : s.sees kind = false := sees_eq_false (empty ▸ begins_nil kind)
  show (if s.sees .leftParen = true then _ else _ : Parser (Option Expr)) s = _
  rw [unseen,if_neg Bool.false_ne_true]
  show (if s.sees .leftBracket = true then _ else _ : Parser (Option Expr)) s = _
  rw [unseen,if_neg Bool.false_ne_true]
  rfl

theorem operand_progresses {op? : Token.Kind → Option BinaryOp} {tighter : Parser Expr}
    (moves : Moves ⟨.none,[],default⟩ False (fun _ => False) tighter tighter) (unmarked : op? .endOfFile = none) :
    Progresses (operand op? tighter) := by
  refine progresses_of_moves (operand_moves moves) fun e s marked empty => ?_
  rw [operand,look_bind,State.next,empty,List.headD_nil,marked,unmarked]
  rfl

theorem logicalOperand_progresses (alone : inner.Alone) : Progresses inner.logicalOperand := by
  refine progresses_of_moves alone.logicalOperand fun e s marked empty => ?_
  rw [logicalOperand,look_bind,State.next,empty,List.headD_nil,marked]
  rfl

/-- As many rounds are enough for the loops over operators and over lists with commas: more make no difference. -/
structure Enough (inner : Nested) (bound : List Token) (s : State) : Prop where
  suffixed : ∀ e, extendWithin inner.suffixed bound e s = extend inner.suffixed e s
  operands : ∀ tighter ∈ [inner.unaryRule,inner.factor,inner.term,inner.comparison], ∀ op?, op? .endOfFile = none →
    ∀ e, extendWithin (operand op? tighter) bound e s = extend (operand op? tighter) e s
  logical : ∀ e, extendWithin inner.logicalOperand bound e s = extend inner.logicalOperand e s
  arguments : commaSeparatedWithin inner.expression bound s = commaSeparated inner.expression s
  parameters : commaSeparatedWithin parameter bound s = commaSeparated parameter s

theorem level_enough (n : Nat) {bound : List Token} {s : State} (marked : s.final.kind = .endOfFile)
    (enough : s.rest.length ≤ bound.length) : (level n).Enough bound s := by
  have alone : (level n).Alone := level_moving _ n
  have same {step : Expr → Parser (Option Expr)} (progresses : Progresses step) (e : Expr) :
      extendWithin step bound e s = extend step e s :=
    extendWithin_enough progresses bound s.rest e s marked enough (Nat.le_refl _)
  refine ⟨same (suffixed_progresses alone),fun tighter member op? unmarked => same (operand_progresses ?_ unmarked),
    same (logicalOperand_progresses alone),?_,?_⟩
  · have factor : Moves ⟨.none,[],default⟩ False (fun _ => False) (level n).factor (level n).factor :=
      binaryLevel_moves alone.unaryRule
    have term : Moves ⟨.none,[],default⟩ False (fun _ => False) (level n).term (level n).term := binaryLevel_moves factor
    simp only [List.mem_cons,List.not_mem_nil,or_false] at member
    rcases member with rfl | rfl | rfl | rfl
    · exact alone.unaryRule
    · exact factor
    · exact term
    · exact binaryLevel_moves term
  · exact commaSeparatedWithin_enough (fun s => (alone.expression s).passed.shrinks) bound s.rest s enough (Nat.le_refl _)
  · have moves : Moves ⟨.none,[],default⟩ False (fun _ => False) parameter parameter := parameter_moves
    exact commaSeparatedWithin_enough (fun s => (moves s).passed.shrinks) bound s.rest s enough (Nat.le_refl _)

end Nested

end TurtleScript.Program
