import TurtleScript.Proofs.Levels
import TurtleScript.Proofs.Moving

/-!
Parsing a text among others. A setting (`Setting`) says how far a text is moved and which tokens come behind it.
As long as a parse has tokens of its own text left, nothing shows what comes behind them, and each step does in the
setting what it does without one (`Parser.Moves`). A parse that ends with its text does so too if what comes behind
could not have gone on it. There is a lemma for each step and each way of putting parsers together.
-/

namespace TurtleScript.Program

open Movable (move)

/-- Where a text is put: how much further on, in front of which tokens, and where the end behind them is. -/
structure Setting where
  shift : Shift
  behind : List Token
  final : Token

def State.within (s : State) (c : Setting) : State :=
  { s with
    rest := s.rest.map (Token.moved c.shift) ++ c.behind
    final := c.final
    last := s.last.moved c.shift
    problems := s.problems.map (Diagnostic.moved c.shift) }

/-- Nothing shows what comes behind the text: some of it is left, or nothing comes. -/
def Setting.Hidden (c : Setting) (s : State) : Prop :=
  s.rest ≠ [] ∨ (c.behind = [] ∧ c.final = s.final.moved c.shift)

variable {c : Setting} {s t : State}

theorem Setting.Hidden.before (hidden : c.Hidden t) (final : t.final = s.final)
    (shrinks : t.rest.length ≤ s.rest.length) : c.Hidden s := by
  rcases hidden with left | ⟨nothing,ends⟩
  · refine .inl fun empty => left ?_
    rw [empty] at shrinks
    exact List.length_eq_zero_iff.mp (Nat.le_zero.mp shrinks)
  · exact .inr ⟨nothing,final ▸ ends⟩

theorem next_within (hidden : c.Hidden s) : (s.within c).next = s.next.moved c.shift := by
  unfold State.next State.within
  cases tokens : s.rest with
  | nil =>
    obtain ⟨nothing,ends⟩ := hidden.resolve_left (absurd tokens)
    simp [nothing,ends]
  | cons token later => rfl

theorem sees_within (hidden : c.Hidden s) (kind : Token.Kind) : (s.within c).sees kind = s.sees kind := by
  unfold State.sees State.within
  cases tokens : s.rest with
  | nil =>
    obtain ⟨nothing,_⟩ := hidden.resolve_left (absurd tokens)
    simp [nothing]
  | cons token later => rfl

theorem atEnd_within (hidden : c.Hidden s) : (s.within c).atEnd = s.atEnd := by
  unfold State.atEnd State.within
  cases tokens : s.rest with
  | nil =>
    obtain ⟨nothing,_⟩ := hidden.resolve_left (absurd tokens)
    simp [nothing]
  | cons token later => rfl

theorem advance_within (hidden : c.Hidden s) : (s.within c).advance = s.advance.within c := by
  cases tokens : s.rest with
  | nil =>
    obtain ⟨nothing,_⟩ := hidden.resolve_left (absurd tokens)
    simp [State.advance,State.within,tokens,nothing]
  | cons token later => simp [State.advance,State.within,tokens]

theorem complain_within (s : State) (token : Token) (complaint : Complaint) :
    (s.within c).complain (token.moved c.shift) complaint = (s.complain token complaint).within c := by
  unfold State.complain State.within
  rw [List.map_append]
  rfl

theorem tooDeep_within (s : State) : (s.within c).tooDeep = s.tooDeep := rfl

theorem advance_shrinks (s : State) : s.advance.rest.length = s.rest.length - 1 := by
  unfold State.advance
  split <;> simp_all

theorem skipFrom_shrinks (last : Token) (rest : List Token) : (State.skipFrom last rest).2.length ≤ rest.length := by
  induction rest generalizing last with
  | nil => exact Nat.le_refl _
  | cons token rest ih =>
    unfold State.skipFrom
    split
    · exact Nat.le_refl _
    · exact Nat.le_succ_of_le (ih token)

theorem recover_shrinks (s : State) : s.recover.rest.length ≤ s.rest.length - 1 := by
  rw [← advance_shrinks]
  exact skipFrom_shrinks _ _

theorem skipFrom_within (last : Token) (rest : List Token)
    (hidden : (State.skipFrom last rest).2 ≠ [] ∨ c.behind = []) :
    State.skipFrom (last.moved c.shift) (rest.map (Token.moved c.shift) ++ c.behind) =
      ((State.skipFrom last rest).1.moved c.shift,
        (State.skipFrom last rest).2.map (Token.moved c.shift) ++ c.behind) := by
  induction rest generalizing last with
  | nil =>
    have nothing := hidden.resolve_left (absurd rfl)
    rw [nothing]
    rfl
  | cons token rest ih =>
    simp only [List.map_cons,List.cons_append,State.skipFrom] at hidden ⊢
    by_cases boundary : last.kind = .semicolon ∨ token.kind.startsStatement
    · have boundary' : (last.moved c.shift).kind = .semicolon ∨ (token.moved c.shift).kind.startsStatement := boundary
      rw [if_pos boundary,if_pos boundary']
      rfl
    · have boundary' : ¬ ((last.moved c.shift).kind = .semicolon ∨ (token.moved c.shift).kind.startsStatement) :=
        boundary
      rw [if_neg boundary] at hidden
      rw [if_neg boundary,if_neg boundary']
      exact ih token hidden

theorem recover_within (hidden : c.Hidden s.recover) : (s.within c).recover = s.recover.within c := by
  have shrinks := recover_shrinks s
  have before : c.Hidden s := hidden.before (Parser.recover_kept s).1 (by omega)
  have skips := skipFrom_within (c := c) s.advance.last s.advance.rest (hidden.imp_right fun ends => ends.1)
  unfold State.recover
  rw [advance_within before]
  simp only [State.within] at skips ⊢
  rw [skips]

namespace Parser

section
variable {α β : Type} {kind : Token.Kind}

def Needs (p : Parser α) : Prop := ∀ s a t, p s = (some a,t) → s.rest ≠ []

theorem begins_nil (kind : Token.Kind) : ¬ Begins kind [] := by
  rintro ⟨_,_,⟨⟩,_⟩

theorem needs_expect {complaint : Complaint} {g : Token → Parser β} : Needs (do g (← expect kind complaint)) := by
  intro s b t out empty
  rw [bind_none (expect_missing (empty ▸ begins_nil kind))] at out
  cases out

theorem needs_accept {g : Bool → Parser β} (needs : Needs (g false)) : Needs (do g (← accept kind)) := by
  intro s b t out empty
  rw [bind_some (accept_missing (empty ▸ begins_nil kind))] at out
  exact needs s b t out empty

end

/-- A parse has got from a state to another one, with a value or without one. The end is still where it was, no more
is left of the text, and where things nest too deeply no value is made. -/
structure Passed (s : State) (made : Bool) (t : State) : Prop where
  final : t.final = s.final
  shrinks : t.rest.length ≤ s.rest.length
  deep : t.tooDeep = s.tooDeep ∨ (made = false ∧ t.tooDeep = true)

theorem Passed.refl (s : State) (made : Bool) : Passed s made s := ⟨rfl,Nat.le_refl _,.inl rfl⟩

theorem Passed.tooDeep (passed : Passed s true t) : t.tooDeep = s.tooDeep :=
  passed.deep.resolve_right (by rintro ⟨⟨⟩,_⟩)

theorem Passed.trans {u : State} {made : Bool} (first : Passed s true t) (second : Passed t made u) :
    Passed s made u where
  final := second.final.trans first.final
  shrinks := second.shrinks.trans first.shrinks
  deep := second.deep.imp_left fun same => same.trans first.tooDeep

theorem passed_complain (s : State) (made : Bool) (token : Token) (complaint : Complaint) :
    Passed s made (s.complain token complaint) :=
  ⟨rfl,Nat.le_refl _,.inl rfl⟩

theorem passed_advance (s : State) : Passed s true s.advance := by
  unfold State.advance
  split
  · exact .refl s true
  · rename_i token rest tokens
    exact ⟨rfl,by simp [tokens],.inl rfl⟩

theorem Passed.recover (passed : Passed s false t) (shallow : t.tooDeep = false) : Passed s true t.recover := by
  have less := recover_shrinks t
  have few := passed.shrinks
  refine ⟨(recover_kept t).1.trans passed.final,by omega,.inl ?_⟩
  have same : t.tooDeep = s.tooDeep := passed.deep.resolve_right fun deep => by
    rw [shallow] at deep
    cases deep.2
  exact (passed_advance t).tooDeep.trans same

variable {α β : Type} {free : Prop}

/-- What comes behind has no say in an outcome: it is hidden, or, where a statement may end, there is a value. -/
def Covered (c : Setting) (free : Prop) (out : Option α × State) : Prop := c.Hidden out.2 ∨ (free ∧ out.1.isSome)

theorem Covered.faulty (covered : Covered (α := α) c free (none,t)) : c.Hidden t :=
  covered.resolve_right (by rintro ⟨_,⟨⟩⟩)

theorem Covered.inside {out : Option α × State} (covered : Covered c False out) : c.Hidden out.2 :=
  covered.resolve_right fun never => never.1

variable [Movable α] [Movable β]

/-- How a parser that starts from a state ends with and without a setting. It never leaves more of the text than there
was, and what comes behind makes no difference unless it has a say. -/
structure Moved (c : Setting) (free : Prop) (eats : α → Prop) (s : State) (out out' : Option α × State) : Prop where
  passed : Passed s out.1.isSome out.2
  /-- Some values are made of at least one token, if there is one. -/
  eats : ∀ a, out.1 = some a → eats a → out.2.rest.length ≤ s.rest.length - 1
  same : Covered c free out → out' = (out.1.map (move c.shift),out.2.within c)

/-- What a parser does, another one does in the setting. -/
def Moves (c : Setting) (free : Prop) (eats : α → Prop) (p p' : Parser α) : Prop :=
  ∀ s, Moved c free eats s (p s) (p' (s.within c))

variable {eats : α → Prop} {eats' : β → Prop} {p p' : Parser α} {f f' : α → Parser β}

theorem Moved.hidden {out out' : Option α × State} (moves : Moved c free eats s out out') (hidden : c.Hidden out.2) :
    c.Hidden s :=
  hidden.before moves.passed.final moves.passed.shrinks

theorem Moved.shrunk {result : Option α} {out' : Option α × State} (moves : Moved c free eats s (p s) out')
    (out : p s = (result,t)) : t.rest.length ≤ s.rest.length := by
  have less := moves.passed.shrinks
  rwa [out] at less

theorem Moved.eaten {a : α} {out' : Option α × State} (moves : Moved c free eats s (p s) out')
    (out : p s = (some a,t)) (eaten : eats a) : t.rest.length ≤ s.rest.length - 1 := by
  have less := moves.eats a (congrArg Prod.fst out) eaten
  rwa [out] at less

theorem Moves.weaken {free' : Prop} {less : α → Prop} (moves : Moves c free eats p p') (narrower : free' → free)
    (fewer : ∀ a, less a → eats a) : Moves c free' less p p' := by
  intro s
  have whole := moves s
  refine ⟨whole.passed,fun a made eaten => whole.eats a made (fewer a eaten),fun seen => whole.same ?_⟩
  exact seen.imp_right fun ⟨allowed,made⟩ => ⟨narrower allowed,made⟩

theorem Moves.inside (moves : Moves c free eats p p') : Moves c False eats p p' :=
  moves.weaken False.elim fun _ eaten => eaten

/-! ### One parser behind another -/

/-- A parser in front of one that makes no value of nothing makes none of it either. -/
theorem Moves.needs {γ : Type} {g : α → Parser γ} (moves : Moves c free eats p p') (needs : ∀ a, Needs (g a)) :
    Needs (p >>= g) := by
  intro s b t out empty
  obtain ⟨a,u,made,rest⟩ := bind_some_inv out
  have few := (moves s).shrunk made
  rw [empty] at few
  exact needs a u b t rest (List.length_eq_zero_iff.mp (Nat.le_zero.mp few))

/-- One parser behind another. Where the first may not end a statement, the second has to make its values of
something. -/
theorem Moved.bindOf {first : Prop} (one : Moved c first eats s (p s) (p' (s.within c)))
    (rest : ∀ a t, p s = (some a,t) → Moved c free eats' t (f a t) (f' (move c.shift a) (t.within c)))
    (covered : free → first ∨ ∀ a, Needs (f a)) :
    Moved c free eats' s ((p >>= f) s) ((p' >>= f') (s.within c)) := by
  rcases out : p s with ⟨_ | a,t⟩
  · rw [out] at one
    rw [bind_none out]
    refine ⟨one.passed,nofun,fun shown => ?_⟩
    have hidden := shown.faulty
    rw [bind_none (one.same (.inl hidden))]
    rfl
  · have two := rest a t out
    rw [out] at one
    rw [bind_some out]
    refine ⟨one.passed.trans two.passed,fun b made eaten => ?_,fun shown => ?_⟩
    · have less := two.eats b made eaten
      have few := one.passed.shrinks
      dsimp only at few
      omega
    · have reached : c.Hidden t ∨ first := by
        rcases shown with hidden | ⟨allowed,made⟩
        · exact .inl (two.hidden hidden)
        · rcases covered allowed with ends | needs
          · exact .inr ends
          · obtain ⟨b,made⟩ := Option.isSome_iff_exists.mp made
            exact .inl (.inl (needs a t b (f a t).2 (Prod.ext made rfl)))
      rw [bind_some (one.same (reached.imp_right fun ends => ⟨ends,rfl⟩))]
      exact two.same shown

theorem Moves.bindOf {first : Prop} (moves : Moves c first eats p p')
    (rest : ∀ a, Moves c free eats' (f a) (f' (move c.shift a)))
    (covered : free → first ∨ ∀ a, Needs (f a)) : Moves c free eats' (p >>= f) (p' >>= f') :=
  fun s => (moves s).bindOf (fun a t _ => rest a t) covered

theorem Moves.bind (moves : Moves c free eats p p') (rest : ∀ a, Moves c free eats' (f a) (f' (move c.shift a))) :
    Moves c free eats' (p >>= f) (p' >>= f') :=
  moves.bindOf rest .inl

theorem Moves.then (moves : Moves c False eats p p') (rest : ∀ a, Moves c free eats' (f a) (f' (move c.shift a)))
    (needs : ∀ a, Needs (f a)) : Moves c free eats' (p >>= f) (p' >>= f') :=
  moves.bindOf rest fun _ => .inr needs

theorem moves_pure {a a' : α} (same : a' = move c.shift a) :
    Moves c free (fun _ => False) (pure a : Parser α) (pure a') := by
  intro s
  refine ⟨.refl s true,fun _ _ => False.elim,fun _ => ?_⟩
  rw [same]
  rfl

theorem Moves.map {g g' : α → β} (moves : Moves c free eats p p')
    (same : ∀ a, g' (move c.shift a) = move c.shift (g a)) :
    Moves c free (fun _ => False) (g <$> p) (g' <$> p') :=
  moves.bind fun a => moves_pure (same a)

theorem moves_fail (complaint : Complaint) : Moves c free eats (fail complaint) (fail complaint : Parser α) := by
  intro s
  refine ⟨passed_complain s false s.next complaint,nofun,fun seen => ?_⟩
  have hidden : c.Hidden s := seen.faulty
  unfold fail
  rw [next_within hidden,complain_within]
  rfl

theorem moves_complain (token : Token) (complaint : Complaint) :
    Moves c free (fun _ => False) (change (·.complain token complaint))
      (change (·.complain (token.moved c.shift) complaint)) := by
  intro s
  refine ⟨passed_complain s true token complaint,fun _ _ => False.elim,fun _ => ?_⟩
  exact congrArg (Prod.mk (some ())) (complain_within s token complaint)

theorem moves_look {h h' : State → α} (same : ∀ s : State, h' (s.within c) = move c.shift (h s))
    (rest : ∀ a, Moves c free eats' (f a) (f' (move c.shift a))) :
    Moves c free eats' (do f (← look h)) (do f' (← look h')) := by
  intro s
  have later := rest (h s) s
  rw [← same s] at later
  exact later

theorem moves_next {g g' : Token → Parser β} (rest : ∀ token, Moves c False eats' (g token) (g' (move c.shift token))) :
    Moves c False eats' (do g (← look State.next)) (do g' (← look State.next)) := by
  intro s
  have later := rest s.next s
  refine ⟨later.passed,later.eats,fun seen => ?_⟩
  have hidden := seen.inside
  have ahead : (s.within c).next = move c.shift s.next := next_within (later.hidden hidden)
  show g' (s.within c).next (s.within c) = _
  rw [ahead]
  exact later.same seen

theorem moves_sees {kind : Token.Kind} {g g' : Bool → Parser β} (rest : ∀ seen, Moves c False eats' (g seen) (g' seen)) :
    Moves c False eats' (do g (← sees kind)) (do g' (← sees kind)) := by
  intro s
  have later := rest (s.sees kind) s
  refine ⟨later.passed,later.eats,fun seen => ?_⟩
  have hidden := seen.inside
  show g' ((s.within c).sees kind) (s.within c) = _
  rw [sees_within (later.hidden hidden)]
  exact later.same seen

theorem moves_advance {g g' : Unit → Parser β} (rest : Moves c False (fun _ => False) (g ()) (g' ())) :
    Moves c False eats' (do g (← advance)) (do g' (← advance)) := by
  intro s
  show Moved c False eats' s (g () s.advance) (g' () (s.within c).advance)
  have later := rest s.advance
  have one := advance_shrinks s
  have few := later.passed.shrinks
  refine ⟨(passed_advance s).trans later.passed,fun a _ _ => by omega,fun seen => ?_⟩
  have hidden := seen.inside
  rw [advance_within ((later.hidden hidden).before (passed_advance s).final (passed_advance s).shrinks)]
  exact later.same seen

theorem Moved.behind {token : Token} {later : List Token} (tokens : s.rest = token :: later)
    {out out' : Option β × State}
    (rest : Moved c free (fun _ => False) { s with rest := later, last := token } out out') :
    Moved c free eats' s out out' := by
  have few := rest.passed.shrinks
  have one : s.rest.length = later.length + 1 := congrArg List.length tokens
  dsimp only at few
  exact ⟨⟨rest.passed.final,by omega,rest.passed.deep⟩,fun _ _ _ => by omega,rest.same⟩

theorem rest_within {token : Token} {later : List Token} (tokens : s.rest = token :: later) (c : Setting) :
    (s.within c).rest = token.moved c.shift :: (later.map (Token.moved c.shift) ++ c.behind) := by
  simp [State.within,tokens]

theorem begins_within (hidden : c.Hidden s) (kind : Token.Kind) : Begins kind (s.within c).rest ↔ Begins kind s.rest := by
  rw [← sees_iff,← sees_iff,sees_within hidden]

/-- A token is accepted in the setting just if it is without one. At the end of the text, nothing that could be
accepted may come behind where a statement ends. -/
theorem moved_accept {kind : Token.Kind} {g g' : Bool → Parser β}
    (found : ∀ token later, s.rest = token :: later → Moved c free (fun _ => False) { s with rest := later, last := token }
      (g true { s with rest := later, last := token }) (g' true ({ s with rest := later, last := token }.within c)))
    (missing : Moved c free eats' s (g false s) (g' false (s.within c)))
    (closed : free → Needs (g false) ∨ ¬ Begins kind c.behind) :
    Moved c free eats' s ((do g (← accept kind)) s) ((do g' (← accept kind)) (s.within c)) := by
  by_cases seen : Begins kind s.rest
  · obtain ⟨token,later,tokens,isKind⟩ := seen
    rw [bind_some (accept_found tokens isKind),bind_some (accept_found (rest_within tokens c) isKind)]
    exact (found token later tokens).behind tokens
  · rw [bind_some (accept_missing seen)]
    refine ⟨missing.passed,missing.eats,fun shown => ?_⟩
    have covered : c.Hidden s ∨ (s.rest = [] ∧ ¬ Begins kind c.behind) := by
      rcases shown with hidden | ⟨allowed,made⟩
      · exact .inl (missing.hidden hidden)
      · by_cases empty : s.rest = []
        · obtain ⟨b,made⟩ := Option.isSome_iff_exists.mp made
          refine (closed allowed).elim (fun needs => ?_) fun other => .inr ⟨empty,other⟩
          exact absurd empty (needs s b (g false s).2 (Prod.ext made rfl))
        · exact .inl (.inl empty)
    have unseen : ¬ Begins kind (s.within c).rest := by
      rcases covered with hidden | ⟨empty,other⟩
      · rwa [begins_within hidden]
      · simpa [State.within,empty] using other
    rw [bind_some (accept_missing unseen)]
    exact missing.same shown

theorem moves_accept {kind : Token.Kind} {g g' : Bool → Parser β}
    (found : Moves c free (fun _ => False) (g true) (g' true)) (missing : Moves c free eats' (g false) (g' false))
    (closed : free → Needs (g false) ∨ ¬ Begins kind c.behind) :
    Moves c free eats' (do g (← accept kind)) (do g' (← accept kind)) :=
  fun s => moved_accept (fun _ _ _ => found _) (missing s) closed

theorem moves_expect {kind : Token.Kind} {complaint : Complaint} {g g' : Token → Parser β}
    (rest : ∀ token, Moves c free (fun _ => False) (g token) (g' (move c.shift token))) :
    Moves c free eats' (do g (← expect kind complaint)) (do g' (← expect kind complaint)) := by
  intro s
  by_cases seen : Begins kind s.rest
  · obtain ⟨token,later,tokens,isKind⟩ := seen
    rw [bind_some (expect_found tokens isKind),bind_some (expect_found (rest_within tokens c) isKind)]
    exact (rest token { s with rest := later, last := token }).behind tokens
  · rw [bind_none (expect_missing seen)]
    refine ⟨passed_complain s false s.next complaint,nofun,fun shown => ?_⟩
    have hidden : c.Hidden s := shown.faulty
    rw [← begins_within hidden] at seen
    rw [bind_none (expect_missing seen),next_within hidden,complain_within]
    rfl

theorem moves_choose {first : Prop} {b : Parser Bool} {q q' : Parser α}
    (choice : Moves c first (fun _ => False) (do if ← b then p else q) (do if ← b then p' else q'))
    (rest : ∀ a, Moves c free eats' (f a) (f' (move c.shift a))) (covered : free → first ∨ ∀ a, Needs (f a)) :
    Moves c free eats'
      (do
        let a ← if ← b then p else q
        f a)
      (do
        let a ← if ← b then p' else q'
        f' a) := by
  rw [choose_bind,choose_bind]
  exact choice.bindOf rest covered

/-! ### Nesting -/

theorem overflown_within (hidden : c.Hidden s) : overflown (s.within c) = (overflown s).within c := by
  unfold overflown
  rw [next_within hidden]
  exact complain_within { s with tooDeep := true } s.next .nesting

theorem moved_overflown (s : State) : Moved c free eats s (none,overflown s) (none,overflown (s.within c)) := by
  refine ⟨⟨rfl,Nat.le_refl _,.inr ⟨rfl,rfl⟩⟩,nofun,fun shown => ?_⟩
  have hidden : c.Hidden s := shown.faulty
  rw [overflown_within hidden]
  rfl

theorem Moved.level {out out' : Option α × State} {depth : Nat}
    (moves : Moved c free eats { s with depth := depth } out out') : Moved c free eats s out out' :=
  ⟨⟨moves.passed.final,moves.passed.shrinks,moves.passed.deep⟩,moves.eats,moves.same⟩

theorem moves_deepen {g g' : Unit → Parser β} (rest : Moves c free eats' (g ()) (g' ())) :
    Moves c free eats' (do g (← deepen)) (do g' (← deepen)) := by
  intro s
  by_cases full : maxNesting ≤ s.depth
  · rw [bind_none (deepen_full full),bind_none (deepen_full (s := s.within c) full)]
    exact moved_overflown s
  · rw [bind_some (deepen_free full),bind_some (deepen_free (s := s.within c) full)]
    exact (rest { s with depth := s.depth + 1 }).level

theorem Moved.levelled {out out' : Option α × State} (moves : Moved c free eats s out out') (depth : Nat) :
    Moved c free eats s (out.1,{ out.2 with depth := depth }) (out'.1,{ out'.2 with depth := depth }) := by
  refine ⟨⟨moves.passed.final,moves.passed.shrinks,moves.passed.deep⟩,moves.eats,fun shown => ?_⟩
  rw [moves.same shown]
  rfl

theorem Moves.nested (moves : Moves c free eats p p') : Moves c free eats (nested p) (nested p') := by
  intro s
  by_cases full : maxNesting ≤ s.depth
  · rw [nested_full full,nested_full (s := s.within c) full]
    exact moved_overflown s
  · have inside := moves { s with depth := s.depth + 1 }
    rcases out : p { s with depth := s.depth + 1 } with ⟨result,t⟩
    rcases out' : p' ({ s with depth := s.depth + 1 }.within c) with ⟨result',t'⟩
    rw [out,out'] at inside
    rw [nested_free full out,nested_free (s := s.within c) full out']
    exact inside.level.levelled s.depth

theorem Moves.levelled (moves : Moves c False eats p p') : Moves c False eats (levelled p) (levelled p') := by
  intro s
  have whole := moves s
  rcases out : p s with ⟨_ | a,t⟩
  · rw [out] at whole
    rw [levelled_none out]
    refine ⟨whole.passed,whole.eats,fun shown => ?_⟩
    exact levelled_none (whole.same shown)
  · rw [out] at whole
    rw [levelled_some out]
    refine ⟨⟨whole.passed.final,whole.passed.shrinks,whole.passed.deep⟩,whole.eats,fun shown => ?_⟩
    exact levelled_some (whole.same shown)

/-- The rounds that are left in a setting for those left without one: there are as many more as tokens behind. -/
def Rounds (c : Setting) (bound bound' : List Token) (s : State) : Prop :=
  s.rest.length ≤ bound.length ∧ bound'.length = bound.length + c.behind.length

theorem rounds_start (c : Setting) (s : State) : Rounds c s.rest (s.within c).rest s :=
  ⟨Nat.le_refl _,by simp [State.within]⟩

theorem Rounds.goesOn {token : Token} {bound bound' : List Token} (rounds : Rounds c (token :: bound) bound' s) :
    ∃ token' later, bound' = token' :: later := by
  obtain ⟨_,more⟩ := rounds
  cases bound' with
  | nil =>
    rw [List.length_nil,List.length_cons] at more
    omega
  | cons token' later => exact ⟨token',later,rfl⟩

theorem Rounds.less {token token' : Token} {bound bound' : List Token}
    (rounds : Rounds c (token :: bound) (token' :: bound') s) (shrinks : t.rest.length ≤ s.rest.length - 1) :
    Rounds c bound bound' t := by
  obtain ⟨enough,more⟩ := rounds
  rw [List.length_cons] at enough more
  rw [List.length_cons] at more
  exact ⟨by omega,by omega⟩

/-- Without rounds left there is nothing left of the text, so what is hidden behind it is nothing. -/
theorem Rounds.spent {bound' : List Token} (rounds : Rounds c [] bound' s) (hidden : c.Hidden s) : bound' = [] := by
  obtain ⟨enough,more⟩ := rounds
  have empty : s.rest = [] := List.length_eq_zero_iff.mp (Nat.le_zero.mp enough)
  obtain ⟨nothing,_⟩ := hidden.resolve_left (absurd empty)
  rw [nothing] at more
  exact List.length_eq_zero_iff.mp more

/-- A repetition takes the same steps in the setting, since each of them consumes something. -/
theorem moved_extendWithin {step step' : α → Parser (Option α)}
    (steps : ∀ a, Moves c False (fun next => next.isSome) (step a) (step' (move c.shift a))) (bound : List Token) :
    ∀ bound' s a, Rounds c bound bound' s →
      Moved c False (fun _ => False) s (extendWithin step bound a s)
        (extendWithin step' bound' (move c.shift a) (s.within c)) := by
  induction bound with
  | nil =>
    intro bound' s a rounds
    refine ⟨.refl s true,fun _ _ => False.elim,fun shown => ?_⟩
    rw [rounds.spent shown.inside]
    rfl
  | cons token bound ih =>
    intro bound' s a rounds
    obtain ⟨token',bound',rfl⟩ := rounds.goesOn
    refine (steps a s).bindOf (fun next t out => ?_) False.elim
    cases next with
    | none => exact moves_pure rfl t
    | some b => exact ih bound' t b (rounds.less ((steps a s).eaten out rfl))

theorem moves_extend {step step' : α → Parser (Option α)}
    (steps : ∀ a, Moves c False (fun next => next.isSome) (step a) (step' (move c.shift a))) (a : α) :
    Moves c False (fun _ => False) (extend step a) (extend step' (move c.shift a)) :=
  fun s => moved_extendWithin steps s.rest (s.within c).rest s a (rounds_start c s)

theorem moved_commaSeparatedWithin {item item' : Parser α} (items : Moves c False eats item item')
    (bound : List Token) : ∀ bound' s, Rounds c bound bound' s →
      Moved c False (fun _ => False) s (commaSeparatedWithin item bound s)
        (commaSeparatedWithin item' bound' (s.within c)) := by
  induction bound with
  | nil =>
    intro bound' s rounds
    have alone : ∀ a : α, Moves c False (fun _ => False) (pure [a]) (pure [move c.shift a]) :=
      fun a => moves_pure rfl
    have single : Moved c False (fun _ => False) s ((do return [← item]) s) ((do return [← item']) (s.within c)) :=
      items.bind alone s
    refine ⟨single.passed,fun _ _ => False.elim,fun shown => ?_⟩
    rw [rounds.spent (single.hidden shown.inside)]
    exact single.same shown
  | cons token bound ih =>
    intro bound' s rounds
    obtain ⟨token',bound',rfl⟩ := rounds.goesOn
    refine (items s).bindOf (fun a t out => ?_) False.elim
    refine moved_accept (fun comma later tokens => ?_) (moves_pure rfl t) False.elim
    have few := (items s).shrunk out
    rw [tokens,List.length_cons] at few
    have left : Rounds c bound bound' { t with rest := later, last := comma } := rounds.less (by
      dsimp only
      omega)
    exact (ih bound' _ left).bindOf (fun values u _ => moves_pure rfl u) False.elim

theorem Moves.commaSeparated {item item' : Parser α} (items : Moves c False eats item item') :
    Moves c False (fun _ => False) (commaSeparated item) (commaSeparated item') :=
  fun s => moved_commaSeparatedWithin items s.rest (s.within c).rest s (rounds_start c s)

/-- Items are made of the same tokens in the setting, and behind a faulty one parsing goes on at the same
boundary. -/
theorem moved_manyWithin {stop : State → Bool} {item item' : Parser α}
    (items : Moves c False (fun _ => True) item item')
    (stops : ∀ s, c.Hidden s → stop (s.within c) = stop s) (bound : List Token) : ∀ bound' s, Rounds c bound bound' s →
      Moved c False (fun _ => False) s (manyWithin stop item bound s) (manyWithin stop item' bound' (s.within c)) := by
  induction bound with
  | nil =>
    intro bound' s rounds
    refine ⟨.refl s true,fun _ _ => False.elim,fun shown => ?_⟩
    rw [rounds.spent shown.inside]
    rfl
  | cons token bound ih =>
    intro bound' s rounds
    obtain ⟨token',bound',rfl⟩ := rounds.goesOn
    have one := items s
    cases stopped : stop s with
    | true =>
      rw [manyWithin_stop stopped]
      refine ⟨.refl s true,fun _ _ => False.elim,fun shown => ?_⟩
      have hidden : c.Hidden s := shown.inside
      rw [manyWithin_stop ((stops s hidden).trans stopped)]
      rfl
    | false =>
      have goesOn : c.Hidden s → stop (s.within c) = false := fun hidden => (stops s hidden).trans stopped
      rcases out : item s with ⟨_ | a,t⟩
      · have few := one.shrunk out
        have less := recover_shrinks t
        rw [out] at one
        rw [manyWithin_fault stopped out]
        have faulty : c.Hidden t → item' (s.within c) = (none,t.within c) := fun hidden => one.same (.inl hidden)
        cases deep : t.tooDeep with
        | true =>
          rw [if_pos rfl]
          refine ⟨one.passed,nofun,fun shown => ?_⟩
          have hidden : c.Hidden t := shown.inside
          rw [manyWithin_fault (goesOn (one.hidden hidden)) (faulty hidden),tooDeep_within,if_pos deep]
          rfl
        | false =>
          rw [if_neg Bool.false_ne_true]
          have two := ih bound' t.recover (rounds.less (by omega))
          refine ⟨(one.passed.recover deep).trans two.passed,fun _ _ => False.elim,fun shown => ?_⟩
          have later := two.hidden shown.inside
          have hidden : c.Hidden t := later.before (recover_kept t).1 (by omega)
          rw [manyWithin_fault (goesOn (one.hidden hidden)) (faulty hidden),tooDeep_within,deep,
            if_neg Bool.false_ne_true,recover_within later]
          exact two.same shown
      · have less := one.eaten out trivial
        rw [out] at one
        rw [manyWithin_item stopped out]
        have two : Moved c False (fun _ => False) t (((a :: ·) <$> manyWithin stop item bound) t)
            (((move c.shift a :: ·) <$> manyWithin stop item' bound') (t.within c)) :=
          (ih bound' t (rounds.less less)).bindOf (fun values u _ => moves_pure rfl u) False.elim
        refine ⟨one.passed.trans two.passed,fun _ _ => False.elim,fun shown => ?_⟩
        have hidden := two.hidden shown.inside
        rw [manyWithin_item (goesOn (one.hidden hidden)) (one.same (.inl hidden))]
        exact two.same shown

theorem Moves.many {stop : State → Bool} {item item' : Parser α} (items : Moves c False (fun _ => True) item item')
    (stops : ∀ s, c.Hidden s → stop (s.within c) = stop s) :
    Moves c False (fun _ => False) (many stop item) (many stop item') :=
  fun s => moved_manyWithin items stops s.rest (s.within c).rest s (rounds_start c s)

end Parser

end TurtleScript.Program
