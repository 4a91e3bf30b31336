import TurtleScript.Program.Parser

/-!
What each step of a parse does, as an equation for each of the ways it can go. The rest of the theory of
parsers (`Parser.Reads`, `Parser.Takes`) opens no step but through these.
-/

namespace TurtleScript.Program

def Begins (kind : Token.Kind) (rest : List Token) : Prop :=
  ∃ token later, rest = token :: later ∧ token.kind = kind

theorem begins_cons {kind : Token.Kind} {token : Token} {rest : List Token}
    (begins : Begins kind (token :: rest)) : token.kind = kind := by
  obtain ⟨first,later,same,isKind⟩ := begins
  rw [(List.cons.inj same).1]
  exact isKind

theorem begins_unique {kind other : Token.Kind} {rest : List Token} (begins : Begins kind rest)
    (begins' : Begins other rest) : kind = other := by
  obtain ⟨token,later,rfl,rfl⟩ := begins
  exact begins_cons begins'

namespace Parser

theorem sees_iff {s : State} {kind : Token.Kind} : s.sees kind = true ↔ Begins kind s.rest := by
  unfold State.sees Begins
  cases s.rest with
  | nil => simp
  | cons token later => simp

theorem sees_eq_false {s : State} {kind : Token.Kind} (unseen : ¬ Begins kind s.rest) : s.sees kind = false := by
  rw [← Bool.not_eq_true,sees_iff]
  exact unseen

theorem next_of_rest {s : State} {token : Token} {later : List Token} (tokens : s.rest = token :: later) :
    s.next = token := by
  unfold State.next
  rw [tokens]
  rfl

theorem advance_of_rest {s : State} {token : Token} {later : List Token} (tokens : s.rest = token :: later) :
    s.advance = { s with rest := later, last := token } := by
  simp only [State.advance,tokens]

theorem advance_of_nil {s : State} (nothing : s.rest = []) : s.advance = s := by
  simp only [State.advance,nothing]

theorem recover_kept (s : State) : s.recover.final = s.final ∧ s.recover.problems = s.problems := by
  unfold State.recover State.advance
  cases s.rest <;> exact ⟨rfl,rfl⟩

variable {α β : Type} {p : Parser α} {f : α → Parser β} {s t : State}

theorem bind_some {a : α} (out : p s = (some a,t)) : (p >>= f) s = f a t := by
  show andThen p f s = _
  simp only [andThen,out]

theorem bind_none (out : p s = (none,t)) : (p >>= f) s = (none,t) := by
  show andThen p f s = _
  simp only [andThen,out]

theorem choose_bind (c : Parser Bool) (p q : Parser α) (f : α → Parser β) :
    (do
      let a ← if ← c then p else q
      f a) = ((do if ← c then p else q : Parser α) >>= f) := by
  funext s
  show andThen c (fun b => if b then andThen p f else andThen q f) s =
    andThen (andThen c fun b => if b then p else q) f s
  unfold andThen
  rcases c s with ⟨_ | _ | _,t⟩ <;> rfl

section
variable {kind : Token.Kind} {complaint : Complaint} {token : Token} {later : List Token}

theorem expect_found (tokens : s.rest = token :: later) (isKind : token.kind = kind) :
    expect kind complaint s = (some token,{ s with rest := later, last := token }) := by
  have sees : s.sees kind = true := sees_iff.mpr ⟨token,later,tokens,isKind⟩
  simp only [expect,sees,if_true,next_of_rest tokens,advance_of_rest tokens]

theorem expect_missing (unseen : ¬ Begins kind s.rest) :
    expect kind complaint s = (none,s.complain s.next complaint) := by
  simp [expect,sees_eq_false unseen,fail]

theorem accept_found (tokens : s.rest = token :: later) (isKind : token.kind = kind) :
    accept kind s = (some true,{ s with rest := later, last := token }) := by
  have sees : s.sees kind = true := sees_iff.mpr ⟨token,later,tokens,isKind⟩
  simp only [accept,sees,if_true,advance_of_rest tokens]

theorem accept_missing (unseen : ¬ Begins kind s.rest) : accept kind s = (some false,s) := by
  simp [accept,sees_eq_false unseen]

end

/-- The state after a complaint that things nest too deeply. -/
def overflown (s : State) : State := { s with tooDeep := true }.complain s.next .nesting

theorem deepen_full (full : maxNesting ≤ s.depth) : deepen s = (none,overflown s) := by
  simp [deepen,full,fail,overflown,State.next]

theorem deepen_free (free : ¬ maxNesting ≤ s.depth) : deepen s = (some (),{ s with depth := s.depth + 1 }) := by
  simp [deepen,free]

theorem nested_full (full : maxNesting ≤ s.depth) : nested p s = (none,overflown s) := by
  simp only [nested,deepen_full full]

theorem nested_free (free : ¬ maxNesting ≤ s.depth) {result : Option α}
    (out : p { s with depth := s.depth + 1 } = (result,t)) : nested p s = (result,{ t with depth := s.depth }) := by
  simp only [nested,deepen_free free,out]

theorem levelled_some {a : α} (out : p s = (some a,t)) : levelled p s = (some a,{ t with depth := s.depth }) := by
  simp only [levelled,out]

theorem levelled_none (out : p s = (none,t)) : levelled p s = (none,t) := by
  simp only [levelled,out]

section
variable {stop : State → Bool} {token : Token} {bound : List Token}

theorem manyWithin_stop (stopped : stop s = true) : manyWithin stop p (token :: bound) s = (some [],s) := by
  simp only [manyWithin,stopped,if_true]

theorem manyWithin_item {a : α} (goesOn : stop s = false) (out : p s = (some a,t)) :
    manyWithin stop p (token :: bound) s = ((fun values => a :: values) <$> manyWithin stop p bound) t := by
  show _ = andThen (manyWithin stop p bound) (fun values => succeed (a :: values)) t
  simp only [manyWithin,goesOn,out]
  rfl

theorem manyWithin_fault (goesOn : stop s = false) (out : p s = (none,t)) :
    manyWithin stop p (token :: bound) s =
      if t.tooDeep then (none,t) else manyWithin stop p bound t.recover := by
  simp only [manyWithin,goesOn,out]
  rfl

end

variable {step : α → Parser (Option α)} {token : Token} {bound : List Token} {a : α}

theorem extendWithin_more {b : α} (out : step a s = (some (some b),t)) :
    extendWithin step (token :: bound) a s = extendWithin step bound b t :=
  bind_some out

theorem extendWithin_stop (out : step a s = (some none,t)) : extendWithin step (token :: bound) a s = (some a,t) :=
  bind_some out

theorem extendWithin_fault (out : step a s = (none,t)) : extendWithin step (token :: bound) a s = (none,t) :=
  bind_none out

end Parser

end TurtleScript.Program
