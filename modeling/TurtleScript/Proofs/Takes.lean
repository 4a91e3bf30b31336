import TurtleScript.Proofs.Reads

/-!
What parsers take. `Parser.Takes` says of a parser that wherever certain tokens are next, with tokens
behind them that allow it to stop there, it takes just these and makes a value of them that passes a
check, or else it gives up because things nest too deeply. Room is how many nesting levels the rules
inside the parser have; together with the count of the levels around it, it reaches the cap. There is a
lemma for each step and each way of putting parsers together, as there is for `Parser.Reads`.
-/

namespace TurtleScript.Program.Parser

variable {α β : Type}

/-- A state that a parse has got to from another one without a problem, with the given tokens left. -/
structure Reached (s : State) (rest : List Token) (t : State) : Prop where
  rest : t.rest = rest
  problems : t.problems = s.problems
  final : t.final = s.final
  depth : s.depth ≤ t.depth

/-- A state with the end of the text marked, in which the levels around and those there is room for reach
the cap. -/
structure Ready (room : Nat) (s : State) : Prop where
  ended : s.final.kind = .endOfFile
  reaches : maxNesting ≤ s.depth + room

theorem Reached.ready {s t : State} {room : Nat} {rest : List Token} (reached : Reached s rest t)
    (ready : Ready room s) : Ready room t where
  ended := by
    rw [reached.final]
    exact ready.ended
  reaches := Nat.le_trans ready.reaches (Nat.add_le_add_right reached.depth room)

theorem Reached.trans {s t u : State} {mid rest : List Token} (first : Reached s mid t)
    (second : Reached t rest u) : Reached s rest u where
  rest := second.rest
  problems := second.problems.trans first.problems
  final := second.final.trans first.final
  depth := Nat.le_trans first.depth second.depth

/-- The parse was given up because things nest too deeply, which is one more problem. -/
def Overflows (s : State) (out : Option α × State) : Prop :=
  ∃ t d, out = (none,t) ∧ t.tooDeep = true ∧ t.problems = s.problems ++ [d] ∧
    d.message = Complaint.nesting.message

/-- The parse has got to a value that passes the check, with the given tokens left, or was given up
because things nest too deeply. -/
def Parses (s : State) (rest : List Token) (check : α → Prop) (out : Option α × State) : Prop :=
  (∃ a t, out = (some a,t) ∧ Reached s rest t ∧ check a) ∨ Overflows s out

/-- With as many nesting levels inside as there is room for, the parser takes the tokens if they are next
and those behind them follow. -/
def Takes (p : Parser α) (room : Nat) (ts : List Token) (follow : List Token → Prop) (check : α → Prop) : Prop :=
  ∀ s rest, Ready room s → s.rest = ts ++ rest → follow rest → Parses s rest check (p s)

variable {room : Nat} {ts us : List Token} {follow between : List Token → Prop} {check : α → Prop}
  {checked : β → Prop}

theorem Overflows.from {s t : State} {out : Option α × State} (problems : t.problems = s.problems)
    (overflows : Overflows t out) : Overflows s out := by
  obtain ⟨u,d,same,deep,more,message⟩ := overflows
  exact ⟨u,d,same,deep,by rw [more,problems],message⟩

theorem Parses.from {s t : State} {mid rest : List Token} {out : Option α × State} (reached : Reached s mid t)
    (parses : Parses t rest check out) : Parses s rest check out := by
  rcases parses with ⟨a,u,same,later,passes⟩ | overflows
  · exact .inl ⟨a,u,same,reached.trans later,passes⟩
  · exact .inr (overflows.from reached.problems)

theorem Takes.weaken {p : Parser α} {passes : α → Prop} {allowed : List Token → Prop}
    (takes : Takes p room ts follow check) (looser : ∀ rest, allowed rest → follow rest)
    (weaker : ∀ a, check a → passes a) : Takes p room ts allowed passes := by
  intro s rest ready tokens follows
  rcases takes s rest ready tokens (looser rest follows) with ⟨a,t,same,reached,holds⟩ | overflows
  · exact .inl ⟨a,t,same,reached,weaker a holds⟩
  · exact .inr overflows

theorem takes_pure {a : α} (passes : check a) : Takes (pure a) room [] follow check := by
  intro s rest _ tokens _
  exact .inl ⟨a,s,rfl,⟨tokens,rfl,rfl,Nat.le_refl _⟩,passes⟩

/-- One parser behind another, with the tokens of the second allowed behind those of the first. -/
theorem Takes.bind {p : Parser α} {f : α → Parser β} (first : Takes p room ts between check)
    (second : ∀ a, check a → Takes (f a) room us follow checked)
    (fits : ∀ rest, follow rest → between (us ++ rest)) : Takes (p >>= f) room (ts ++ us) follow checked := by
  intro s rest ready tokens follows
  have split : s.rest = ts ++ (us ++ rest) := by rw [tokens,List.append_assoc]
  rcases first s (us ++ rest) ready split (fits rest follows) with
    ⟨a,t,same,reached,passes⟩ | ⟨t,d,same,deep,problems,message⟩
  · rw [bind_some same]
    exact (second a passes t rest (reached.ready ready) reached.rest follows).from reached
  · rw [bind_none same]
    exact .inr ⟨t,d,rfl,deep,problems,message⟩

theorem Takes.last {p : Parser α} {f : α → Parser β} (takes : Takes p room ts follow check)
    (nothing : ∀ a, check a → Takes (f a) room [] follow checked) : Takes (p >>= f) room ts follow checked := by
  have whole := takes.bind nothing fun rest follows => follows
  rwa [List.append_nil] at whole

theorem Takes.map {p : Parser α} (takes : Takes p room ts follow check) {f : α → β}
    (passes : ∀ a, check a → checked (f a)) : Takes (f <$> p) room ts follow checked :=
  takes.last fun a holds => takes_pure (passes a holds)

theorem takes_look {f : State → α} {g : α → Parser β} (takes : ∀ a, Takes (g a) room ts follow checked) :
    Takes (do g (← look f)) room ts follow checked :=
  fun s rest ready tokens follows => takes (f s) s rest ready tokens follows

theorem takes_next {g : Token → Parser β} {token : Token}
    (takes : Takes (g token) room (token :: ts) follow checked) :
    Takes (do g (← look State.next)) room (token :: ts) follow checked := by
  intro s rest ready tokens follows
  have step : (do g (← look State.next)) s = g s.next s := rfl
  rw [step,next_of_rest tokens]
  exact takes s rest ready tokens follows

theorem parses_behind {token : Token} {p : Parser β} (takes : Takes p room ts follow checked) {s : State}
    {rest : List Token} (ready : Ready room s) (follows : follow rest) :
    Parses s rest checked (p { s with rest := ts ++ rest, last := token }) := by
  have reached : Reached s (ts ++ rest) { s with rest := ts ++ rest, last := token } :=
    ⟨rfl,rfl,rfl,Nat.le_refl _⟩
  exact (takes _ rest (reached.ready ready) rfl follows).from reached

theorem takes_advance {f : Unit → Parser β} {token : Token} (takes : Takes (f ()) room ts follow checked) :
    Takes (do f (← advance)) room (token :: ts) follow checked := by
  intro s rest ready tokens follows
  have step : (do f (← advance)) s = f () s.advance := rfl
  rw [step,advance_of_rest tokens]
  exact parses_behind takes ready follows

theorem takes_expect {kind : Token.Kind} {complaint : Complaint} {g : Token → Parser β} {token : Token}
    (isKind : token.kind = kind) (takes : Takes (g token) room ts follow checked) :
    Takes (do g (← expect kind complaint)) room (token :: ts) follow checked := by
  intro s rest ready tokens follows
  rw [bind_some (expect_found tokens isKind)]
  exact parses_behind takes ready follows

theorem takes_sees {kind : Token.Kind} {g : Bool → Parser β}
    (seen : ∀ rest, follow rest → Begins kind (ts ++ rest)) (takes : Takes (g true) room ts follow checked) :
    Takes (do g (← sees kind)) room ts follow checked := by
  intro s rest ready tokens follows
  have step : (do g (← sees kind)) s = g (s.sees kind) s := rfl
  have begins := seen rest follows
  rw [← tokens] at begins
  rw [step,sees_iff.mpr begins]
  exact takes s rest ready tokens follows

theorem takes_unseen {kind : Token.Kind} {g : Bool → Parser β}
    (unseen : ∀ rest, follow rest → ¬ Begins kind (ts ++ rest)) (takes : Takes (g false) room ts follow checked) :
    Takes (do g (← sees kind)) room ts follow checked := by
  intro s rest ready tokens follows
  have step : (do g (← sees kind)) s = g (s.sees kind) s := rfl
  have other := unseen rest follows
  rw [← tokens] at other
  rw [step,sees_eq_false other]
  exact takes s rest ready tokens follows

theorem takes_accept {kind : Token.Kind} {g : Bool → Parser β} {token : Token} (isKind : token.kind = kind)
    (takes : Takes (g true) room ts follow checked) :
    Takes (do g (← accept kind)) room (token :: ts) follow checked := by
  intro s rest ready tokens follows
  rw [bind_some (accept_found tokens isKind)]
  exact parses_behind takes ready follows

theorem takes_unaccepted {kind : Token.Kind} {g : Bool → Parser β}
    (unseen : ∀ rest, follow rest → ¬ Begins kind (ts ++ rest)) (takes : Takes (g false) room ts follow checked) :
    Takes (do g (← accept kind)) room ts follow checked := by
  intro s rest ready tokens follows
  have other := unseen rest follows
  rw [← tokens] at other
  rw [bind_some (accept_missing other)]
  exact takes s rest ready tokens follows

theorem takes_choose {c : Parser Bool} {p q : Parser α} {f : α → Parser β} (between : List Token → Prop)
    (check : α → Prop) (choice : Takes (do if ← c then p else q) room ts between check)
    (rest : ∀ a, check a → Takes (f a) room us follow checked)
    (fits : ∀ rest, follow rest → between (us ++ rest)) :
    Takes (do
      let a ← if ← c then p else q
      f a) room (ts ++ us) follow checked := by
  rw [choose_bind]
  exact choice.bind rest fits

theorem overflows_overflown (s : State) : Overflows (α := α) s (none,overflown s) := ⟨_,_,rfl,rfl,rfl,rfl⟩

theorem takes_deepen {f : Unit → Parser β} (takes : Takes (f ()) room ts follow checked) :
    Takes (do f (← deepen)) room ts follow checked := by
  intro s rest ready tokens follows
  by_cases full : maxNesting ≤ s.depth
  · rw [bind_none (deepen_full full)]
    exact .inr (overflows_overflown s)
  · have reached : Reached s s.rest { s with depth := s.depth + 1 } := ⟨rfl,rfl,rfl,Nat.le_succ _⟩
    rw [bind_some (deepen_free full)]
    exact (takes { s with depth := s.depth + 1 } rest (reached.ready ready) tokens follows).from reached

/-- One level deeper there is room for one level less. If there were none, the cap would be reached. -/
theorem takes_nested {p : Parser α} (takes : ∀ fewer, room = fewer + 1 → Takes p fewer ts follow check) :
    Takes (nested p) room ts follow check := by
  intro s rest ready tokens follows
  by_cases full : maxNesting ≤ s.depth
  · rw [nested_full full]
    exact .inr (overflows_overflown s)
  · have reaches := ready.reaches
    obtain ⟨fewer,rfl⟩ : ∃ fewer, room = fewer + 1 := ⟨room - 1,by omega⟩
    have ready' : Ready fewer { s with depth := s.depth + 1 } := by
      refine ⟨ready.ended,?_⟩
      show maxNesting ≤ s.depth + 1 + fewer
      omega
    rcases takes fewer rfl { s with depth := s.depth + 1 } rest ready' tokens follows with
      ⟨a,t,same,reached,passes⟩ | ⟨t,d,same,deep,problems,message⟩
    · rw [nested_free full same]
      exact .inl ⟨a,_,rfl,⟨reached.rest,reached.problems,reached.final,Nat.le_refl _⟩,passes⟩
    · rw [nested_free full same]
      exact .inr ⟨_,d,rfl,deep,problems,message⟩

theorem takes_levelled {p : Parser α} (takes : Takes p room ts follow check) :
    Takes (levelled p) room ts follow check := by
  intro s rest ready tokens follows
  rcases takes s rest ready tokens follows with
    ⟨a,t,same,reached,passes⟩ | ⟨t,d,same,deep,problems,message⟩
  · rw [levelled_some same]
    exact .inl ⟨a,_,rfl,⟨reached.rest,reached.problems,reached.final,Nat.le_refl _⟩,passes⟩
  · rw [levelled_none same]
    exact .inr ⟨t,d,rfl,deep,problems,message⟩

/-! ### Repetition -/

/-- A repetition that has taken the tokens and stands at a value that passes the check, with rounds left
for the tokens behind, or was given up because things nest too deeply. -/
def Loops (first : Parser α) (step : α → Parser (Option α)) (room : Nat) (ts : List Token)
    (follow : List Token → Prop) (check : α → Prop) : Prop :=
  ∀ s rest, Ready room s → s.rest = ts ++ rest → follow rest →
    (∃ a t bound, (do extend step (← first)) s = extendWithin step bound a t ∧ Reached s rest t ∧
      rest.length ≤ bound.length ∧ check a) ∨ Overflows s ((do extend step (← first)) s)

variable {first : Parser α} {step : α → Parser (Option α)} {allowed : List Token → Prop}

theorem loops_first (takes : Takes first room ts follow check) : Loops first step room ts follow check := by
  intro s rest ready tokens follows
  rcases takes s rest ready tokens follows with
    ⟨a,t,same,reached,passes⟩ | ⟨t,d,same,deep,problems,message⟩
  · exact .inl ⟨a,t,t.rest,bind_some same,reached,Nat.le_of_eq (congrArg List.length reached.rest.symm),passes⟩
  · exact .inr ⟨t,d,bind_none same,deep,problems,message⟩

theorem Loops.more {passes : α → Prop} (loops : Loops first step room ts between check)
    (takes : ∀ a, check a → Takes (step a) room us follow fun next => ∃ b, next = some b ∧ passes b)
    (consumes : us ≠ []) (fits : ∀ rest, follow rest → between (us ++ rest)) :
    Loops first step room (ts ++ us) follow passes := by
  intro s rest ready tokens follows
  have split : s.rest = ts ++ (us ++ rest) := by rw [tokens,List.append_assoc]
  rcases loops s (us ++ rest) ready split (fits rest follows) with
    ⟨a,t,bound,same,reached,enough,holds⟩ | overflows
  · have consumed : 0 < us.length := List.length_pos_iff.mpr consumes
    rw [List.length_append] at enough
    obtain ⟨token,bound,rfl⟩ : ∃ token later, bound = token :: later := by
      cases bound with
      | nil =>
        rw [List.length_nil] at enough
        omega
      | cons token later => exact ⟨token,later,rfl⟩
    rw [List.length_cons] at enough
    rw [same]
    rcases takes a holds t rest (reached.ready ready) reached.rest follows with
      ⟨_,u,out,later,b,rfl,good⟩ | ⟨u,d,out,deep,problems,message⟩
    · rw [extendWithin_more out]
      exact .inl ⟨b,u,bound,rfl,reached.trans later,by omega,good⟩
    · rw [extendWithin_fault out]
      refine .inr ⟨u,d,rfl,deep,?_,message⟩
      rw [problems,reached.problems]
  · exact .inr overflows

theorem Loops.done (loops : Loops first step room ts between check)
    (nothing : ∀ a, Takes (step a) room [] follow fun next => next = none)
    (fits : ∀ rest, follow rest → between rest) :
    Takes (do extend step (← first)) room ts follow check := by
  intro s rest ready tokens follows
  rcases loops s rest ready tokens (fits rest follows) with
    ⟨a,t,bound,same,reached,_,passes⟩ | overflows
  · rw [same]
    cases bound with
    | nil => exact .inl ⟨a,t,rfl,reached,passes⟩
    | cons token bound =>
      have stops := nothing a t rest (reached.ready ready) reached.rest follows
      refine Parses.from reached ?_
      rcases stops with ⟨_,u,out,later,rfl⟩ | ⟨u,d,out,deep,problems,message⟩
      · rw [extendWithin_stop out]
        exact .inl ⟨a,u,rfl,later,passes⟩
      · rw [extendWithin_fault out]
        exact .inr ⟨u,d,rfl,deep,problems,message⟩
  · exact .inr overflows

theorem separated_first {first : List Token} {later : List (List Token)}
    (separated : Separated (first :: later) us) : ∃ tail, us = first ++ tail := by
  cases separated with
  | one => exact ⟨[],(List.append_nil _).symm⟩
  | more => exact ⟨_,rfl⟩

theorem separated_length {texts : List (List Token)} (separated : Separated texts us) :
    texts.length ≤ us.length + 1 := by
  induction separated with
  | none => simp
  | one ts => simp
  | more first _ _ ih =>
    simp only [List.length_cons,List.length_append] at ih ⊢
    omega

section
variable {item : Parser α} {view : α → β}

/-- Items with commas between them are taken one by one, if a comma may stand behind each and whatever
stands behind the last is none. -/
theorem takes_commaSeparatedWithin (comma : ∀ rest, Begins .comma rest → follow rest)
    (close : ∀ rest, allowed rest → follow rest ∧ ¬ Begins .comma rest) :
    ∀ (items : List (List Token × β)) (bound us : List Token), items ≠ [] → items.length ≤ bound.length + 1 →
      (∀ i ∈ items, Takes item room i.1 follow fun a => view a = i.2) → Separated (items.map Prod.fst) us →
        Takes (commaSeparatedWithin item bound) room us allowed fun values => values.map view = items.map Prod.snd
  | [],_,_,filled,_,_,_ => absurd rfl filled
  | [i],bound,us,_,_,each,separated => by
    cases separated
    have takes := (each i List.mem_cons_self).weaken (fun rest allow => (close rest allow).1) fun _ same => same
    have ends : ∀ a, view a = i.2 → Takes (pure [a]) room [] allowed
        (fun values : List α => values.map view = [i].map Prod.snd) := by
      intro a same
      exact takes_pure (by simp [same])
    rw [← List.append_nil i.1]
    cases bound with
    | nil => exact takes.bind ends fun rest allow => allow
    | cons token bound =>
      refine takes.bind (fun a same => ?_) fun rest allow => allow
      refine takes_unaccepted (fun rest allow => (close rest allow).2) ?_
      exact ends a same
  | i :: j :: items,[],_,_,short,_,_ => by simp at short
  | i :: j :: items,_ :: bound,us,_,short,each,separated => by
    cases separated with
    | more _ isComma rest =>
      have later := takes_commaSeparatedWithin comma close (j :: items) bound _ (by simp) (by simpa using short)
        (fun k member => each k (List.mem_cons_of_mem _ member)) rest
      refine (each i List.mem_cons_self).bind (fun a same => takes_accept isComma ?_)
        fun rest _ => comma _ ⟨_,_,rfl,isComma⟩
      exact later.map fun values rest => by simp [same,rest]

theorem takes_commaSeparated (view : α → β) (follow : List Token → Prop)
    (comma : ∀ rest, Begins .comma rest → follow rest)
    (close : ∀ rest, allowed rest → follow rest ∧ ¬ Begins .comma rest) {items : List (List Token × β)}
    (filled : items ≠ []) (each : ∀ i ∈ items, Takes item room i.1 follow fun a => view a = i.2)
    (separated : Separated (items.map Prod.fst) us) :
    Takes (commaSeparated item) room us allowed fun values => values.map view = items.map Prod.snd := by
  intro s rest ready tokens allow
  refine takes_commaSeparatedWithin comma close items s.rest us filled ?_ each separated s rest ready tokens allow
  have short := separated_length separated
  rw [tokens,List.length_append]
  rw [List.length_map] at short
  omega

/-- Items are taken one by one up to the stop, if each begins with a token that may stand behind an item
and that is no stop. -/
theorem takes_manyWithin {stop : State → Bool} {opens : Token.Kind → Prop}
    (goes : ∀ (s : State) token later, s.rest = token :: later → opens token.kind → stop s = false)
    (continues : ∀ token later, opens token.kind → follow (token :: later))
    (close : ∀ rest, allowed rest → follow rest) (stops : ∀ s : State, allowed s.rest → stop s = true) :
    ∀ (items : List (List Token × β)) (bound : List Token),
      (∀ i ∈ items, Takes item room i.1 follow fun a => view a = i.2) →
      (∀ i ∈ items, ∃ token later, i.1 = token :: later ∧ opens token.kind) →
      (items.map Prod.fst).flatten.length ≤ bound.length →
        Takes (manyWithin stop item bound) room (items.map Prod.fst).flatten allowed
          fun values => values.map view = items.map Prod.snd
  | [],[],_,_,_ => takes_pure rfl
  | [],token :: bound,_,_,_ => by
    intro s rest ready tokens allow
    have left : s.rest = rest := tokens
    have stopped : stop s = true := by
      refine stops s ?_
      rw [left]
      exact allow
    rw [manyWithin_stop stopped]
    exact .inl ⟨[],s,rfl,⟨left,rfl,rfl,Nat.le_refl _⟩,rfl⟩
  | i :: items,[],_,begins,short => by
    obtain ⟨token,later,text,_⟩ := begins i List.mem_cons_self
    simp [text] at short
  | i :: items,bounded :: bound,each,begins,short => by
    obtain ⟨token,later,text,isOpening⟩ := begins i List.mem_cons_self
    have remaining := takes_manyWithin goes continues close stops items bound
      (fun j member => each j (List.mem_cons_of_mem _ member))
      (fun j member => begins j (List.mem_cons_of_mem _ member)) (by
        simp only [List.map_cons,List.flatten_cons,List.length_append,List.length_cons,text] at short
        omega)
    intro s rest ready tokens allow
    have split : s.rest = i.1 ++ ((items.map Prod.fst).flatten ++ rest) := by
      rw [tokens,List.map_cons,List.flatten_cons,List.append_assoc]
    have goesOn : stop s = false := by
      rw [text] at split
      exact goes s token _ split isOpening
    have follows : follow ((items.map Prod.fst).flatten ++ rest) := by
      cases items with
      | nil => exact close rest allow
      | cons j items =>
        obtain ⟨next,behind,text',isOpening'⟩ := begins j (by simp)
        simp only [List.map_cons,List.flatten_cons,text']
        exact continues next _ isOpening'
    rcases each i List.mem_cons_self s _ ready split follows with
      ⟨a,t,out,reached,same⟩ | ⟨t,d,out,deep,problems,message⟩
    · rw [manyWithin_item goesOn out]
      refine ((remaining.map fun values later => ?_) t rest (reached.ready ready) reached.rest allow).from reached
      simp [same,later]
    · rw [manyWithin_fault goesOn out,if_pos deep]
      exact .inr ⟨t,d,rfl,deep,problems,message⟩

theorem takes_many {stop : State → Bool} (view : α → β) (opens : Token.Kind → Prop) (follow : List Token → Prop)
    (goes : ∀ (s : State) token later, s.rest = token :: later → opens token.kind → stop s = false)
    (continues : ∀ token later, opens token.kind → follow (token :: later))
    (close : ∀ rest, allowed rest → follow rest) (stops : ∀ s : State, allowed s.rest → stop s = true)
    {items : List (List Token × β)} (each : ∀ i ∈ items, Takes item room i.1 follow fun a => view a = i.2)
    (begins : ∀ i ∈ items, ∃ token later, i.1 = token :: later ∧ opens token.kind) :
    Takes (many stop item) room (items.map Prod.fst).flatten allowed
      fun values => values.map view = items.map Prod.snd := by
  intro s rest ready tokens allow
  refine takes_manyWithin goes continues close stops items s.rest each begins ?_ s rest ready tokens allow
  rw [tokens,List.length_append]
  exact Nat.le_add_right _ _

end

end TurtleScript.Program.Parser
