import TurtleScript.Proofs.Charging
import TurtleScript.Proofs.Reads

/-!
What parsers make of the tokens they have just consumed. A rule takes its spans from the token that it stands behind,
so what `Parser.Reads` says of the tokens read is not enough here: `Parser.Lays` also tells the token consumed last
before the parser began, and a look at the last token later on is one at the end of what was consumed in between
(`Went`). As there, a lemma for each step and each way of putting parsers together carries what is to hold at the end
from the last step to the first.
-/

namespace TurtleScript.Program

namespace Parser

variable {α β : Type} {s t : State}

/-- Where a parse has got to from a state: it has gone forward, and unless it found a problem it has a value that
satisfies the relation with the token consumed last before, those consumed since and those left. -/
def Landed (s : State) (S : Token → List Token → α → List Token → Prop) (out : Option α × State) : Prop :=
  ∃ used found, Went s out.2 used found ∧ (found = [] → ∃ a, out.1 = some a ∧ S s.last used a out.2.rest)

/-- What a parser makes of the tokens it consumes satisfies the relation, unless it finds a problem. -/
def Lays (p : Parser α) (S : Token → List Token → α → List Token → Prop) : Prop :=
  ∀ s : State, s.final.kind = .endOfFile → Landed s S (p s)

variable {R S : Token → List Token → α → List Token → Prop} {T : Token → List Token → β → List Token → Prop}
  {p q : Parser α}

/-- Where a parse has got to from behind some tokens, it has got to from in front of them. -/
theorem Landed.from {out : Option α × State} (landed : Landed t R out) {u : List Token} (went : Went s t u [])
    (holds : ∀ used a rest, t.rest = used ++ rest → R t.last used a rest → S s.last (u ++ used) a rest) :
    Landed s S out := by
  obtain ⟨used,found,further,made⟩ := landed
  refine ⟨u ++ used,found,went.trans further,fun clean => ?_⟩
  obtain ⟨a,value,laid⟩ := made clean
  exact ⟨a,value,holds used a out.2.rest further.rest laid⟩

theorem landed_value {a : α} (holds : S s.last [] a s.rest) : Landed s S (some a,s) :=
  ⟨[],[],.refl s,fun _ => ⟨a,rfl,holds⟩⟩

theorem landed_complaint (s : State) (token : Token) (complaint : Complaint) (result : Option α) :
    Landed s S (result,s.complain token complaint) :=
  ⟨[],_,went_complain s token complaint,nofun⟩

theorem landed_overflown (s : State) : Landed s S (none,overflown s) := ⟨[],_,went_overflown s,nofun⟩

theorem Landed.depth {n m : Nat} {result : Option α} (landed : Landed { s with depth := n } S (result,t)) :
    Landed s S (result,{ t with depth := m }) := by
  obtain ⟨used,found,went,made⟩ := landed
  exact ⟨used,found,⟨went.rest,went.last,went.final,went.problems⟩,made⟩

theorem Lays.weaken (lays : Lays p R) (weaker : ∀ before used a rest, R before used a rest → S before used a rest) :
    Lays p S :=
  fun s ended => (lays s ended).from (.refl s) fun used a rest _ => weaker s.last used a rest

/-- One parser behind another: what the second lays, behind the last token of the first, is to satisfy the relation
together with whatever the first has laid in front of it. -/
theorem Lays.bind {f : α → Parser β} (first : Lays p R)
    (second : ∀ a, Lays (f a) fun middle used b rest =>
      ∀ before u, middle = u.getLastD before → R before u a (used ++ rest) → T before (u ++ used) b rest) :
    Lays (p >>= f) T := by
  intro s ended
  obtain ⟨u,found,went,made⟩ := first s ended
  rcases out : p s with ⟨_ | a,t⟩
  · rw [out] at went made
    rw [bind_none out]
    refine ⟨u,found,went,fun clean => ?_⟩
    obtain ⟨a,value,_⟩ := made clean
    cases value
  · rw [out] at went made
    rw [bind_some out]
    have ended' : t.final.kind = .endOfFile := by
      rw [show t.final = s.final from went.final]
      exact ended
    obtain ⟨used,later,further,made'⟩ := second a t ended'
    refine ⟨u ++ used,found ++ later,went.trans further,fun clean => ?_⟩
    obtain ⟨none,none'⟩ := List.append_eq_nil_iff.mp clean
    obtain ⟨_,value,laid⟩ := made none
    obtain ⟨b,value',holds⟩ := made' none'
    cases value
    have rest : t.rest = used ++ (f a t).2.rest := further.rest
    exact ⟨b,value',holds s.last u went.last (rest ▸ laid)⟩

theorem lays_pure {a : α} (holds : ∀ before rest, S before [] a rest) : Lays (pure a : Parser α) S :=
  fun s _ => landed_value (holds s.last s.rest)

theorem Lays.map (lays : Lays p R) (f : α → β) :
    Lays (f <$> p) fun before used b rest => ∃ a, b = f a ∧ R before used a rest := by
  refine lays.bind fun a => lays_pure fun middle rest before u _ laid => ?_
  rw [List.append_nil]
  exact ⟨a,rfl,laid⟩

theorem lays_fail (complaint : Complaint) : Lays (fail complaint : Parser α) S :=
  fun s _ => landed_complaint s s.next complaint none

theorem lays_complain (token : Token) (complaint : Complaint) {T : Token → List Token → Unit → List Token → Prop} :
    Lays (change (·.complain token complaint)) T :=
  fun s _ => landed_complaint s token complaint (some ())

theorem lays_last {g : Token → Parser β}
    (rest : ∀ token, Lays (g token) fun before used b rest => token = before → T before used b rest) :
    Lays (do g (← last)) T :=
  fun s ended => (rest s.last s ended).from (.refl s) fun _ _ _ _ holds => holds rfl

theorem lays_spanFrom {start : Span} {g : Span → Parser β}
    (rest : ∀ span, Lays (g span) fun before used b rest => span = start.join before.span → T before used b rest) :
    Lays (do g (← spanFrom start)) T :=
  fun s ended => (rest (start.join s.last.span) s ended).from (.refl s) fun _ _ _ _ holds => holds rfl

theorem lays_sees {kind : Token.Kind} (yes : Lays p S) (no : Lays q S) : Lays (do if ← sees kind then p else q) S := by
  intro s ended
  have step : (do if ← sees kind then p else q) s = (if s.sees kind then p else q) s := rfl
  rw [step]
  split
  · exact yes s ended
  · exact no s ended

theorem lays_next {g : Token → Parser β}
    (rest : ∀ token, Lays (g token) fun before used b rest => Ahead token (used ++ rest) → T before used b rest) :
    Lays (do g (← look State.next)) T := by
  intro s ended
  refine (rest s.next s ended).from (.refl s) fun used b rest whole holds => holds ?_
  rw [← whole]
  exact ahead_next ended

theorem lays_advance {f : Unit → Parser β}
    (rest : Lays (f ()) fun middle used b rest => (∀ before token, middle = token → T before (token :: used) b rest) ∧
      (used ++ rest = [] → T middle used b rest)) :
    Lays (do f (← advance)) T := by
  intro s ended
  have step : (do f (← advance)) s = f () s.advance := rfl
  rw [step]
  cases tokens : s.rest with
  | nil =>
    rw [advance_of_nil tokens]
    refine (rest s ended).from (.refl s) fun used b rest whole holds => holds.2 ?_
    rw [← whole]
    exact tokens
  | cons token later =>
    rw [advance_of_rest tokens]
    exact (rest { s with rest := later, last := token } ended).from (went_token tokens)
      fun used b rest _ holds => holds.1 s.last token rfl

theorem lays_expect {kind : Token.Kind} {complaint : Complaint} {g : Token → Parser β}
    (rest : ∀ token, token.kind = kind →
      Lays (g token) fun middle used b rest => middle = token → ∀ before, T before (token :: used) b rest) :
    Lays (do g (← expect kind complaint)) T := by
  intro s ended
  by_cases seen : Begins kind s.rest
  · obtain ⟨token,later,tokens,isKind⟩ := seen
    rw [bind_some (expect_found tokens isKind)]
    exact (rest token isKind { s with rest := later, last := token } ended).from (went_token tokens)
      fun used b rest _ holds => holds rfl s.last
  · rw [bind_none (expect_missing seen)]
    exact landed_complaint s _ _ none

theorem lays_accept {kind : Token.Kind} {g : Bool → Parser β}
    (yes : ∀ token, token.kind = kind →
      Lays (g true) fun middle used b rest => middle = token → ∀ before, T before (token :: used) b rest)
    (no : Lays (g false) T) :
    Lays (do g (← accept kind)) T := by
  intro s ended
  by_cases seen : Begins kind s.rest
  · obtain ⟨token,later,tokens,isKind⟩ := seen
    rw [bind_some (accept_found tokens isKind)]
    exact (yes token isKind { s with rest := later, last := token } ended).from (went_token tokens)
      fun used b rest _ holds => holds rfl s.last
  · rw [bind_some (accept_missing seen)]
    exact no s ended

theorem lays_choose {c : Parser Bool} {f : α → Parser β} (choice : Lays (do if ← c then p else q) R)
    (rest : ∀ a, Lays (f a) fun middle used b rest =>
      ∀ before u, middle = u.getLastD before → R before u a (used ++ rest) → T before (u ++ used) b rest) :
    Lays (do
      let a ← if ← c then p else q
      f a) T := by
  rw [choose_bind]
  exact choice.bind rest

/-! ### Nesting -/

theorem lays_deepen {f : Unit → Parser β} (rest : Lays (f ()) T) : Lays (do f (← deepen)) T := by
  intro s ended
  by_cases full : maxNesting ≤ s.depth
  · rw [bind_none (deepen_full full)]
    exact landed_overflown s
  · rw [bind_some (deepen_free full)]
    exact (rest { s with depth := s.depth + 1 } ended).depth

theorem Lays.nested (lays : Lays p S) : Lays (nested p) S := by
  intro s ended
  by_cases full : maxNesting ≤ s.depth
  · rw [nested_full full]
    exact landed_overflown s
  · have whole := lays { s with depth := s.depth + 1 } ended
    rcases out : p { s with depth := s.depth + 1 } with ⟨result,t⟩
    rw [out] at whole
    rw [nested_free full out]
    exact whole.depth

theorem Lays.levelled (lays : Lays p S) : Lays (levelled p) S := by
  intro s ended
  have whole := lays s ended
  rcases out : p s with ⟨_ | a,t⟩
  · rw [out] at whole
    rw [levelled_none out]
    exact whole
  · rw [out] at whole
    rw [levelled_some out]
    exact whole.depth

section
variable {E : List Token → α → Prop}

theorem lays_extend {step : α → Parser (Option α)} (keeps : ∀ a, Lays (step a) fun _ used next _ => Carries E a used next)
    (a : α) : Lays (extend step a) fun _ used b _ => ∀ u, E u a → E (u ++ used) b := by
  have within : ∀ (bound : List Token) (a : α),
      Lays (extendWithin step bound a) fun _ used b _ => ∀ u, E u a → E (u ++ used) b := by
    intro bound
    induction bound with
    | nil =>
      refine fun a => lays_pure fun _ _ u holds => ?_
      rwa [List.append_nil]
    | cons _ bound ih =>
      refine fun a => (keeps a).bind fun next => ?_
      cases next with
      | none =>
        refine lays_pure fun _ _ _ u _ nothing v holds => ?_
        rwa [show u = [] from nothing,List.append_nil,List.append_nil]
      | some b =>
        refine (ih b).weaken fun _ used c _ later _ u _ carried v holds => ?_
        rw [← List.append_assoc]
        exact later (v ++ u) (carried v holds)
  exact fun s ended => within s.rest a s ended

theorem Lays.extend {step : α → Parser (Option α)} (lays : Lays p fun _ used a _ => E used a)
    (keeps : ∀ a, Lays (step a) fun _ used next _ => Carries E a used next) :
    Lays (do extend step (← p)) fun _ used b _ => E used b :=
  lays.bind fun a => (lays_extend keeps a).weaken fun _ _ _ _ extended _ u _ holds => extended u holds

theorem Lays.commaSeparated (lays : Lays p fun _ used a _ => E used a) :
    Lays (commaSeparated p) fun _ used values _ => ∃ texts, Each E values texts ∧ Separated texts used := by
  have within : ∀ bound : List Token, Lays (commaSeparatedWithin p bound) fun _ used values _ =>
      ∃ first later, Each E values (first :: later) ∧ Separated (first :: later) used := by
    intro bound
    induction bound with
    | nil =>
      refine lays.bind fun a => lays_pure fun _ _ _ u _ holds => ?_
      rw [List.append_nil]
      exact ⟨u,[],(Each.nil E).cons holds,.one u⟩
    | cons _ bound ih =>
      refine lays.bind fun a => lays_accept (fun comma isComma => ?_) ?_
      · rw [if_pos rfl]
        refine ih.bind fun values => lays_pure fun _ _ _ used _ listed _ _ _ u _ holds => ?_
        obtain ⟨next,later,each,separated⟩ := listed
        rw [List.append_nil]
        exact ⟨u,next :: later,each.cons holds,.more u isComma separated⟩
      · rw [if_neg Bool.false_ne_true]
        refine lays_pure fun _ _ _ u _ holds => ?_
        rw [List.append_nil]
        exact ⟨u,[],(Each.nil E).cons holds,.one u⟩
  intro s ended
  refine (within s.rest).weaken (fun _ used values _ => ?_) s ended
  rintro ⟨first,later,listed⟩
  exact ⟨first :: later,listed⟩

/-- Items up to a stop stand one behind the other. A faulty one leaves a problem, and nothing is said then. -/
theorem Lays.many (lays : Lays p fun _ used a _ => E used a) (stop : State → Bool) :
    Lays (many stop p) fun _ used values _ => ∃ texts, Each E values texts ∧ used = texts.flatten := by
  have within : ∀ bound : List Token, Lays (manyWithin stop p bound) fun _ used values _ =>
      ∃ texts, Each E values texts ∧ used = texts.flatten := by
    intro bound
    induction bound with
    | nil => exact lays_pure fun _ _ => ⟨[],.nil E,rfl⟩
    | cons token bound ih =>
      intro s ended
      cases goesOn : stop s with
      | true =>
        rw [manyWithin_stop goesOn]
        exact landed_value ⟨[],.nil E,rfl⟩
      | false =>
        rcases out : p s with ⟨_ | a,t⟩
        · have faulty := lays s ended
          rw [out] at faulty
          obtain ⟨used,found,went,made⟩ := faulty
          have problem : found ≠ [] := fun clean => by
            obtain ⟨a,value,_⟩ := made clean
            cases value
          rw [manyWithin_fault goesOn out]
          split
          · exact ⟨used,found,went,fun clean => absurd clean problem⟩
          · obtain ⟨skipped,recovered,_⟩ := went_recover t
            have before := went.trans recovered
            have ended' : t.recover.final.kind = .endOfFile := by
              rw [before.final]
              exact ended
            obtain ⟨more,later,further,_⟩ := ih t.recover ended'
            refine ⟨_,_,before.trans further,fun clean => absurd ?_ problem⟩
            exact (List.append_eq_nil_iff.mp (List.append_eq_nil_iff.mp clean).1).1
        · have item : Lays (p >>= fun a => (fun values => a :: values) <$> manyWithin stop p bound)
              fun _ used values _ => ∃ texts, Each E values texts ∧ used = texts.flatten := by
            refine lays.bind fun a => (ih.map _).weaken fun _ used values _ others _ u _ holds => ?_
            obtain ⟨later,rfl,texts,each,rfl⟩ := others
            exact ⟨u :: texts,each.cons holds,rfl⟩
          have whole := item s ended
          rw [bind_some out] at whole
          rw [manyWithin_item goesOn out]
          exact whole
  exact fun s ended => within s.rest s ended

end

end Parser

end TurtleScript.Program
