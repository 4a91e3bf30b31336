import TurtleScript.Proofs.Derivation
import TurtleScript.Proofs.ParserSteps

/-!
What parsers read. `Parser.Reads` says of a parser what holds of the tokens it reads without finding a
problem, of the value it makes of them and of the tokens behind them; a parser that gives up has found a
problem, and no problem is ever forgotten. There is a lemma for each step and each way of putting parsers
together; what is to hold at the end is carried through them from the last step to the first.
-/

namespace TurtleScript.Program

namespace Parser

variable {α β : Type}

/-- Where a parser has got to from a state: there is a problem, or there was none before and the parser
has a value that the tokens it read and the tokens behind them satisfy the relation with. -/
def Found (s : State) (S : List Token → α → List Token → Prop) (out : Option α × State) : Prop :=
  out.2.final = s.final ∧ (out.2.problems ≠ [] ∨ ∃ a used, out.1 = some a ∧ s.problems = [] ∧
    s.rest = used ++ out.2.rest ∧ S used a out.2.rest)

/-- What a parser reads satisfies the relation, unless it finds a problem. -/
def Reads (p : Parser α) (S : List Token → α → List Token → Prop) : Prop :=
  ∀ s, s.final.kind = .endOfFile → Found s S (p s)

variable {S R : List Token → α → List Token → Prop} {T : List Token → β → List Token → Prop}

theorem Found.from {s t : State} {out : Option α × State} (found : Found t R out) {u : List Token}
    (final : t.final = s.final) (problems : t.problems = s.problems) (rest : s.rest = u ++ t.rest)
    (holds : ∀ used a rest, t.rest = used ++ rest → R used a rest → S (u ++ used) a rest) : Found s S out := by
  obtain ⟨ended,faulty | ⟨a,used,value,clean,whole,read⟩⟩ := found
  · exact ⟨ended.trans final,.inl faulty⟩
  · refine ⟨ended.trans final,.inr ⟨a,u ++ used,value,problems.symm.trans clean,?_,holds _ _ _ whole read⟩⟩
    rw [rest,whole,List.append_assoc]

theorem found_complaint {s : State} (t : State) (final : t.final = s.final) (token : Token)
    (complaint : Complaint) (result : Option α) : Found s S (result,t.complain token complaint) := by
  refine ⟨final,.inl ?_⟩
  simp [State.complain]

theorem Reads.weaken {p : Parser α} (reads : Reads p R) (weaker : ∀ used a rest, R used a rest → S used a rest) :
    Reads p S :=
  fun s ended => (reads s ended).from (u := []) rfl rfl rfl fun used a rest _ => weaker used a rest

/-- One parser behind another: what the second reads is to satisfy the relation together with whatever
the first has read in front of it. -/
theorem Reads.bind {p : Parser α} {f : α → Parser β} (first : Reads p R)
    (second : ∀ a, Reads (f a) fun used b rest => ∀ u, R u a (used ++ rest) → T (u ++ used) b rest) :
    Reads (p >>= f) T := by
  intro s ended
  obtain ⟨final,found⟩ := first s ended
  rcases out : p s with ⟨_ | a,t⟩
  · rw [out] at final found
    rw [bind_none out]
    rcases found with faulty | ⟨a,_,value,_⟩
    · exact ⟨final,.inl faulty⟩
    · cases value
  · rw [out] at final found
    rw [bind_some out]
    have ended' : t.final.kind = .endOfFile := by
      rw [show t.final = s.final from final]
      exact ended
    obtain ⟨final',found'⟩ := second a t ended'
    refine ⟨final'.trans final,?_⟩
    rcases found' with faulty | ⟨b,used,value,clean,rest,holds⟩
    · exact .inl faulty
    · rcases found with faulty | ⟨_,u,same,cleanBefore,restBefore,holdsBefore⟩
      · exact absurd clean faulty
      · cases same
        have whole : s.rest = u ++ t.rest := restBefore
        refine .inr ⟨b,u ++ used,value,cleanBefore,?_,holds u ?_⟩
        · rw [whole,rest,List.append_assoc]
        · rw [← rest]
          exact holdsBefore

theorem reads_pure {a : α} (holds : ∀ rest, S [] a rest) : Reads (pure a : Parser α) S := by
  intro s ended
  refine ⟨rfl,?_⟩
  by_cases clean : s.problems = []
  · exact .inr ⟨a,[],rfl,clean,rfl,holds _⟩
  · exact .inl clean

theorem Reads.map {p : Parser α} (reads : Reads p R) (f : α → β) :
    Reads (f <$> p) fun used b rest => ∃ a, b = f a ∧ R used a rest := by
  refine Reads.bind reads fun a => reads_pure fun rest u holds => ?_
  rw [List.append_nil]
  exact ⟨a,rfl,holds⟩

theorem reads_fail (complaint : Complaint) : Reads (fail complaint : Parser α) S :=
  fun s _ => found_complaint s rfl s.next complaint none

theorem reads_complain (token : Token) (complaint : Complaint) {T : List Token → Unit → List Token → Prop} :
    Reads (change (·.complain token complaint)) T :=
  fun s _ => found_complaint s rfl token complaint (some ())

theorem reads_look {f : State → α} {g : α → Parser β} (rest : ∀ a, Reads (g a) T) :
    Reads (do g (← look f)) T :=
  fun s ended => rest (f s) s ended

/-- The token is the next one, or the mark of the end behind the last one. -/
def Ahead (token : Token) (rest : List Token) : Prop :=
  (rest = [] ∧ token.kind = .endOfFile) ∨ ∃ later, rest = token :: later

theorem ahead_cons {token first : Token} {rest : List Token} (ahead : Ahead token (first :: rest)) :
    first = token := by
  rcases ahead with ⟨nothing,_⟩ | ⟨later,same⟩
  · cases nothing
  · exact (List.cons.inj same).1

theorem ahead_nil {token : Token} (ahead : Ahead token []) : token.kind = .endOfFile := by
  rcases ahead with ⟨_,isEnd⟩ | ⟨later,same⟩
  · exact isEnd
  · cases same

theorem ahead_next {s : State} (ended : s.final.kind = .endOfFile) : Ahead s.next s.rest := by
  unfold State.next
  cases tokens : s.rest with
  | nil => exact .inl ⟨rfl,ended⟩
  | cons token later => exact .inr ⟨later,rfl⟩

theorem reads_next {g : Token → Parser β}
    (rest : ∀ token, Reads (g token) fun used b rest => Ahead token (used ++ rest) → T used b rest) :
    Reads (do g (← look State.next)) T := by
  intro s ended
  refine (rest s.next s ended).from (u := []) rfl rfl rfl fun used b rest whole holds => holds ?_
  rw [← whole]
  exact ahead_next ended

theorem reads_advance {f : Unit → Parser β}
    (rest : Reads (f ()) fun used b rest =>
      (∀ token, T (token :: used) b rest) ∧ (used ++ rest = [] → T used b rest)) :
    Reads (do f (← advance)) T := by
  intro s ended
  have step : (do f (← advance)) s = f () s.advance := rfl
  rw [step]
  cases tokens : s.rest with
  | nil =>
    rw [advance_of_nil tokens]
    refine (rest s ended).from (u := []) rfl rfl rfl fun used b rest whole holds => holds.2 ?_
    rw [← whole]
    exact tokens
  | cons token later =>
    rw [advance_of_rest tokens]
    exact (rest { s with rest := later, last := token } ended).from (u := [token]) rfl rfl tokens
      fun used b rest _ holds => holds.1 token

theorem reads_expect {kind : Token.Kind} {complaint : Complaint} {g : Token → Parser β}
    (rest : ∀ token, token.kind = kind → Reads (g token) fun used b rest => T (token :: used) b rest) :
    Reads (do g (← expect kind complaint)) T := by
  intro s ended
  by_cases seen : Begins kind s.rest
  · obtain ⟨token,later,tokens,isKind⟩ := seen
    rw [bind_some (expect_found tokens isKind)]
    exact (rest token isKind { s with rest := later, last := token } ended).from (u := [token]) rfl rfl tokens
      fun used b rest _ holds => holds
  · rw [bind_none (expect_missing seen)]
    exact found_complaint s rfl _ _ none

theorem reads_sees {kind : Token.Kind} {g : Bool → Parser β}
    (yes : Reads (g true) fun used b rest => Begins kind (used ++ rest) → T used b rest)
    (no : Reads (g false) fun used b rest => ¬ Begins kind (used ++ rest) → T used b rest) :
    Reads (do g (← sees kind)) T := by
  intro s ended
  have step : (do g (← sees kind)) s = g (s.sees kind) s := rfl
  rw [step]
  by_cases seen : Begins kind s.rest
  · rw [sees_iff.mpr seen]
    refine (yes s ended).from (u := []) rfl rfl rfl fun used b rest whole holds => holds ?_
    rw [← whole]
    exact seen
  · rw [sees_eq_false seen]
    refine (no s ended).from (u := []) rfl rfl rfl fun used b rest whole holds => holds ?_
    rw [← whole]
    exact seen

theorem reads_accept {kind : Token.Kind} {g : Bool → Parser β}
    (yes : ∀ token, token.kind = kind → Reads (g true) fun used b rest => T (token :: used) b rest)
    (no : Reads (g false) fun used b rest => ¬ Begins kind (used ++ rest) → T used b rest) :
    Reads (do g (← accept kind)) T := by
  intro s ended
  by_cases seen : Begins kind s.rest
  · obtain ⟨token,later,tokens,isKind⟩ := seen
    rw [bind_some (accept_found tokens isKind)]
    exact (yes token isKind { s with rest := later, last := token } ended).from (u := [token]) rfl rfl tokens
      fun used b rest _ holds => holds
  · rw [bind_some (accept_missing seen)]
    refine (no s ended).from (u := []) rfl rfl rfl fun used b rest whole holds => holds ?_
    rw [← whole]
    exact seen

theorem reads_choose {c : Parser Bool} {p q : Parser α} {f : α → Parser β}
    (choice : Reads (do if ← c then p else q) R)
    (rest : ∀ a, Reads (f a) fun used b rest => ∀ u, R u a (used ++ rest) → T (u ++ used) b rest) :
    Reads (do
      let a ← if ← c then p else q
      f a) T := by
  rw [choose_bind]
  exact choice.bind rest

theorem reads_deepen {f : Unit → Parser β} (rest : Reads (f ()) T) : Reads (do f (← deepen)) T := by
  intro s ended
  by_cases full : maxNesting ≤ s.depth
  · rw [bind_none (deepen_full full)]
    exact found_complaint { s with tooDeep := true } rfl _ _ none
  · rw [bind_some (deepen_free full)]
    exact rest { s with depth := s.depth + 1 } ended

theorem reads_nested {p : Parser α} (reads : Reads p S) : Reads (nested p) S := by
  intro s ended
  by_cases full : maxNesting ≤ s.depth
  · rw [nested_full full]
    exact found_complaint { s with tooDeep := true } rfl _ _ none
  · have whole := reads { s with depth := s.depth + 1 } ended
    rcases out : p { s with depth := s.depth + 1 } with ⟨result,t⟩
    rw [out] at whole
    rw [nested_free full out]
    exact whole

theorem reads_levelled {p : Parser α} (reads : Reads p S) : Reads (levelled p) S := by
  intro s ended
  have whole := reads s ended
  rcases out : p s with ⟨_ | a,t⟩
  · rw [out] at whole
    rw [levelled_none out]
    exact whole
  · rw [out] at whole
    rw [levelled_some out]
    exact whole

/-! ### Repetition -/

/-- What one more step of a repetition reads: something that carries the relation on to another value, or
nothing. -/
def Carries (S : List Token → α → Prop) (a : α) (used : List Token) : Option α → Prop
  | some b => ∀ u, S u a → S (u ++ used) b
  | none => used = []

/-- A step that keeps a relation between what was read so far and the value keeps it when repeated. -/
theorem reads_extendWithin {S : List Token → α → Prop} {step : α → Parser (Option α)}
    (keeps : ∀ a, Reads (step a) fun used next _ => Carries S a used next) :
    ∀ bound a, Reads (extendWithin step bound a) fun used b _ => ∀ u, S u a → S (u ++ used) b
  | [],a => reads_pure fun rest u holds => by
    rw [List.append_nil]
    exact holds
  | _ :: bound,a => by
    refine (keeps a).bind fun next => ?_
    cases next with
    | none =>
      refine reads_pure fun rest u nothing v holds => ?_
      rw [show u = [] from nothing,List.append_nil,List.append_nil]
      exact holds
    | some b =>
      refine (reads_extendWithin keeps bound b).weaken fun used c rest later u step v holds => ?_
      rw [← List.append_assoc]
      exact later (v ++ u) (step v holds)

theorem reads_extend {S : List Token → α → Prop} {step : α → Parser (Option α)}
    (keeps : ∀ a, Reads (step a) fun used next _ => Carries S a used next) (a : α) :
    Reads (extend step a) fun used b _ => ∀ u, S u a → S (u ++ used) b :=
  fun s ended => reads_extendWithin keeps s.rest a s ended

/-- Values in order, each related to a text of its own. -/
def Each (S : List Token → α → Prop) (values : List α) (texts : List (List Token)) : Prop :=
  ∃ items : List (List Token × α), (∀ item ∈ items, S item.1 item.2) ∧ values = items.map Prod.snd ∧
    texts = items.map Prod.fst

theorem Each.nil (S : List Token → α → Prop) : Each S [] [] := ⟨[],by simp,rfl,rfl⟩

theorem Each.cons {S : List Token → α → Prop} {values : List α} {texts : List (List Token)} {a : α}
    {ts : List Token} (first : S ts a) (later : Each S values texts) : Each S (a :: values) (ts :: texts) := by
  obtain ⟨items,each,rfl,rfl⟩ := later
  refine ⟨(ts,a) :: items,?_,rfl,rfl⟩
  intro item member
  rcases List.mem_cons.mp member with rfl | member
  · exact first
  · exact each item member

theorem reads_commaSeparatedWithin {S : List Token → α → Prop} {item : Parser α}
    (reads : Reads item fun used a _ => S used a) :
    ∀ bound, Reads (commaSeparatedWithin item bound) fun used values _ =>
      ∃ first later, Each S values (first :: later) ∧ Separated (first :: later) used
  | [] => by
    refine reads.bind fun a => reads_pure fun rest u holds => ?_
    rw [List.append_nil]
    exact ⟨u,[],(Each.nil S).cons holds,.one u⟩
  | _ :: bound => by
    refine reads.bind fun a => reads_accept (fun comma isComma => ?_) ?_
    · rw [if_pos rfl]
      refine (reads_commaSeparatedWithin reads bound).bind fun values => reads_pure fun rest used listed u holds => ?_
      obtain ⟨next,later,each,separated⟩ := listed
      rw [List.append_nil]
      exact ⟨u,next :: later,each.cons holds,.more u isComma separated⟩
    · rw [if_neg Bool.false_ne_true]
      refine reads_pure fun rest _ u holds => ?_
      rw [List.append_nil]
      exact ⟨u,[],(Each.nil S).cons holds,.one u⟩

theorem reads_commaSeparated {S : List Token → α → Prop} {item : Parser α}
    (reads : Reads item fun used a _ => S used a) :
    Reads (commaSeparated item) fun used values _ => ∃ texts, Each S values texts ∧ Separated texts used := by
  intro s ended
  refine (reads_commaSeparatedWithin reads s.rest).weaken (fun used values rest => ?_) s ended
  rintro ⟨first,later,listed⟩
  exact ⟨first :: later,listed⟩

/-- What items up to a stop are read from: their texts one behind the other, and then a stop unless the
rounds have run out. -/
def Sequence (S : List Token → α → Prop) (stops : List Token → Prop) (rounds : Nat) (used : List Token)
    (values : List α) (rest : List Token) : Prop :=
  (∃ texts, Each S values texts ∧ used = texts.flatten) ∧ (used.length + rest.length ≤ rounds → stops rest)

theorem Sequence.cons {S : List Token → α → Prop} {stops : List Token → Prop} {rounds : Nat}
    {u used rest : List Token} {a : α} {values : List α} (filled : u ≠ []) (holds : S u a)
    (sequence : Sequence S stops rounds used values rest) :
    Sequence S stops (rounds + 1) (u ++ used) (a :: values) rest := by
  obtain ⟨⟨texts,each,rfl⟩,stopped⟩ := sequence
  have consumed : 0 < u.length := List.length_pos_iff.mpr filled
  refine ⟨⟨u :: texts,each.cons holds,rfl⟩,fun short => stopped ?_⟩
  rw [List.length_append] at short
  omega

theorem reads_manyWithin {S : List Token → α → Prop} {stop : State → Bool} {item : Parser α}
    (stops : List Token → Prop) (reads : Reads item fun used a _ => S used a)
    (filled : ∀ used a, S used a → used ≠ [])
    (atStop : ∀ s : State, stop s = true → stops s.rest) (atEnd : stops []) :
    ∀ bound, Reads (manyWithin stop item bound) (Sequence S stops bound.length)
  | [] => by
    refine reads_pure fun rest => ⟨⟨[],.nil S,rfl⟩,fun short => ?_⟩
    have nothing : rest = [] := by
      cases rest with
      | nil => rfl
      | cons token later => simp at short
    rw [nothing]
    exact atEnd
  | bounded :: bound => by
    have later := reads_manyWithin stops reads filled atStop atEnd bound
    have sequence : Reads (item >>= fun a => (fun values => a :: values) <$> manyWithin stop item bound)
        (Sequence S stops (bound.length + 1)) := by
      refine reads.bind fun a => (later.map _).weaken fun used values rest found u holds => ?_
      obtain ⟨others,rfl,run⟩ := found
      exact run.cons (filled u a holds) holds
    intro s ended
    cases stopped : stop s with
    | true =>
      rw [manyWithin_stop stopped]
      by_cases clean : s.problems = []
      · exact ⟨rfl,.inr ⟨[],[],rfl,clean,rfl,⟨[],.nil S,rfl⟩,fun _ => atStop s stopped⟩⟩
      · exact ⟨rfl,.inl clean⟩
    | false =>
      rcases out : item s with ⟨_ | a,t⟩
      · -- A faulty item leaves a problem behind, which the items after it do not take back.
        have faulty := reads s ended
        rw [out] at faulty
        obtain ⟨final,problems | ⟨_,_,nothing,_⟩⟩ := faulty
        · rw [manyWithin_fault stopped out]
          split
          · exact ⟨final,.inl problems⟩
          · have kept := recover_kept t
            have ended' : t.recover.final.kind = .endOfFile := by
              rw [kept.1,show t.final = s.final from final]
              exact ended
            obtain ⟨final',found⟩ := later t.recover ended'
            refine ⟨final'.trans (kept.1.trans final),.inl ?_⟩
            rcases found with problems' | ⟨_,_,_,clean,_⟩
            · exact problems'
            · exact absurd (kept.2.symm.trans clean) problems
        · cases nothing
      · have whole := sequence s ended
        rw [bind_some out] at whole
        rw [manyWithin_item stopped out]
        exact whole

end Parser

end TurtleScript.Program
