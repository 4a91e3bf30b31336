import TurtleScript.Proofs.ParserLaws
import TurtleScript.Proofs.Restarting

/-!
What the problems of a parse cost. Every parser goes forward in the tokens (`Went`), and each problem it
finds is paid for with a token that it has consumed (`Paid`): a parser that makes a value keeps one of its
tokens, with which the complaint of a later one can be paid, and one that gives up may owe a token to what has
been consumed before it. A complaint that things nest too deeply ends the parse (`Capped`). That is a law of
the grammar (`charging`), and from it come the bounds for the parse of a whole list (`many_charged`).
-/

namespace TurtleScript

def Diagnostic.OfNesting (d : Diagnostic) : Prop :=
  ∃ lexeme span, d = .parse Program.Complaint.nesting.message lexeme span

namespace Program

open TurtleScript.Program.Parser

/-- A parse has got from a state to another one: it has consumed tokens and found problems. -/
structure Went (s t : State) (used : List Token) (found : List Diagnostic) : Prop where
  rest : s.rest = used ++ t.rest
  last : t.last = used.getLastD s.last
  final : t.final = s.final
  problems : t.problems = s.problems ++ found

variable {s t u : State} {used more : List Token} {found later : List Diagnostic}

theorem Went.refl (s : State) : Went s s [] [] := ⟨rfl,rfl,rfl,(List.append_nil _).symm⟩

theorem Went.trans (first : Went s t used found) (second : Went t u more later) :
    Went s u (used ++ more) (found ++ later) where
  rest := by rw [first.rest,second.rest,List.append_assoc]
  last := by
    rw [second.last,first.last]
    simp only [List.getLastD_eq_getLast?,List.getLast?_append]
    cases more.getLast? <;> rfl
  final := second.final.trans first.final
  problems := by rw [second.problems,first.problems,List.append_assoc]

/-- The problem that a complaint about the token is. -/
def problemAt (token : Token) (complaint : Complaint) : Diagnostic :=
  .parse complaint.message (if token.kind = .endOfFile then "" else token.lexeme) token.span

theorem went_complain (s : State) (token : Token) (complaint : Complaint) :
    Went s (s.complain token complaint) [] [problemAt token complaint] := ⟨rfl,rfl,rfl,rfl⟩

theorem went_token {token : Token} {rest : List Token} (tokens : s.rest = token :: rest) :
    Went s { s with rest := rest, last := token } [token] [] :=
  ⟨tokens,rfl,rfl,(List.append_nil _).symm⟩

theorem went_advance (s : State) : ∃ used, Went s s.advance used [] ∧ (s.rest ≠ [] → used ≠ []) := by
  cases tokens : s.rest with
  | nil =>
    refine ⟨[],?_,fun left => absurd rfl left⟩
    rw [advance_of_nil tokens]
    exact .refl s
  | cons token rest =>
    rw [advance_of_rest tokens]
    exact ⟨[token],went_token tokens,fun _ => List.cons_ne_nil _ _⟩

theorem skipFrom_went (last : Token) (rest : List Token) :
    ∃ skipped, rest = skipped ++ (State.skipFrom last rest).2 ∧ (State.skipFrom last rest).1 = skipped.getLastD last := by
  induction rest generalizing last with
  | nil => exact ⟨[],rfl,rfl⟩
  | cons token rest ih =>
    unfold State.skipFrom
    split
    · exact ⟨[],rfl,rfl⟩
    · obtain ⟨skipped,rests,lasts⟩ := ih token
      refine ⟨token :: skipped,congrArg (token :: ·) rests,?_⟩
      rw [lasts,List.getLastD_cons]

theorem went_recover (s : State) : ∃ skipped, Went s s.recover skipped [] ∧ (s.rest ≠ [] → skipped ≠ []) := by
  obtain ⟨used,went,some⟩ := went_advance s
  obtain ⟨skipped,rests,lasts⟩ := skipFrom_went s.advance.last s.advance.rest
  have second : Went s.advance s.recover skipped [] := ⟨rests,lasts,rfl,(List.append_nil _).symm⟩
  exact ⟨used ++ skipped,went.trans second,fun left empty => some left (List.append_eq_nil_iff.mp empty).1⟩

/-- The problems found are paid for with the tokens consumed. Where a value is made one token is kept, and where
none is made a problem may be charged to what has been consumed in front. -/
def Paid (before behind made : Bool) (used found : Nat) : Prop :=
  match made with
  | true => found ≤ used + before.toNat - 1 ∧ (behind = true → 1 ≤ used + before.toNat)
  | false => found ≤ max 1 (used + before.toNat)

/-- Things nest too deeply in the last problem found or in none. -/
def Capped (made deep : Bool) (found : List Diagnostic) : Prop :=
  (deep = false ∧ ∀ d ∈ found, ¬ d.OfNesting) ∨
    (made = false ∧ deep = true ∧ ∃ few d, found = few ++ [d] ∧ d.OfNesting ∧ ∀ d ∈ few, ¬ d.OfNesting)

/-- A state from which rules with so many levels below them may start: they do not run out of levels before the
cap on nesting is hit. -/
structure Ready (n : Nat) (s : State) : Prop where
  marked : s.final.kind = .endOfFile
  shallow : s.tooDeep = false
  room : maxNesting ≤ s.depth + n

/-- What a parser owes between two states. -/
structure Fair (before behind made : Bool) (s t : State) (used : List Token) (found : List Diagnostic) : Prop where
  paid : Paid before behind made used.length found.length
  capped : Capped made t.tooDeep found
  deeper : s.depth ≤ t.depth

/-- Where a parser may start it goes forward, and it is fair. -/
def Charged (n : Nat) (before behind : Bool) {α : Type} (p : Parser α) : Prop :=
  ∀ s, Ready n s → ∃ used found, Went s (p s).2 used found ∧ Fair before behind (p s).1.isSome s (p s).2 used found

section
variable {n : Nat} {a b c made : Bool} {α β : Type}

theorem Fair.shallow (fair : Fair a b true s t used found) : t.tooDeep = false ∧ ∀ d ∈ found, ¬ d.OfNesting :=
  fair.capped.resolve_right (by rintro ⟨⟨⟩,_⟩)

theorem Fair.ready (fair : Fair a b true s t used found) (went : Went s t used found) (ready : Ready n s) : Ready n t :=
  ⟨went.final ▸ ready.marked,fair.shallow.1,ready.room.trans (Nat.add_le_add_right fair.deeper n)⟩

theorem Paid.trans {m k x y : Nat} (first : Paid a b true m x) (second : Paid b c made k y) :
    Paid a c made (m + k) (x + y) := by
  cases made <;> cases a <;> cases b <;> simp only [Paid,Bool.toNat_true,Bool.toNat_false] at * <;> grind

theorem Capped.after {deep : Bool} (second : Capped made deep later) (none : ∀ d ∈ found, ¬ d.OfNesting) :
    Capped made deep (found ++ later) := by
  rcases second with ⟨shallow,clear⟩ | ⟨failed,deep,few,d,rfl,nests,clear⟩
  · exact .inl ⟨shallow,fun d member => (List.mem_append.mp member).elim (none d) (clear d)⟩
  · refine .inr ⟨failed,deep,found ++ few,d,(List.append_assoc _ _ _).symm,nests,fun d member => ?_⟩
    exact (List.mem_append.mp member).elim (none d) (clear d)

theorem Fair.trans (first : Fair a b true s t used found) (second : Fair b c made t u more later) :
    Fair a c made s u (used ++ more) (found ++ later) where
  paid := by
    rw [List.length_append,List.length_append]
    exact first.paid.trans second.paid
  capped := second.capped.after first.shallow.2
  deeper := first.deeper.trans second.deeper

theorem fair_still (deeper : s.depth ≤ t.depth) (shallow : t.tooDeep = false) (tells : b = true → a = true ∨ used ≠ []) :
    Fair a b true s t used [] where
  paid := by
    refine ⟨Nat.zero_le _,fun told => ?_⟩
    rcases tells told with rfl | some
    · exact Nat.le_add_left _ _
    · have := List.length_pos_of_ne_nil some
      omega
  capped := .inl ⟨shallow,nofun⟩
  deeper := deeper

theorem not_ofNesting {token : Token} {complaint : Complaint} (other : complaint ≠ .nesting) :
    ¬ (problemAt token complaint).OfNesting := by
  rintro ⟨lexeme,span,same⟩
  have messages : complaint.message = Complaint.nesting.message := (Diagnostic.parse.inj same).1
  cases complaint <;> first | exact other rfl | exact absurd messages (by decide)

theorem fair_fail (shallow : s.tooDeep = false) {complaint : Complaint} (other : complaint ≠ .nesting) (token : Token) :
    Fair a b false s (s.complain token complaint) [] [problemAt token complaint] where
  paid := Nat.le_max_left _ _
  capped := .inl ⟨shallow,by simpa using not_ofNesting other⟩
  deeper := Nat.le_refl _

theorem charged_look (f : State → α) : Charged n a a (look f) := fun s ready =>
  ⟨[],[],.refl s,fair_still (Nat.le_refl _) ready.shallow .inl⟩

theorem Charged.bind {p : Parser α} {f : α → Parser β} (first : Charged n a b p)
    (second : ∀ value, Charged n b c (f value)) : Charged n a c (p >>= f) := by
  intro s ready
  obtain ⟨used,found,went,fair⟩ := first s ready
  rcases out : p s with ⟨_ | value,t⟩
  · rw [out] at went fair
    rw [bind_none out]
    exact ⟨used,found,went,fair.paid,fair.capped,fair.deeper⟩
  · rw [out] at went fair
    rw [bind_some out]
    obtain ⟨more,later,gone,fair'⟩ := second value t (fair.ready went ready)
    exact ⟨used ++ more,found ++ later,went.trans gone,fair.trans fair'⟩

theorem charged_expect (kind : Token.Kind) {complaint : Complaint} (other : complaint ≠ .nesting) :
    Charged n a true (expect kind complaint) := by
  intro s ready
  by_cases seen : Begins kind s.rest
  · obtain ⟨token,rest,tokens,isKind⟩ := seen
    rw [expect_found tokens isKind]
    exact ⟨[token],[],went_token tokens,
      fair_still (Nat.le_refl _) ready.shallow fun _ => .inr (List.cons_ne_nil _ _)⟩
  · rw [expect_missing seen]
    exact ⟨[],_,went_complain s s.next complaint,fair_fail ready.shallow other _⟩

theorem charged_accept {kind : Token.Kind} {f : Bool → Parser α} (yes : Charged n true b (f true))
    (no : Charged n a b (f false)) : Charged n a b (accept kind >>= f) := by
  intro s ready
  by_cases seen : Begins kind s.rest
  · obtain ⟨token,rest,tokens,isKind⟩ := seen
    rw [bind_some (accept_found tokens isKind)]
    have still : Fair a true true s { s with rest := rest, last := token } [token] [] :=
      fair_still (Nat.le_refl _) ready.shallow fun _ => .inr (List.cons_ne_nil _ _)
    have went := went_token tokens
    obtain ⟨used,found,gone,fair⟩ := yes { s with rest := rest, last := token } (still.ready went ready)
    exact ⟨[token] ++ used,[] ++ found,went.trans gone,still.trans fair⟩
  · rw [bind_some (accept_missing seen)]
    exact no s ready

theorem charged_advance : Charged n a a advance := by
  intro s ready
  obtain ⟨used,went,_⟩ := went_advance s
  refine ⟨used,[],went,fair_still ?_ ?_ .inl⟩
  · exact Nat.le_of_eq (advance_depth s).symm
  · exact (passed_advance s).tooDeep.trans ready.shallow

theorem leaf_made {e : Expr} (found : Nested.leaf? s.next = .ok e) : leaf s = (some e,s.advance) := by
  rw [leaf,look_bind,found]
  rfl

theorem leaf_fault {complaint : Complaint} (found : Nested.leaf? s.next = .error complaint) :
    leaf s = (none,s.complain s.next complaint) := by
  rw [leaf,look_bind,found]
  rfl

/-- What a token stands for by itself, and what is wrong if it stands for nothing. -/
theorem leaf_cases (token : Token) :
    (∃ e, Nested.leaf? token = .ok e ∧ token.kind ≠ .endOfFile) ∨
      ∃ complaint, Nested.leaf? token = .error complaint ∧ complaint ≠ .nesting := by
  unfold Nested.leaf?
  split
  · exact .inl ⟨_,rfl,by simp [*]⟩
  · exact .inl ⟨_,rfl,by simp [*]⟩
  · exact .inl ⟨_,rfl,by simp [*]⟩
  · split
    · exact .inl ⟨_,rfl,by simp [*]⟩
    · exact .inl ⟨_,rfl,by simp [*]⟩
    · exact .inr ⟨_,rfl,by decide⟩
  · split
    · exact .inl ⟨_,rfl,by simp [*]⟩
    · exact .inl ⟨_,rfl,by simp [*]⟩
    · exact .inr ⟨_,rfl,by decide⟩
  · exact .inl ⟨_,rfl,by simp [*]⟩
  · exact .inr ⟨_,rfl,by decide⟩

theorem next_at_end (empty : s.rest = []) : s.next = s.final := by
  simp [State.next,empty]

theorem charged_leaf : Charged n false true leaf := by
  intro s ready
  rcases leaf_cases s.next with ⟨e,found,unmarked⟩ | ⟨complaint,found,other⟩
  · obtain ⟨used,went,some⟩ := went_advance s
    rw [leaf_made found]
    refine ⟨used,[],went,fair_still (Nat.le_of_eq (advance_depth s).symm) ?_ fun _ => .inr (some ?_)⟩
    · exact (passed_advance s).tooDeep.trans ready.shallow
    · intro empty
      exact unmarked (next_at_end empty ▸ ready.marked)
  · rw [leaf_fault found]
    exact ⟨[],_,went_complain s s.next complaint,fair_fail ready.shallow other _⟩

theorem Charged.late {p : Parser α} (charged : Charged n false b p) : Charged n true true p := by
  intro s ready
  obtain ⟨used,found,went,fair⟩ := charged s ready
  refine ⟨used,found,went,?_,fair.capped,fair.deeper⟩
  have paid := fair.paid
  cases made : (p s).1.isSome <;> rw [made] at paid <;>
    simp only [Paid,Bool.toNat_true,Bool.toNat_false] at * <;> grind

theorem Charged.forget {p : Parser α} (charged : Charged n a true p) : Charged n a false p := by
  intro s ready
  obtain ⟨used,found,went,fair⟩ := charged s ready
  refine ⟨used,found,went,?_,fair.capped,fair.deeper⟩
  have paid := fair.paid
  cases made : (p s).1.isSome with
  | true =>
    rw [made] at paid
    exact ⟨paid.1,nofun⟩
  | false =>
    rw [made] at paid
    exact paid

/-- A complaint that nothing follows from costs the token that the value in front has kept. -/
theorem charged_retort {p : Parser α} (charged : Charged n false true p) (token : Token) (value : β) :
    Charged n true true (p >>= fun _ => change (·.complain token .target) >>= fun _ => pure value) := by
  intro s ready
  obtain ⟨used,found,went,fair⟩ := charged s ready
  rcases out : p s with ⟨_ | first,t⟩
  · obtain ⟨used,found,went,fair⟩ := charged.late s ready
    rw [out] at went fair
    rw [bind_none out]
    exact ⟨used,found,went,fair.paid,fair.capped,fair.deeper⟩
  · rw [out] at went fair
    rw [bind_some out]
    show ∃ used found, Went s (t.complain token .target) used found ∧ Fair true true true s _ used found
    obtain ⟨few,one⟩ : found.length ≤ used.length - 1 ∧ (true = true → 1 ≤ used.length) := fair.paid
    have kept := one rfl
    refine ⟨used ++ [],_,went.trans (went_complain t token .target),⟨?_,fun _ => Nat.le_add_left _ _⟩,
      .inl ⟨fair.shallow.1,fun d member => ?_⟩,fair.deeper⟩
    · rw [List.append_nil,List.length_append,List.length_singleton]
      show found.length + 1 ≤ used.length + 1 - 1
      omega
    · rcases List.mem_append.mp member with earlier | same
      · exact fair.shallow.2 d earlier
      · rw [List.mem_singleton.mp same]
        exact not_ofNesting (by decide)

/-! ### Nesting -/

theorem went_overflown (s : State) : Went s (overflown s) [] [problemAt s.next .nesting] := ⟨rfl,rfl,rfl,rfl⟩

theorem fair_overflown (s : State) : Fair a b false s (overflown s) [] [problemAt s.next .nesting] where
  paid := Nat.le_max_left _ _
  capped := .inr ⟨rfl,rfl,[],_,rfl,⟨_,_,rfl⟩,nofun⟩
  deeper := Nat.le_refl _

theorem charged_deepen : Charged n a a deepen := by
  intro s ready
  by_cases full : maxNesting ≤ s.depth
  · rw [deepen_full full]
    exact ⟨[],_,went_overflown s,fair_overflown s⟩
  · rw [deepen_free full]
    exact ⟨[],[],⟨rfl,rfl,rfl,(List.append_nil _).symm⟩,fair_still (Nat.le_succ _) ready.shallow .inl⟩

theorem charged_nested {p : Parser α} (charged : ∀ fewer, n = fewer + 1 → Charged fewer a b p) :
    Charged n a b (nested p) := by
  intro s ready
  by_cases full : maxNesting ≤ s.depth
  · rw [nested_full full]
    exact ⟨[],_,went_overflown s,fair_overflown s⟩
  · have room := ready.room
    obtain ⟨fewer,rfl⟩ : ∃ fewer, n = fewer + 1 := ⟨n - 1,by omega⟩
    have deeper : Ready fewer { s with depth := s.depth + 1 } := ⟨ready.marked,ready.shallow,by dsimp only; omega⟩
    obtain ⟨used,found,went,fair⟩ := charged fewer rfl _ deeper
    rw [nested_free full (t := (p { s with depth := s.depth + 1 }).2) rfl]
    exact ⟨used,found,⟨went.rest,went.last,went.final,went.problems⟩,fair.paid,fair.capped,Nat.le_refl _⟩

theorem Charged.levelled {p : Parser α} (charged : Charged n a b p) : Charged n a b (levelled p) := by
  intro s ready
  obtain ⟨used,found,went,fair⟩ := charged s ready
  rcases out : p s with ⟨_ | value,t⟩
  · rw [out] at went fair
    rw [levelled_none out]
    exact ⟨used,found,went,fair⟩
  · rw [out] at went fair
    rw [levelled_some out]
    exact ⟨used,found,⟨went.rest,went.last,went.final,went.problems⟩,fair.paid,fair.capped,Nat.le_refl _⟩

/-- What the items of a loop cost together: at most the tokens consumed, and where things nest too deeply at most
one more, but not more than there are tokens. -/
structure Billed (made : Bool) (s t : State) (used : List Token) (found : List Diagnostic) : Prop where
  covered : made = true → found.length ≤ used.length
  owed : found.length ≤ used.length + 1
  few : found.length ≤ s.rest.length
  capped : Capped made t.tooDeep found
  deeper : s.depth ≤ t.depth

theorem Billed.after (second : Billed made t u more later) (went : Went s t used found) (paid : found.length ≤ used.length)
    (none : ∀ d ∈ found, ¬ d.OfNesting) (deeper : s.depth ≤ t.depth) :
    Billed made s u (used ++ more) (found ++ later) where
  covered := by
    intro isMade
    have := second.covered isMade
    rw [List.length_append,List.length_append]
    omega
  owed := by
    have := second.owed
    rw [List.length_append,List.length_append]
    omega
  few := by
    have := second.few
    rw [went.rest,List.length_append,List.length_append]
    omega
  capped := second.capped.after none
  deeper := deeper.trans second.deeper

theorem billed_nothing (ready : Ready n s) : Billed true s s [] [] :=
  ⟨fun _ => Nat.le_refl _,Nat.zero_le _,Nat.zero_le _,.inl ⟨ready.shallow,nofun⟩,Nat.le_refl _⟩

/-- Behind a faulty item there is a token to skip, which its problems may be charged to, unless it has consumed all
there was. -/
theorem recover_paid (left : s.rest ≠ []) (went : Went s t used found) (fair : Fair false b false s t used found)
    (shallow : t.tooDeep = false) (ready : Ready n s) : ∃ skipped, Went s t.recover (used ++ skipped) found ∧
      found.length ≤ (used ++ skipped).length ∧ (∀ d ∈ found, ¬ d.OfNesting) ∧ Ready n t.recover ∧
        s.depth ≤ t.recover.depth ∧ t.recover.rest.length < s.rest.length := by
  obtain ⟨skipped,gone,some⟩ := went_recover t
  have whole := went.trans gone
  rw [List.append_nil] at whole
  have clear := fair.capped.resolve_right (by rintro ⟨_,deep,_⟩; exact absurd (shallow.symm.trans deep) nofun)
  have deeper : s.depth ≤ t.recover.depth := fair.deeper.trans (Nat.le_of_eq (recover_depth t).symm)
  have paid : found.length ≤ max 1 (used.length + 0) := fair.paid
  have tokens := congrArg List.length whole.rest
  have total := congrArg List.length went.rest
  have one := List.length_pos_of_ne_nil left
  have moved : 1 ≤ (used ++ skipped).length := by
    rw [List.length_append] at tokens ⊢
    rw [List.length_append] at total
    by_cases empty : t.rest = []
    · rw [empty,List.length_nil] at total
      omega
    · have := List.length_pos_of_ne_nil (some empty)
      omega
  refine ⟨skipped,whole,?_,clear.2,⟨whole.final ▸ ready.marked,?_,ready.room.trans (Nat.add_le_add_right deeper n)⟩,
    deeper,?_⟩
  · rw [List.length_append] at moved ⊢
    omega
  · exact (passed_advance t).tooDeep.trans shallow
  · rw [List.length_append] at tokens
    omega

theorem manyWithin_billed {stop : State → Bool} {item : Parser α} (stops : ∀ s : State, s.rest = [] → stop s = true)
    (charged : Charged n false true item) (bound : List Token) : ∀ s, Ready n s → s.rest.length ≤ bound.length →
      ∃ used found, Went s (manyWithin stop item bound s).2 used found ∧
        Billed (manyWithin stop item bound s).1.isSome s (manyWithin stop item bound s).2 used found := by
  induction bound with
  | nil =>
    intro s ready enough
    exact ⟨[],[],.refl s,billed_nothing ready⟩
  | cons token bound ih =>
    intro s ready enough
    rw [List.length_cons] at enough
    cases stopped : stop s with
    | true =>
      rw [manyWithin_stop stopped]
      exact ⟨[],[],.refl s,billed_nothing ready⟩
    | false =>
      have left : s.rest ≠ [] := fun empty => absurd (stopped.symm.trans (stops s empty)) nofun
      obtain ⟨used,found,went,fair⟩ := charged s ready
      rcases out : item s with ⟨_ | value,t⟩
      · rw [out] at went fair
        rw [manyWithin_fault stopped out]
        cases deep : t.tooDeep with
        | true =>
          rw [if_pos rfl]
          have paid : found.length ≤ max 1 (used.length + 0) := fair.paid
          have tokens := congrArg List.length went.rest
          rw [List.length_append] at tokens
          have one := List.length_pos_of_ne_nil left
          exact ⟨used,found,went,nofun,by omega,by omega,fair.capped,fair.deeper⟩
        | false =>
          rw [if_neg Bool.false_ne_true]
          obtain ⟨skipped,whole,paid,clear,again,deeper,fewer⟩ := recover_paid left went fair deep ready
          obtain ⟨more,later,gone,billed⟩ := ih t.recover again (Nat.le_of_lt_succ (fewer.trans_le enough))
          exact ⟨_,_,whole.trans gone,billed.after whole paid clear deeper⟩
      · rw [out] at went fair
        rw [manyWithin_item stopped out,map_eq]
        obtain ⟨paid,one⟩ : found.length ≤ used.length - 1 ∧ (true = true → 1 ≤ used.length) := fair.paid
        have kept := one rfl
        have tokens := congrArg List.length went.rest
        rw [List.length_append] at tokens
        obtain ⟨more,later,gone,billed⟩ := ih t (fair.ready went ready) (by dsimp only at tokens; omega)
        refine ⟨_,_,went.trans gone,?_⟩
        rw [Option.isSome_map]
        exact billed.after went (by omega) fair.shallow.2 fair.deeper

theorem many_billed {stop : State → Bool} {item : Parser α} (stops : ∀ s : State, s.rest = [] → stop s = true)
    (charged : Charged n false true item) (ready : Ready n s) : ∃ used found, Went s (many stop item s).2 used found ∧
      Billed (many stop item s).1.isSome s (many stop item s).2 used found :=
  manyWithin_billed stops charged s.rest s ready (Nat.le_refl _)

theorem charged_many {stop : State → Bool} {item : Parser α} (stops : ∀ s : State, s.rest = [] → stop s = true)
    (charged : Charged n false true item) : Charged n true true (many stop item) := by
  intro s ready
  obtain ⟨used,found,went,billed⟩ := many_billed stops charged ready
  refine ⟨used,found,went,?_,billed.capped,billed.deeper⟩
  cases made : (many stop item s).1.isSome with
  | true => exact ⟨billed.covered made,fun _ => Nat.le_add_left _ _⟩
  | false => exact billed.owed.trans (Nat.le_max_right _ _)

end

def charging : Law where
  holds n a b _ p := Charged n a b p
  pure value := charged_look fun _ => value
  bind := .bind
  late := .late
  forget := .forget
  last := charged_look State.last
  sees kind := charged_look (·.sees kind)
  spanFrom start := charged_look fun s => start.join s.last.span
  advance := charged_advance
  deepen := charged_deepen
  accept := charged_accept
  expect := charged_expect
  next tokens _ := (charged_look State.next).bind tokens
  leaf := charged_leaf
  retort token value charged := charged_retort charged token value
  nested charged _ := charged_nested charged
  levelled := .levelled
  bounded charged := fun s => charged s.rest s
  many _ stops charged := charged_many stops charged

end Program

end TurtleScript
