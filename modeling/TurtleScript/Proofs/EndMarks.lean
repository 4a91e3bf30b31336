import TurtleScript.Proofs.ParserLaws
import TurtleScript.Proofs.Lines
import Mathlib.Data.List.Forall2

/-!
What the mark at the end of a list of tokens has a say in. Two parses of the same tokens with end marks at
different places (`Twins`) make the same values and find the same problems, but for those at the end, which
are reported at the one mark or at the other (`Twin`). That is a law of the grammar (`blindness`).
-/

namespace TurtleScript.Program

open TurtleScript.Program.Parser

variable {e e' : Span}

/-- Two problems are one and the same, or the same complaint about two end marks. -/
inductive Twin (e e' : Span) : Diagnostic → Diagnostic → Prop where
  | same (d : Diagnostic) : Twin e e' d d
  | atEnd (message : String) : Twin e e' (.parse message "" e) (.parse message "" e')

/-- Two states are the same but for the place of the end mark. -/
structure Twins (e e' : Span) (s s' : State) : Prop where
  rest : s'.rest = s.rest
  last : s'.last = s.last
  depth : s'.depth = s.depth
  tooDeep : s'.tooDeep = s.tooDeep
  marked : s.final.kind = .endOfFile ∧ s'.final.kind = .endOfFile
  places : s.final.span = e ∧ s'.final.span = e'
  problems : List.Forall₂ (Twin e e') s.problems s'.problems

def Blind {α : Type} (p : Parser α) : Prop :=
  ∀ e e' s s', Twins e e' s s' → (p s').1 = (p s).1 ∧ Twins e e' (p s).2 (p s').2

variable {s s' : State} {α β : Type}

theorem Twins.begins (twins : Twins e e' s s') {kind : Token.Kind} : Begins kind s'.rest ↔ Begins kind s.rest := by
  rw [twins.rest]

theorem Twins.next (twins : Twins e e' s s') : s'.next = s.next ∨ (s.next = s.final ∧ s'.next = s'.final) := by
  unfold State.next
  rw [twins.rest]
  cases s.rest with
  | nil => exact .inr ⟨rfl,rfl⟩
  | cons token rest => exact .inl rfl

theorem Twins.token (twins : Twins e e' s s') (token : Token) (rest : List Token) :
    Twins e e' { s with rest := rest, last := token } { s' with rest := rest, last := token } :=
  ⟨rfl,rfl,twins.depth,twins.tooDeep,twins.marked,twins.places,twins.problems⟩

theorem Twins.level (twins : Twins e e' s s') (depth : Nat) :
    Twins e e' { s with depth := depth } { s' with depth := depth } :=
  ⟨twins.rest,twins.last,rfl,twins.tooDeep,twins.marked,twins.places,twins.problems⟩

theorem Twins.advance (twins : Twins e e' s s') : Twins e e' s.advance s'.advance := by
  unfold State.advance
  rw [twins.rest]
  split
  · exact twins
  · exact twins.token _ _

theorem Twins.recover (twins : Twins e e' s s') : Twins e e' s.recover s'.recover := by
  have ahead := twins.advance
  unfold State.recover
  dsimp only
  rw [ahead.rest,ahead.last]
  exact ahead.token _ _

theorem Twins.complain {token token' : Token} (twins : Twins e e' s s') (complaint : Complaint)
    (twin : token' = token ∨ (token = s.final ∧ token' = s'.final)) :
    Twins e e' (s.complain token complaint) (s'.complain token' complaint) := by
  refine ⟨twins.rest,twins.last,twins.depth,twins.tooDeep,twins.marked,twins.places,?_⟩
  refine List.rel_append twins.problems (.cons ?_ .nil)
  rcases twin with rfl | ⟨rfl,rfl⟩
  · exact .same _
  · rw [if_pos twins.marked.1,if_pos twins.marked.2,twins.places.1,twins.places.2]
    exact .atEnd _

theorem Twins.overflown (twins : Twins e e' s s') : Twins e e' (overflown s) (overflown s') := by
  have deep : Twins e e' { s with tooDeep := true } { s' with tooDeep := true } :=
    ⟨twins.rest,twins.last,twins.depth,rfl,twins.marked,twins.places,twins.problems⟩
  exact deep.complain .nesting twins.next

/-! ### The steps -/

theorem blind_look {f : State → α} (same : ∀ e e' s s', Twins e e' s s' → f s' = f s) : Blind (look f) :=
  fun e e' s s' twins => ⟨congrArg some (same e e' s s' twins),twins⟩

theorem Blind.bind {p : Parser α} {f : α → Parser β} (first : Blind p) (second : ∀ value, Blind (f value)) :
    Blind (p >>= f) := by
  intro e e' s s' twins
  obtain ⟨same,after⟩ := first e e' s s' twins
  rcases out : p s with ⟨_ | value,t⟩
  · rw [out] at same after
    rw [bind_none out,bind_none (t := (p s').2) (Prod.ext same rfl)]
    exact ⟨rfl,after⟩
  · rw [out] at same after
    rw [bind_some out,bind_some (t := (p s').2) (Prod.ext same rfl)]
    exact second value e e' t _ after

theorem blind_fail (complaint : Complaint) : Blind (fail complaint : Parser α) :=
  fun _ _ _ _ twins => ⟨rfl,twins.complain complaint twins.next⟩

theorem blind_expect (kind : Token.Kind) (complaint : Complaint) : Blind (expect kind complaint) := by
  intro e e' s s' twins
  by_cases seen : Begins kind s.rest
  · obtain ⟨token,rest,tokens,isKind⟩ := seen
    rw [expect_found tokens isKind,expect_found (twins.rest.trans tokens) isKind]
    exact ⟨rfl,twins.token token rest⟩
  · rw [expect_missing seen,expect_missing (mt twins.begins.mp seen)]
    exact ⟨rfl,twins.complain complaint twins.next⟩

theorem blind_accept (kind : Token.Kind) : Blind (accept kind) := by
  intro e e' s s' twins
  by_cases seen : Begins kind s.rest
  · obtain ⟨token,rest,tokens,isKind⟩ := seen
    rw [accept_found tokens isKind,accept_found (twins.rest.trans tokens) isKind]
    exact ⟨rfl,twins.token token rest⟩
  · rw [accept_missing seen,accept_missing (mt twins.begins.mp seen)]
    exact ⟨rfl,twins⟩

theorem blind_next {f : Token → Parser α} (tokens : ∀ token, Blind (f token))
    (marks : ∀ token token' : Token, token.kind = .endOfFile → token'.kind = .endOfFile → f token = f token') :
    Blind (look State.next >>= f) := by
  intro e e' s s' twins
  rw [look_bind,look_bind]
  rcases twins.next with same | ⟨ends,ends'⟩
  · rw [same]
    exact tokens s.next e e' s s' twins
  · rw [ends,ends',marks s'.final s.final twins.marked.2 twins.marked.1]
    exact tokens s.final e e' s s' twins

theorem leaf_marked {token : Token} (marked : token.kind = .endOfFile) :
    Nested.leaf? token = .error .expression := by
  simp only [Nested.leaf?,marked]

theorem blind_leaf : Blind leaf := by
  refine blind_next (fun token => ?_) fun token token' ends ends' => ?_
  · split
    · intro e e' s s' twins
      exact ⟨rfl,twins.advance⟩
    · exact blind_fail _
  · rw [leaf_marked ends,leaf_marked ends']

theorem blind_retort (token : Token) : Blind (change (·.complain token .target)) :=
  fun _ _ _ _ twins => ⟨rfl,twins.complain .target (.inl rfl)⟩

theorem blind_deepen : Blind deepen := by
  intro e e' s s' twins
  by_cases full : maxNesting ≤ s.depth
  · rw [deepen_full full,deepen_full (twins.depth.symm ▸ full)]
    exact ⟨rfl,twins.overflown⟩
  · rw [deepen_free full,deepen_free (twins.depth.symm ▸ full),twins.depth]
    exact ⟨rfl,twins.level _⟩

theorem Blind.nested {p : Parser α} (blind : Blind p) : Blind (nested p) := by
  intro e e' s s' twins
  by_cases full : maxNesting ≤ s.depth
  · rw [nested_full full,nested_full (twins.depth.symm ▸ full)]
    exact ⟨rfl,twins.overflown⟩
  · have deeper := twins.level (s.depth + 1)
    obtain ⟨same,after⟩ := blind e e' _ _ deeper
    rw [nested_free full (t := (p { s with depth := s.depth + 1 }).2) rfl,
      nested_free (s := s') (twins.depth.symm ▸ full) (t := (p { s' with depth := s'.depth + 1 }).2) rfl,twins.depth]
    exact ⟨same,after.level _⟩

theorem Blind.levelled {p : Parser α} (blind : Blind p) : Blind (levelled p) := by
  intro e e' s s' twins
  obtain ⟨same,after⟩ := blind e e' s s' twins
  rcases out : p s with ⟨_ | value,t⟩
  · rw [out] at same after
    rw [levelled_none out,levelled_none (t := (p s').2) (Prod.ext same rfl)]
    exact ⟨rfl,after⟩
  · rw [out] at same after
    rw [levelled_some out,levelled_some (t := (p s').2) (Prod.ext same rfl),twins.depth]
    exact ⟨rfl,after.level _⟩

theorem blind_bounded {p : List Token → Parser α} (blind : ∀ bound, Blind (p bound)) : Blind fun s => p s.rest s := by
  intro e e' s s' twins
  dsimp only
  rw [twins.rest]
  exact blind s.rest e e' s s' twins

theorem blind_manyWithin {stop : State → Bool} {item : Parser α} (stops : ∀ s t : State, s.rest = t.rest → stop s = stop t)
    (blind : Blind item) (bound : List Token) : Blind (manyWithin stop item bound) := by
  induction bound with
  | nil => exact blind_look fun _ _ _ _ _ => rfl
  | cons token bound ih =>
    intro e e' s s' twins
    obtain ⟨same,after⟩ := blind e e' s s' twins
    have stopping := stops s' s twins.rest
    cases stopped : stop s with
    | true =>
      rw [manyWithin_stop stopped,manyWithin_stop (stopping.trans stopped)]
      exact ⟨rfl,twins⟩
    | false =>
      rcases out : item s with ⟨_ | value,t⟩
      · rw [out] at same after
        rw [manyWithin_fault stopped out,
          manyWithin_fault (t := (item s').2) (stopping.trans stopped) (Prod.ext same rfl),after.tooDeep]
        split
        · exact ⟨rfl,after⟩
        · exact ih e e' _ _ after.recover
      · rw [out] at same after
        rw [manyWithin_item stopped out,manyWithin_item (t := (item s').2) (stopping.trans stopped) (Prod.ext same rfl)]
        exact (ih.bind fun values => blind_look fun _ _ _ _ _ => rfl) e e' t _ after

/-- No rule of the grammar sees where the end mark is. -/
def blindness : Law where
  holds _ _ _ _ p := Blind p
  pure _ := blind_look fun _ _ _ _ _ => rfl
  bind := .bind
  late blind := blind
  forget blind := blind
  last := blind_look fun _ _ _ _ twins => twins.last
  sees kind := blind_look fun _ _ s s' twins => by rw [State.sees,State.sees,twins.rest]
  spanFrom start := blind_look fun _ _ s s' twins => by rw [twins.last]
  advance := fun _ _ _ _ twins => ⟨rfl,twins.advance⟩
  deepen := blind_deepen
  accept yes no := (blind_accept _).bind fun found => by
    cases found with
    | true => exact yes
    | false => exact no
  expect kind complaint _ := blind_expect kind complaint
  next := blind_next
  leaf := blind_leaf
  retort token value blind := blind.bind fun _ => (blind_retort token).bind fun _ => blind_look fun _ _ _ _ _ => rfl
  nested {n} {_} {_} {_} {p} blind lowest := Blind.nested (by
    cases n with
    | zero =>
      rw [lowest rfl]
      exact blind_fail .nesting
    | succ n => exact blind n rfl)
  levelled := .levelled
  bounded := blind_bounded
  many stops _ blind := blind_bounded fun bound => blind_manyWithin stops blind bound

/-- The tokens that a parse looks at, in front of the first end mark. -/
def front (tokens : List Token) : List Token := tokens.takeWhile (·.kind ≠ .endOfFile)

/-- The end mark that a parse stops at: the first one, or the one that is put behind the tokens. -/
def endMark (tokens : List Token) : Token := (State.ofTokens tokens).final

/-- Two results are the same program, or the same problems but for those at the end. -/
inductive TwinResults (e e' : Span) : Except (List Diagnostic) Program → Except (List Diagnostic) Program → Prop where
  | parsed (program : Program) : TwinResults e e' (.ok program) (.ok program)
  | faulty {problems problems' : List Diagnostic} (twins : List.Forall₂ (Twin e e') problems problems') :
      TwinResults e e' (.error problems) (.error problems')

theorem Twins.conclude (twins : Twins e e' s s') (statements : Option (List Stmt)) :
    TwinResults e e' (conclude (statements,s)) (conclude (statements,s')) := by
  obtain ⟨_,_,_,_,_,_,problems⟩ := twins
  unfold Program.conclude
  dsimp only
  cases statements with
  | none => exact .faulty problems
  | some statements =>
    generalize s.problems = found at problems
    generalize s'.problems = found' at problems
    cases problems with
    | nil => exact .parsed _
    | cons twin later => exact .faulty (.cons twin later)

theorem Twin.eq {d d' : Diagnostic} (twin : Twin e e d d') : d = d' := by
  cases twin <;> rfl

theorem TwinResults.eq {result result' : Except (List Diagnostic) Program} (twins : TwinResults e e result result') :
    result = result' := by
  cases twins with
  | parsed program => rfl
  | faulty twins =>
    have same : ∀ d d', Twin e e d d' → d = d' := fun _ _ => Twin.eq
    exact congrArg _ (List.forall₂_eq_eq_eq ▸ twins.imp same)

/-- The result of a parse depends on the tokens in front of the first end mark only, but for the place of the
problems at the end. -/
theorem ofTokens_twins {tokens tokens' : List Token} (same : front tokens' = front tokens) :
    TwinResults (endMark tokens).span (endMark tokens').span (ofTokens tokens) (ofTokens tokens') := by
  have blind : Blind (many State.atEnd declaration) :=
    blindness.many (n := maxNesting) (fun s t same => by rw [State.atEnd,State.atEnd,same]) atEnd_of_nil
      (Nested.level_lawful blindness maxNesting).declaration
  -- What has been consumed before the start makes no difference.
  let start' := { State.ofTokens tokens' with last := endMark tokens }
  have twins : Twins (endMark tokens).span (endMark tokens').span (State.ofTokens tokens) start' :=
    ⟨same,rfl,rfl,rfl,⟨final_isEnd tokens,final_isEnd tokens'⟩,⟨rfl,rfl⟩,.nil⟩
  obtain ⟨made,after⟩ := blind _ _ _ _ twins
  have results := after.conclude (many State.atEnd declaration (State.ofTokens tokens)).1
  have ended : conclude (many State.atEnd declaration (State.ofTokens tokens')) =
      conclude ((many State.atEnd declaration (State.ofTokens tokens)).1,(many State.atEnd declaration start').2) := by
    rw [(many_fresh (State.ofTokens tokens') (endMark tokens)).conclude,← made]
  show TwinResults _ _ (conclude (many State.atEnd declaration (State.ofTokens tokens)))
    (conclude (many State.atEnd declaration (State.ofTokens tokens')))
  rw [ended]
  exact results

end TurtleScript.Program
