import Mathlib.Data.Nat.Pairing
import TurtleScript.Proofs.LexicalScopes
import TurtleScript.Proofs.Respan

/-!
Trees in which every statement bears how deep it is. Equal statements may stand at different depths, in one program or in
two; in a marked tree they are told apart, since the number of blocks and function bodies around a statement is noted in
its spans (`Stmt.marked`). Wherever a statement has got to, its mark says where it stands (`Nests.mark`,
`Nests.name_mark`). Nothing else about a tree is changed by marks, and taking them off gives it back
(`Program.unmarked_marked`).
-/

namespace TurtleScript

namespace Span

/-- The span with a number noted in its line. -/
def marked (d : Nat) (s : Span) : Span := { s with line := Nat.pair s.line d }

def mark (s : Span) : Nat := (Nat.unpair s.line).2

/-- The span without the number. -/
def unmarked (s : Span) : Span := { s with line := (Nat.unpair s.line).1 }

@[simp] theorem mark_marked (d : Nat) (s : Span) : (s.marked d).mark = d := by
  simp [mark,marked]

@[simp] theorem unmarked_marked (d : Nat) (s : Span) : (s.marked d).unmarked = s := by
  simp [unmarked,marked]

end Span

mutual

/-- The statement with its depth noted in all its spans, those of deeper statements aside, which have their own. -/
def Stmt.marked (d : Nat) : Stmt → Stmt
  | .block body span => .block (Stmt.markedAll (d + 1) body) (span.marked d)
  | .expression value span => .expression (value.respan (Span.marked d)) (span.marked d)
  | .function name params body span =>
    .function (name.respan (Span.marked d)) (params.map (Name.respan (Span.marked d))) (Stmt.markedAll (d + 1) body)
      (span.marked d)
  | .branch test yes no span =>
    .branch (test.respan (Span.marked d)) (yes.marked d) (Stmt.markedOption d no) (span.marked d)
  | .giveBack value span => .giveBack (value.map (Expr.respan (Span.marked d))) (span.marked d)
  | .var name initial span =>
    .var (name.respan (Span.marked d)) (initial.map (Expr.respan (Span.marked d))) (span.marked d)
  | .loop test body span => .loop (test.respan (Span.marked d)) (body.marked d) (span.marked d)

def Stmt.markedOption (d : Nat) : Option Stmt → Option Stmt
  | some s => some (s.marked d)
  | none => none

def Stmt.markedAll (d : Nat) : List Stmt → List Stmt
  | [] => []
  | s :: ss => s.marked d :: Stmt.markedAll d ss

end

/-- The program with the depth of every statement noted in its spans. -/
def Program.marked (program : Program) : Program := ⟨Stmt.markedAll 0 program.statements⟩

def Stmt.mark (s : Stmt) : Nat := s.span.mark

theorem Stmt.mark_marked (d : Nat) (s : Stmt) : (s.marked d).mark = d := by
  cases s <;> exact Span.mark_marked d _

theorem Stmt.mem_markedAll {d : Nat} {s : Stmt} {ss : List Stmt} (mem : s ∈ Stmt.markedAll d ss) :
    ∃ t ∈ ss, s = t.marked d := by
  induction ss with
  | nil => cases mem
  | cons t ss ih =>
    rw [Stmt.markedAll] at mem
    rcases List.mem_cons.mp mem with rfl | later
    · exact ⟨t,.head _,rfl⟩
    · obtain ⟨t,there,same⟩ := ih later
      exact ⟨t,.tail _ there,same⟩

section
variable {roots : Nat → Stmt → Prop} {d : Nat} {s : Stmt}

theorem Nests.marked (each : ∀ d s, roots d s → ∃ t : Stmt, s = t.marked d) (nests : Nests roots d s) :
    ∃ t : Stmt, s = t.marked d := by
  induction nests with
  | root root => exact each _ _ root
  | block _ mem ih =>
    obtain ⟨t,same⟩ := ih
    cases t <;> cases same
    obtain ⟨inner,_,marked⟩ := Stmt.mem_markedAll mem
    exact ⟨inner,marked⟩
  | body _ mem ih =>
    obtain ⟨t,same⟩ := ih
    cases t <;> cases same
    obtain ⟨inner,_,marked⟩ := Stmt.mem_markedAll mem
    exact ⟨inner,marked⟩
  | yes _ ih =>
    obtain ⟨t,same⟩ := ih
    cases t <;> cases same
    exact ⟨_,rfl⟩
  | @no _ _ _ no _ _ ih =>
    obtain ⟨t,same⟩ := ih
    cases t with
    | branch test yes other span =>
      cases other with
      | none => cases same
      | some other =>
        cases same
        exact ⟨other,rfl⟩
    | _ => cases same
  | loop _ ih =>
    obtain ⟨t,same⟩ := ih
    cases t <;> cases same
    exact ⟨_,rfl⟩

theorem Nests.mark (each : ∀ d s, roots d s → ∃ t : Stmt, s = t.marked d) (nests : Nests roots d s) : s.mark = d := by
  obtain ⟨t,rfl⟩ := nests.marked each
  exact t.mark_marked d

theorem Nests.name_mark {name : Name} {params : List Name} {body : List Stmt} {span : Span}
    (each : ∀ d s, roots d s → ∃ t : Stmt, s = t.marked d) (nests : Nests roots d (.function name params body span)) :
    name.span.mark = d := by
  obtain ⟨t,same⟩ := nests.marked each
  cases t <;> cases same
  exact Span.mark_marked d _

end

section
variable {program : Program} {d : Nat} {s : Stmt}

theorem Program.marked_of_root {d : Nat} {s : Stmt} (root : d = 0 ∧ s ∈ program.marked.statements) :
    ∃ t : Stmt, s = t.marked d := by
  obtain ⟨rfl,mem⟩ := root
  obtain ⟨t,_,same⟩ := Stmt.mem_markedAll mem
  exact ⟨t,same⟩

theorem Program.Nests.mark (nests : program.marked.Nests d s) : s.mark = d :=
  TurtleScript.Nests.mark (fun _ _ => marked_of_root) nests

theorem Program.Nests.name_mark {name : Name} {params : List Name} {body : List Stmt} {span : Span}
    (nests : program.marked.Nests d (.function name params body span)) : name.span.mark = d :=
  TurtleScript.Nests.name_mark (fun _ _ => marked_of_root) nests

theorem Program.Nests.body_mark {test : Expr} {body : Stmt} {span : Span}
    (nests : program.marked.Nests d (.loop test body span)) : body.mark = d :=
  TurtleScript.Nests.mark (fun _ _ => marked_of_root) (.loop nests)

end

/-! ### Without marks -/

section
variable {f g : Span → Span}

theorem Name.respan_inverse (inverse : ∀ span, g (f span) = span) (name : Name) :
    (name.respan f).respan g = name := by
  cases name
  simp only [Name.respan,inverse]

mutual

theorem Expr.respan_inverse (inverse : ∀ span, g (f span) = span) : ∀ e : Expr, (e.respan f).respan g = e
  | .var _ _ | .literal _ _ => by simp only [Expr.respan,inverse]
  | .assign _ a _ | .grouping a _ | .unary _ a _ => by simp only [Expr.respan,inverse,Expr.respan_inverse inverse a]
  | .binary _ a b _ | .logical _ a b _ | .index a b _ => by
    simp only [Expr.respan,inverse,Expr.respan_inverse inverse a,Expr.respan_inverse inverse b]
  | .call a args _ => by
    simp only [Expr.respan,inverse,Expr.respan_inverse inverse a,Expr.respanAll_inverse inverse args]
  | .array items _ => by simp only [Expr.respan,inverse,Expr.respanAll_inverse inverse items]

theorem Expr.respanAll_inverse (inverse : ∀ span, g (f span) = span) :
    ∀ es : List Expr, Expr.respanAll g (Expr.respanAll f es) = es
  | [] => by simp only [Expr.respanAll]
  | e :: es => by
    simp only [Expr.respanAll,Expr.respan_inverse inverse e,Expr.respanAll_inverse inverse es]

end

theorem Expr.respan_inverse_option (inverse : ∀ span, g (f span) = span) (e : Option Expr) :
    (e.map (Expr.respan f)).map (Expr.respan g) = e := by
  cases e with
  | none => rfl
  | some e => exact congrArg some (e.respan_inverse inverse)

end

mutual

theorem Stmt.unmarked_marked (d : Nat) : ∀ s : Stmt, (s.marked d).respan Span.unmarked = s
  | .block body span => by
    simp only [Stmt.marked,Stmt.respan,Span.unmarked_marked,Stmt.unmarked_markedAll (d + 1) body]
  | .expression value span => by
    simp only [Stmt.marked,Stmt.respan,Span.unmarked_marked,value.respan_inverse (Span.unmarked_marked d)]
  | .function name params body span => by
    have names : (params.map (Name.respan (Span.marked d))).map (Name.respan Span.unmarked) = params := by
      rw [List.map_map]
      exact (List.map_congr_left fun name _ => name.respan_inverse (Span.unmarked_marked d)).trans (List.map_id params)
    simp only [Stmt.marked,Stmt.respan,Span.unmarked_marked,name.respan_inverse (Span.unmarked_marked d),names,
      Stmt.unmarked_markedAll (d + 1) body]
  | .branch test yes no span => by
    simp only [Stmt.marked,Stmt.respan,Span.unmarked_marked,test.respan_inverse (Span.unmarked_marked d),
      Stmt.unmarked_marked d yes,Stmt.unmarked_markedOption d no]
  | .giveBack value span => by
    simp only [Stmt.marked,Stmt.respan,Span.unmarked_marked,Expr.respan_inverse_option (Span.unmarked_marked d)]
  | .var name initial span => by
    simp only [Stmt.marked,Stmt.respan,Span.unmarked_marked,name.respan_inverse (Span.unmarked_marked d),
      Expr.respan_inverse_option (Span.unmarked_marked d)]
  | .loop test body span => by
    simp only [Stmt.marked,Stmt.respan,Span.unmarked_marked,test.respan_inverse (Span.unmarked_marked d),
      Stmt.unmarked_marked d body]

theorem Stmt.unmarked_markedOption (d : Nat) :
    ∀ s : Option Stmt, Stmt.respanOption Span.unmarked (Stmt.markedOption d s) = s
  | none => by simp only [Stmt.markedOption,Stmt.respanOption]
  | some s => by simp only [Stmt.markedOption,Stmt.respanOption,Stmt.unmarked_marked d s]

theorem Stmt.unmarked_markedAll (d : Nat) :
    ∀ ss : List Stmt, Stmt.respanAll Span.unmarked (Stmt.markedAll d ss) = ss
  | [] => by simp only [Stmt.markedAll,Stmt.respanAll]
  | s :: ss => by
    simp only [Stmt.markedAll,Stmt.respanAll,Stmt.unmarked_marked d s,Stmt.unmarked_markedAll d ss]

end

theorem Program.unmarked_marked (program : Program) : program.marked.respan Span.unmarked = program :=
  congrArg Program.mk (Stmt.unmarked_markedAll 0 program.statements)

theorem Program.Nests.respan {program : Program} {d : Nat} {s : Stmt} (nests : program.Nests d s) (f : Span → Span) :
    (program.respan f).Nests d (s.respan f) := by
  have inside : ∀ {s : Stmt} {ss : List Stmt}, s ∈ ss → s.respan f ∈ Stmt.respanAll f ss := by
    intro s ss mem
    rw [Stmt.respanAll_eq_map]
    exact List.mem_map_of_mem mem
  induction nests with
  | root root => exact .root ⟨root.1,inside root.2⟩
  | block _ mem ih => exact .block ih (inside mem)
  | body _ mem ih => exact .body ih (inside mem)
  | yes _ ih => exact .yes ih
  | no _ ih => exact .no ih
  | loop _ ih => exact .loop ih

/-- In the program itself a marked statement stands, without its marks, where its mark says. -/
theorem Program.Nests.unmarked {program : Program} {d : Nat} {s : Stmt} (nests : program.marked.Nests d s) :
    program.Nests d (s.respan Span.unmarked) := by
  have stands := nests.respan Span.unmarked
  rwa [program.unmarked_marked] at stands

end TurtleScript
