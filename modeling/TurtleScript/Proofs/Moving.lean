import TurtleScript.Program
import TurtleScript.Proofs.Accounting

/-!
Texts that are moved. Behind another text every place is further on, by some bytes and some lines (`Shift`), and
whatever knows its place moves with it (`Movable`). A text that is scanned from a later place has the same items,
moved (`items_moved`), and a newline divides what is in front of it from what is behind it: behind a text without
problems scanning starts afresh (`items_line`).
-/

namespace TurtleScript

/-- How much further on a text is. -/
structure Shift where
  bytes : Nat
  lines : Nat

/-- What has places in a source text. -/
class Movable (α : Type) where
  move : Shift → α → α

namespace Movable

variable {α : Type} [Movable α]

instance : Movable Unit := ⟨fun _ value => value⟩

instance : Movable Bool := ⟨fun _ value => value⟩

instance : Movable (Option α) := ⟨fun d => Option.map (move d)⟩

instance : Movable (List α) := ⟨fun d => List.map (move d)⟩

end Movable

def Span.moved (d : Shift) (s : Span) : Span := ⟨s.start + d.bytes,s.stop + d.bytes,s.line + d.lines⟩

instance : Movable Span := ⟨Span.moved⟩

theorem Span.join_moved (d : Shift) (a b : Span) : (a.join b).moved d = (a.moved d).join (b.moved d) := by
  unfold Span.join Span.moved
  by_cases first : a.start ≤ b.start
  · simp [first]
  · simp [first]

def Token.moved (d : Shift) (t : Token) : Token := { t with span := t.span.moved d }

instance : Movable Token := ⟨Token.moved⟩

def Diagnostic.moved (d : Shift) : Diagnostic → Diagnostic
  | .scan message span => .scan message (span.moved d)
  | .parse message lexeme span => .parse message lexeme (span.moved d)
  | .io message => .io message

instance : Movable Diagnostic := ⟨Diagnostic.moved⟩

theorem Diagnostic.startsBefore_moved (d : Shift) (a b : Diagnostic) :
    (a.moved d).startsBefore (b.moved d) = a.startsBefore b := by
  cases a <;> cases b <;> simp [Diagnostic.moved,Diagnostic.startsBefore,Diagnostic.span?,Span.moved]

def Name.moved (d : Shift) (name : Name) : Name := ⟨name.text,name.span.moved d⟩

instance : Movable Name := ⟨Name.moved⟩

mutual

def Expr.moved (d : Shift) : Expr → Expr
  | .assign name value span => .assign name (value.moved d) (span.moved d)
  | .binary op left right span => .binary op (left.moved d) (right.moved d) (span.moved d)
  | .call callee args span => .call (callee.moved d) (Expr.movedAll d args) (span.moved d)
  | .grouping inner span => .grouping (inner.moved d) (span.moved d)
  | .literal value span => .literal value (span.moved d)
  | .logical op left right span => .logical op (left.moved d) (right.moved d) (span.moved d)
  | .unary op operand span => .unary op (operand.moved d) (span.moved d)
  | .var name span => .var name (span.moved d)
  | .array items span => .array (Expr.movedAll d items) (span.moved d)
  | .index target position span => .index (target.moved d) (position.moved d) (span.moved d)

def Expr.movedAll (d : Shift) : List Expr → List Expr
  | [] => []
  | e :: es => e.moved d :: Expr.movedAll d es

end

instance : Movable Expr := ⟨Expr.moved⟩

mutual

def Stmt.moved (d : Shift) : Stmt → Stmt
  | .block body span => .block (Stmt.movedAll d body) (span.moved d)
  | .expression value span => .expression (value.moved d) (span.moved d)
  | .function name params body span =>
    .function (name.moved d) (params.map (Name.moved d)) (Stmt.movedAll d body) (span.moved d)
  | .branch test yes no span => .branch (test.moved d) (yes.moved d) (Stmt.movedOption d no) (span.moved d)
  | .giveBack value span => .giveBack (value.map (Expr.moved d)) (span.moved d)
  | .var name initial span => .var (name.moved d) (initial.map (Expr.moved d)) (span.moved d)
  | .loop test body span => .loop (test.moved d) (body.moved d) (span.moved d)

def Stmt.movedOption (d : Shift) : Option Stmt → Option Stmt
  | some stmt => some (stmt.moved d)
  | none => none

def Stmt.movedAll (d : Shift) : List Stmt → List Stmt
  | [] => []
  | s :: ss => s.moved d :: Stmt.movedAll d ss

end

instance : Movable Stmt := ⟨Stmt.moved⟩

/-- The program, with all its places further on. -/
def Program.moved (d : Shift) (program : Program) : Program := ⟨program.statements.map (Stmt.moved d)⟩

section
variable (d : Shift)

theorem Expr.movedAll_eq_map : ∀ es : List Expr, Expr.movedAll d es = es.map (Expr.moved d)
  | [] => rfl
  | e :: es => congrArg (e.moved d :: ·) (Expr.movedAll_eq_map es)

theorem Stmt.movedAll_eq_map : ∀ ss : List Stmt, Stmt.movedAll d ss = ss.map (Stmt.moved d)
  | [] => rfl
  | s :: ss => congrArg (s.moved d :: ·) (Stmt.movedAll_eq_map ss)

theorem Stmt.movedOption_eq_map (s : Option Stmt) : Stmt.movedOption d s = s.map (Stmt.moved d) := by
  cases s <;> rfl

theorem Expr.span_moved (e : Expr) : (e.moved d).span = e.span.moved d := by
  cases e <;> rfl

end

def Shift.none : Shift := ⟨0,0⟩

mutual

theorem Expr.moved_none (e : Expr) : e.moved .none = e := by
  match e with
  | .assign _ value _ => exact congrArg (Expr.assign _ · _) value.moved_none
  | .binary _ left right _ => exact congrArg₂ (Expr.binary _ · · _) left.moved_none right.moved_none
  | .call callee args _ => exact congrArg₂ (Expr.call · · _) callee.moved_none (Expr.movedAll_none args)
  | .grouping inner _ => exact congrArg (Expr.grouping · _) inner.moved_none
  | .literal _ _ => rfl
  | .logical _ left right _ => exact congrArg₂ (Expr.logical _ · · _) left.moved_none right.moved_none
  | .unary _ operand _ => exact congrArg (Expr.unary _ · _) operand.moved_none
  | .var _ _ => rfl
  | .array items _ => exact congrArg (Expr.array · _) (Expr.movedAll_none items)
  | .index target position _ => exact congrArg₂ (Expr.index · · _) target.moved_none position.moved_none

theorem Expr.movedAll_none (es : List Expr) : Expr.movedAll .none es = es := by
  match es with
  | [] => rfl
  | e :: es => exact congrArg₂ List.cons e.moved_none (Expr.movedAll_none es)

end

theorem Expr.mapMoved_none (e : Option Expr) : e.map (Expr.moved .none) = e := by
  cases e with
  | none => rfl
  | some e => exact congrArg some e.moved_none

mutual

theorem Stmt.moved_none (s : Stmt) : s.moved .none = s := by
  match s with
  | .block body _ => exact congrArg (Stmt.block · _) (Stmt.movedAll_none body)
  | .expression value _ => exact congrArg (Stmt.expression · _) value.moved_none
  | .function name params body _ =>
    exact congrArg₂ (Stmt.function name · · _) (List.map_id params) (Stmt.movedAll_none body)
  | .branch test yes no _ =>
    show Stmt.branch _ _ _ _ = _
    rw [test.moved_none,yes.moved_none,Stmt.movedOption_none no]
    rfl
  | .giveBack value _ => exact congrArg (Stmt.giveBack · _) (Expr.mapMoved_none value)
  | .var _ initial _ => exact congrArg (Stmt.var _ · _) (Expr.mapMoved_none initial)
  | .loop test body _ => exact congrArg₂ (Stmt.loop · · _) test.moved_none body.moved_none

theorem Stmt.movedOption_none (s : Option Stmt) : Stmt.movedOption .none s = s := by
  match s with
  | .none => rfl
  | some s => exact congrArg some s.moved_none

theorem Stmt.movedAll_none (ss : List Stmt) : Stmt.movedAll .none ss = ss := by
  match ss with
  | [] => rfl
  | s :: ss => exact congrArg₂ List.cons s.moved_none (Stmt.movedAll_none ss)

end

/-! ### Scanning from a later place -/

namespace Token

def Place.moved (d : Shift) (place : Place) : Place := ⟨place.offset + d.bytes,place.line + d.lines⟩

def Item.moved (d : Shift) : Item → Item
  | .token t => .token (t.moved d)
  | .problem found => .problem (found.moved d)

theorem after_moved (d : Shift) (place : Place) (text : List Char) :
    (place.moved d).after text = (place.after text).moved d := by
  rw [after_eq,after_eq]
  simp only [Place.moved,Place.mk.injEq]
  omega

theorem ofPiece_moved (d : Shift) (piece : Piece) (text : List Char) (span : Span) :
    (Item.ofPiece? piece text (span.moved d)).toList =
      (Item.ofPiece? piece text span).toList.map (Item.moved d) := by
  cases piece <;> rfl

theorem items_cons (place : Place) (c : Char) (cs : List Char) :
    items place (c :: cs) =
      ((Item.ofPiece? (cut c cs).piece (c :: (cut c cs).tail)
          ⟨place.offset,(place.after (c :: (cut c cs).tail)).offset,place.line⟩).toList ++
        (items (place.after (c :: (cut c cs).tail)) (cut c cs).rest).1,
      (items (place.after (c :: (cut c cs).tail)) (cut c cs).rest).2) := by
  rw [items]

theorem items_moved (d : Shift) (place : Place) (cs : List Char) :
    items (place.moved d) cs = ((items place cs).1.map (Item.moved d),(items place cs).2.moved d) := by
  match cs with
  | [] =>
    rw [items,items]
    rfl
  | c :: cs =>
    have shorter := cut_rest_length c cs
    have later := items_moved d (place.after (c :: (cut c cs).tail)) (cut c cs).rest
    have item := ofPiece_moved d (cut c cs).piece (c :: (cut c cs).tail)
      ⟨place.offset,(place.after (c :: (cut c cs).tail)).offset,place.line⟩
    rw [items_cons,items_cons,after_moved,later,List.map_append,← item]
    rfl
termination_by cs.length

theorem filterMap_moved {α : Type} {view : Item → Option α} {f : α → α} (d : Shift)
    (moves : ∀ item, view (item.moved d) = (view item).map f) (found : List Item) :
    (found.map (Item.moved d)).filterMap view = (found.filterMap view).map f := by
  rw [List.filterMap_map,List.map_filterMap]
  exact List.filterMap_congr fun item _ => moves item

theorem tokens_moved (d : Shift) (found : List Item) :
    (found.map (Item.moved d)).filterMap Item.token? = (found.filterMap Item.token?).map (Token.moved d) :=
  filterMap_moved d (fun item => by cases item <;> rfl) found

theorem problems_moved (d : Shift) (found : List Item) :
    (found.map (Item.moved d)).filterMap Item.problem? = (found.filterMap Item.problem?).map (Diagnostic.moved d) :=
  filterMap_moved d (fun item => by cases item <;> rfl) found

/-- A blank is skipped by itself as well as together with the blanks behind it. -/
theorem items_blank (place : Place) {c : Char} (blank : isBlank c) (cs : List Char) :
    items place (c :: cs) = items (place.next c) cs := by
  have skips : ∀ (place : Place) {c : Char}, isBlank c → ∀ cs, items place (c :: cs) =
      items (place.after (c :: cs.takeWhile isBlank)) (cs.dropWhile isBlank) := by
    intro place c blank cs
    rw [items]
    simp [cut,blank,Item.ofPiece?]
  rw [skips place blank]
  cases cs with
  | nil => rfl
  | cons c' cs =>
    by_cases blank' : isBlank c'
    · rw [skips _ blank',List.takeWhile_cons_of_pos blank',List.dropWhile_cons_of_pos blank']
      rfl
    · rw [List.takeWhile_cons_of_neg blank',List.dropWhile_cons_of_neg blank']
      rfl

section
variable {p : Char → Bool}

theorem takeWhile_line (stops : p '\n' = false) (cs behind : List Char) :
    (cs ++ '\n' :: behind).takeWhile p = cs.takeWhile p := by
  induction cs with
  | nil => simp [stops]
  | cons c cs ih => simp [List.takeWhile_cons,ih]

theorem dropWhile_line (stops : p '\n' = false) (cs behind : List Char) :
    (cs ++ '\n' :: behind).dropWhile p = cs.dropWhile p ++ '\n' :: behind := by
  induction cs with
  | nil => simp [stops]
  | cons c cs ih =>
    rw [List.cons_append,List.dropWhile_cons,List.dropWhile_cons,ih]
    split <;> rfl

end

def Cut.before (found : Cut) (behind : List Char) : Cut := { found with rest := found.rest ++ behind }

theorem takeFraction_line (cs behind : List Char) :
    takeFraction (cs ++ '\n' :: behind) = ((takeFraction cs).1,(takeFraction cs).2 ++ '\n' :: behind) := by
  match cs with
  | [] => rfl
  | [c] =>
    by_cases point : c = '.'
    · subst point
      rfl
    · simp [takeFraction,point]
  | c :: d :: cs =>
    by_cases point : c = '.'
    · subst point
      by_cases digit : isDigit d
      · simp [takeFraction,digit,takeWhile_line,dropWhile_line,show isDigit '\n' = false from rfl]
      · simp [takeFraction,digit]
    · simp [takeFraction,point]

theorem cutNumber_line (c : Char) (cs behind : List Char) :
    cutNumber c (cs ++ '\n' :: behind) = (cutNumber c cs).before ('\n' :: behind) := by
  have stops : isDigit '\n' = false := rfl
  simp only [cutNumber,takeWhile_line stops,dropWhile_line stops,takeFraction_line,Cut.before]

theorem cutWord_line (c : Char) (cs behind : List Char) :
    cutWord c (cs ++ '\n' :: behind) = (cutWord c cs).before ('\n' :: behind) := by
  have stops : isWordChar '\n' = false := rfl
  simp only [cutWord,takeWhile_line stops,dropWhile_line stops,Cut.before]

theorem cutMark_line (alone withEq : Kind) (cs behind : List Char) :
    cutMark alone withEq (cs ++ '\n' :: behind) = (cutMark alone withEq cs).before ('\n' :: behind) := by
  match cs with
  | [] => rfl
  | c :: cs =>
    by_cases equals : c = '='
    · subst equals
      rfl
    · simp [cutMark,equals,Cut.before]

theorem cutString_before (cs behind : List Char) (closed : (cutString cs).piece ≠ .unterminated) :
    cutString (cs ++ behind) = (cutString cs).before behind := by
  unfold cutString at closed ⊢
  rw [List.takeWhile_append,List.dropWhile_append]
  have whole := congrArg List.length (List.takeWhile_append_dropWhile (p := (· ≠ '"')) (l := cs))
  cases left : cs.dropWhile (· ≠ '"') with
  | nil =>
    rw [left] at closed
    exact absurd rfl closed
  | cons quote rest =>
    rw [left,List.length_append,List.length_cons] at whole
    have more : (cs.takeWhile (· ≠ '"')).length ≠ cs.length := by omega
    rw [if_neg more]
    rfl

/-- A newline ends whatever stands in front of it, short of blanks and unclosed strings. -/
theorem cut_line {c : Char} (visible : ¬ isBlank c) (cs behind : List Char)
    (closed : (cut c cs).piece ≠ .unterminated) :
    cut c (cs ++ '\n' :: behind) = (cut c cs).before ('\n' :: behind) := by
  have inComment : (fun x => decide (x ≠ '\n')) '\n' = false := rfl
  unfold cut at closed ⊢
  rw [if_neg visible] at closed ⊢
  rw [if_neg visible]
  by_cases hash : c = '#'
  · rw [if_pos hash,if_pos hash,takeWhile_line inComment,dropWhile_line inComment]
    rfl
  rw [if_neg hash] at closed ⊢
  rw [if_neg hash]
  by_cases digit : isDigit c
  · rw [if_pos digit,if_pos digit,cutNumber_line]
  rw [if_neg digit] at closed ⊢
  rw [if_neg digit]
  by_cases letter : isLetter c
  · rw [if_pos letter,if_pos letter,cutWord_line]
  rw [if_neg letter] at closed ⊢
  rw [if_neg letter]
  by_cases quote : c = '"'
  · rw [if_pos quote] at closed ⊢
    rw [if_pos quote,cutString_before _ _ closed]
  rw [if_neg quote,if_neg quote]
  repeat' split
  all_goals first | exact cutMark_line _ _ cs behind | rfl

/-- Scanning starts afresh behind the newline that follows a text without problems. -/
theorem items_line (place : Place) (cs behind : List Char) (clean : (items place cs).1.filterMap Item.problem? = []) :
    items place (cs ++ '\n' :: behind) =
      ((items place cs).1 ++ (items ((items place cs).2.next '\n') behind).1,
        (items ((items place cs).2.next '\n') behind).2) := by
  match cs with
  | [] =>
    have nothing : items place [] = ([],place) := by rw [items]
    rw [List.nil_append,nothing,items_blank place (c := '\n') rfl]
    rfl
  | c :: cs =>
    by_cases blank : isBlank c
    · rw [items_blank place blank] at clean ⊢
      rw [List.cons_append,items_blank place blank]
      exact items_line (place.next c) cs behind clean
    · have shorter := cut_rest_length c cs
      rw [items_cons,List.filterMap_append,List.append_eq_nil_iff] at clean
      have closed : (cut c cs).piece ≠ .unterminated := by
        intro opened
        rw [opened] at clean
        exact absurd clean.1 (List.cons_ne_nil _ _)
      have later := items_line (place.after (c :: (cut c cs).tail)) (cut c cs).rest behind clean.2
      rw [List.cons_append,items_cons,items_cons,cut_line blank _ _ closed]
      simp only [Cut.before,later,List.append_assoc]
termination_by cs.length

/-- Behind a text without problems and a newline, what is scanned is what is scanned by itself, moved. -/
theorem items_behind (cs behind : List Char) (clean : (items {} cs).1.filterMap Item.problem? = []) :
    items {} (cs ++ '\n' :: behind) =
      ((items {} cs).1 ++ (items {} behind).1.map (Item.moved ⟨String.utf8Len cs + 1,1 + cs.count '\n'⟩),
        (items {} behind).2.moved ⟨String.utf8Len cs + 1,1 + cs.count '\n'⟩) := by
  have last : (items {} cs).2 = placeBehind cs := (items_account [] cs).2
  have start : (items {} cs).2.next '\n' = Place.moved ⟨String.utf8Len cs + 1,1 + cs.count '\n'⟩ {} := by
    rw [last,placeBehind_eq]
    have size : '\n'.utf8Size = 1 := rfl
    simp only [Place.next,Place.moved,size,if_true,Place.mk.injEq]
    omega
  rw [items_line {} cs behind clean,start,items_moved]

end Token

end TurtleScript
