import TurtleScript.Proofs.Lines
import TurtleScript.Proofs.ParserSoundness
import TurtleScript.Proofs.UsedNames

/-!
Where names come from. Every name in a tree is spelled by an identifier among the tokens that the tree is derived from
(`Phrase.spells`, `Sentence.spells`), so a program uses only names that its text spells (`names_spelled`).
-/

namespace TurtleScript.Program

/-- One of the tokens is an identifier that spells the name. -/
def Spells (ts : List Token) (name : String) : Prop :=
  ∃ token ∈ ts, token.kind = .identifier ∧ token.lexeme = name

variable {ts us : List Token} {name : String}

theorem spells_of_mem {token : Token} (mem : token ∈ ts) (isName : token.kind = .identifier) : Spells ts token.lexeme :=
  ⟨token,mem,isName,rfl⟩

theorem Spells.mono (spells : Spells ts name) (more : ts ⊆ us) : Spells us name := by
  obtain ⟨token,mem,isName,same⟩ := spells
  exact ⟨token,more mem,isName,same⟩

theorem Separated.subset {texts : List (List Token)} (listed : Separated texts ts) : ∀ text ∈ texts, text ⊆ ts := by
  induction listed with
  | none => exact fun _ mem => nomatch mem
  | one ts =>
    intro text mem
    rw [List.mem_singleton.mp mem]
    exact fun _ mem => mem
  | more first isComma rest ih =>
    intro text mem token inside
    rcases List.mem_cons.mp mem with rfl | later
    · exact List.mem_append_left _ inside
    · exact List.mem_append_right _ (.tail _ (ih text later inside))

theorem mem_namesAll {es : List Expr} : name ∈ Expr.namesAll es ↔ ∃ e ∈ es, name ∈ e.names := by
  induction es with
  | nil => simp [Expr.namesAll]
  | cons e es ih => simp [Expr.namesAll,ih]

theorem mem_stmtNamesAll {ss : List Stmt} : name ∈ Stmt.namesAll ss ↔ ∃ s ∈ ss, name ∈ s.names := by
  induction ss with
  | nil => simp [Stmt.namesAll]
  | cons s ss ih => simp [Stmt.namesAll,ih]

theorem spells_listed {items : List (List Token × Expr)} (listed : Separated (items.map Prod.fst) us)
    (each : ∀ item ∈ items, ∀ name ∈ item.2.names, Spells item.1 name) :
    ∀ name ∈ Expr.namesAll (items.map Prod.snd), Spells us name := by
  intro name mem
  obtain ⟨e,inside,mem⟩ := mem_namesAll.mp mem
  obtain ⟨item,given,rfl⟩ := List.mem_map.mp inside
  exact (each item given name mem).mono (listed.subset _ (List.mem_map_of_mem given))

theorem Phrase.spells {level : Level} {e : Expr} (phrase : Phrase level ts e) : ∀ name ∈ e.names, Spells ts name := by
  induction phrase with
  | tighter _ _ ih => exact ih
  | assign isName _ _ ih =>
    intro name mem
    rcases List.mem_cons.mp mem with rfl | later
    · exact spells_of_mem (.head _) isName
    · exact (ih name later).mono fun _ mem => .tail _ (.tail _ mem)
  | logical _ _ _ ihLeft ihRight =>
    intro name mem
    rcases List.mem_append.mp mem with mem | mem
    · exact (ihLeft name mem).mono (List.subset_append_left _ _)
    · exact (ihRight name mem).mono fun _ mem => List.mem_append_right _ (.tail _ mem)
  | binary _ _ _ ihLeft ihRight =>
    intro name mem
    rcases List.mem_append.mp mem with mem | mem
    · exact (ihLeft name mem).mono (List.subset_append_left _ _)
    · exact (ihRight name mem).mono fun _ mem => List.mem_append_right _ (.tail _ mem)
  | unary _ _ ih => exact fun name mem => (ih name mem).mono fun _ mem => .tail _ mem
  | call _ _ _ listed _ ihCallee ihArgs =>
    intro name mem
    rcases List.mem_append.mp mem with mem | mem
    · exact (ihCallee name mem).mono (List.subset_append_left _ _)
    · refine (spells_listed listed ihArgs name mem).mono fun _ mem => ?_
      exact List.mem_append_right _ (.tail _ (List.mem_append_left _ mem))
  | index _ _ _ _ ihTarget ihPosition =>
    intro name mem
    rcases List.mem_append.mp mem with mem | mem
    · exact (ihTarget name mem).mono (List.subset_append_left _ _)
    · refine (ihPosition name mem).mono fun _ mem => ?_
      exact List.mem_append_right _ (.tail _ (List.mem_append_left _ mem))
  | literal _ => exact fun _ mem => nomatch mem
  | var isName =>
    intro name mem
    rw [List.mem_singleton.mp mem]
    exact spells_of_mem (.head _) isName
  | group _ _ _ ih => exact fun name mem => (ih name mem).mono fun _ mem => .tail _ (List.mem_append_left _ mem)
  | array _ _ listed _ ihItems =>
    intro name mem
    exact (spells_listed listed ihItems name mem).mono fun _ mem => .tail _ (List.mem_append_left _ mem)

theorem Optional.spells {e : Option Expr} (optional : Optional ts e) : ∀ name ∈ Expr.namesOption e, Spells ts name := by
  cases optional with
  | missing => exact fun _ mem => nomatch mem
  | given phrase => exact phrase.spells

theorem Variable.spells {s : Stmt} (declared : Variable ts s) : ∀ name ∈ s.names, Spells ts name := by
  cases declared with
  | unset _ isName _ =>
    intro name mem
    rw [List.mem_singleton.mp mem]
    exact spells_of_mem (.tail _ (.head _)) isName
  | set _ isName _ initial _ =>
    intro name mem
    rcases List.mem_cons.mp mem with rfl | later
    · exact spells_of_mem (.tail _ (.head _)) isName
    · refine (initial.spells name later).mono fun _ mem => ?_
      exact .tail _ (.tail _ (.tail _ (List.mem_append_left _ mem)))

theorem Effect.spells {s : Stmt} (effect : Effect ts s) : ∀ name ∈ s.names, Spells ts name := by
  cases effect with
  | mk phrase _ => exact fun name mem => (phrase.spells name mem).mono (List.subset_append_left _ _)

theorem ForStart.spells {s : Option Stmt} (started : ForStart ts s) : ∀ name ∈ Stmt.namesOption s, Spells ts name := by
  cases started with
  | missing _ => exact fun _ mem => nomatch mem
  | declared declared => exact declared.spells
  | effect effect => exact effect.spells

theorem for_names {start : Option Stmt} {test step : Option Expr} {condition : Expr} {body round tree : Stmt}
    {span : Span} (isCondition : ForTest test condition) (isRound : ForRound body step round)
    (isTree : ForBlock (.loop condition round span) start tree) (mem : name ∈ tree.names) :
    name ∈ Stmt.namesOption start ∨ name ∈ Expr.namesOption test ∨ name ∈ Expr.namesOption step ∨
      name ∈ body.names := by
  cases isCondition <;> cases isRound <;> cases isTree <;>
    simp only [Stmt.names,Stmt.namesAll,Stmt.namesOption,Expr.names,Expr.namesOption,List.mem_append,List.not_mem_nil,
      or_false,false_or] at mem ⊢ <;> tauto

theorem spells_body {body : List (List Token × Stmt)}
    (each : ∀ item ∈ body, ∀ name ∈ item.2.names, Spells item.1 name) :
    ∀ name ∈ Stmt.namesAll (body.map Prod.snd), Spells (body.map Prod.fst).flatten name := by
  intro name mem
  obtain ⟨s,inside,mem⟩ := mem_stmtNamesAll.mp mem
  obtain ⟨item,given,rfl⟩ := List.mem_map.mp inside
  refine (each item given name mem).mono fun token mem => ?_
  exact List.mem_flatten.mpr ⟨item.1,List.mem_map_of_mem given,mem⟩

theorem Sentence.spells {form : Form} {s : Stmt} (sentence : Sentence form ts s) :
    ∀ name ∈ s.names, Spells ts name := by
  induction sentence with
  | @function word name opening closing brace close params us names body place span
      _ isName _ named listed same _ _ _ _ ih =>
    intro other mem
    rcases List.mem_cons.mp mem with rfl | mem
    · exact spells_of_mem (.tail _ (.head _)) isName
    rcases List.mem_append.mp mem with mem | mem
    · rw [same] at mem
      obtain ⟨param,given,rfl⟩ := List.mem_map.mp mem
      have inside : param ∈ us := listed.subset [param] (List.mem_map.mpr ⟨param,given,rfl⟩) (.head _)
      exact spells_of_mem (.tail _ (.tail _ (.tail _ (List.mem_append_left _ inside)))) (named param given)
    · refine (spells_body ih other mem).mono fun _ mem => ?_
      refine .tail _ (.tail _ (.tail _ (List.mem_append_right _ (.tail _ (.tail _ ?_)))))
      exact List.mem_append_left _ mem
  | var declared => exact declared.spells
  | statement _ ih => exact ih
  | effect effect => exact effect.spells
  | giveBack _ value _ =>
    exact fun name mem => (value.spells name mem).mono fun _ mem => .tail _ (List.mem_append_left _ mem)
  | block _ _ _ ih =>
    exact fun name mem => (spells_body ih name mem).mono fun _ mem => .tail _ (List.mem_append_left _ mem)
  | loop _ _ tested _ _ ih =>
    intro name mem
    rcases List.mem_append.mp mem with mem | mem
    · exact (tested.spells name mem).mono fun _ mem => .tail _ (.tail _ (List.mem_append_left _ mem))
    · exact (ih name mem).mono fun _ mem => .tail _ (.tail _ (List.mem_append_right _ (.tail _ mem)))
  | forLoop _ _ started tested _ stepped _ _ isCondition isRound isTree ih =>
    intro name mem
    rcases for_names isCondition isRound isTree mem with mem | mem | mem | mem
    · refine (started.spells name mem).mono fun _ mem => ?_
      simp [mem]
    · refine (tested.spells name mem).mono fun _ mem => ?_
      simp [mem]
    · refine (stepped.spells name mem).mono fun _ mem => ?_
      simp [mem]
    · refine (ih name mem).mono fun _ mem => ?_
      simp [mem]
  | ifOnly _ _ tested _ _ ih =>
    intro name mem
    simp only [Stmt.names,Stmt.namesOption,List.append_nil,List.mem_append] at mem
    rcases mem with mem | mem
    · exact (tested.spells name mem).mono fun _ mem => .tail _ (.tail _ (List.mem_append_left _ mem))
    · exact (ih name mem).mono fun _ mem => .tail _ (.tail _ (List.mem_append_right _ (.tail _ mem)))
  | ifElse _ _ tested _ _ _ _ ihYes ihNo =>
    intro name mem
    simp only [Stmt.names,Stmt.namesOption,List.mem_append] at mem
    rcases mem with mem | mem | mem
    · exact (tested.spells name mem).mono fun _ mem => .tail _ (.tail _ (List.mem_append_left _ mem))
    · refine (ihYes name mem).mono fun _ mem => ?_
      simp [mem]
    · refine (ihNo name mem).mono fun _ mem => ?_
      simp [mem]

theorem names_spelled {source : String} {program : Program} (compiles : compile source = .ok program) :
    ∀ name ∈ Stmt.namesAll program.statements, Spells (Token.scan source).tokens name := by
  obtain ⟨items,each,texts,trees⟩ := derives_of_ofTokens (compile_ok compiles).1
  intro name mem
  rw [trees] at mem
  have spelled := spells_body (fun item given => (each item given).spells) name mem
  rw [← texts] at spelled
  exact spelled.mono (List.takeWhile_subset _)

end TurtleScript.Program
