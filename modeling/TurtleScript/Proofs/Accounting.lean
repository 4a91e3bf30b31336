import Mathlib.Data.String.Basic
import TurtleScript.Proofs.Lexemes

/-!
Where every character of a source text goes. An account of a text (`Account`) divides it into items, each a token
or a problem, with blanks and comments between them, and puts each item at its bytes and its line. Scanning
gives such an account (`items_account`), so items come in order, none overlaps another, and nothing else than
blanks and comments is left out (`scan_accounts`).
-/

namespace TurtleScript.Token

def spanBehind (before text : List Char) : Span :=
  ⟨String.utf8Len before,String.utf8Len before + String.utf8Len text,1 + before.count '\n'⟩

/-- Blanks, and comments to the end of their lines, in front of some text. -/
inductive Layout (behind : List Char) : List Char → Prop where
  | nil : Layout behind []
  | blank {c : Char} {gap : List Char} (isBlank : isBlank c) (rest : Layout behind gap) : Layout behind (c :: gap)
  | comment {body gap : List Char} (inLine : '\n' ∉ body)
      (ends : gap ++ behind = [] ∨ (gap ++ behind).head? = some '\n') (rest : Layout behind gap) :
      Layout behind ('#' :: body ++ gap)

/-- What an item says of its text, behind some text and in front of the rest. -/
inductive Describes (before text rest : List Char) : Item → Prop where
  | token {kind : Kind} (payload : Option Payload) (token : TokenAt kind text rest) :
      Describes before text rest (.token ⟨kind,String.ofList text,payload,spanBehind before text⟩)
  | unterminated {body : List Char} (opened : text = '"' :: body) (inside : '"' ∉ body) (atEnd : rest = []) :
      Describes before text rest (.problem (.scan "Unterminated string." (spanBehind before text)))
  | unexpected {c : Char} (alone : text = [c]) (visible : ¬ isBlank c ∧ c ≠ '#')
      (nothing : ∀ kind other, other <+: text ++ rest → ¬ Lexeme kind other) :
      Describes before text rest
        (.problem (.scan s!"Unexpected character '{String.ofList text}'." (spanBehind before text)))

/-- The items of a text behind another one, with blanks and comments between them. -/
inductive Account : List Char → List Char → List Item → Prop where
  | done {before gap : List Char} (layout : Layout [] gap) : Account before gap []
  | item {before gap text rest : List Char} {item : Item} {items : List Item} (layout : Layout (text ++ rest) gap)
      (described : Describes (before ++ gap) text rest item) (later : Account (before ++ gap ++ text) rest items) :
      Account before (gap ++ (text ++ rest)) (item :: items)

def Item.span : Item → Span
  | .token t => t.span
  | .problem d => d.span?.getD default

theorem after_eq (place : Place) (text : List Char) :
    place.after text = ⟨place.offset + String.utf8Len text,place.line + text.count '\n'⟩ := by
  induction text generalizing place with
  | nil => rfl
  | cons c text ih =>
    have rest := ih (place.next c)
    show (place.next c).after text = _
    rw [rest]
    by_cases newline : c = '\n'
    · simp [Place.next,newline]
      omega
    · simp [Place.next,newline]
      omega

def placeBehind (before : List Char) : Place := Place.after {} before

theorem placeBehind_eq (before : List Char) : placeBehind before = ⟨String.utf8Len before,1 + before.count '\n'⟩ := by
  unfold placeBehind
  rw [after_eq]
  simp

theorem placeBehind_append (before text : List Char) : placeBehind (before ++ text) = (placeBehind before).after text :=
  List.foldl_append

theorem span_placeBehind (before text : List Char) :
    (⟨(placeBehind before).offset,((placeBehind before).after text).offset,(placeBehind before).line⟩ : Span) =
      spanBehind before text := by
  rw [after_eq,placeBehind_eq]
  rfl

section
variable {before skipped rest : List Char} {items : List Item}

theorem Account.skip (later : Account (before ++ skipped) rest items)
    (layout : ∀ gap behind, rest = gap ++ behind → Layout behind gap → Layout behind (skipped ++ gap)) :
    Account before (skipped ++ rest) items := by
  cases later with
  | done last => exact .done (layout rest [] (List.append_nil _).symm last)
  | item inner described later =>
    rw [← List.append_assoc]
    refine .item (layout _ _ rfl inner) ?_ ?_
    · rwa [← List.append_assoc]
    · rwa [← List.append_assoc]

theorem layout_blanks {behind gap : List Char} (all : ∀ c ∈ skipped, isBlank c) (layout : Layout behind gap) :
    Layout behind (skipped ++ gap) := by
  induction skipped with
  | nil => exact layout
  | cons c skipped ih => exact .blank (all c (.head _)) (ih fun x mem => all x (.tail _ mem))

end

/-- What is cut off behind some text is left out as a layout, or an item describes it. -/
theorem cut_account (c : Char) (cs before : List Char) {later : List Item}
    (account : Account (before ++ c :: (cut c cs).tail) (cut c cs).rest later) :
    Account before (c :: cs)
      ((Item.ofPiece? (cut c cs).piece (c :: (cut c cs).tail) (spanBehind before (c :: (cut c cs).tail))).toList ++
        later) := by
  have whole : c :: cs = (c :: (cut c cs).tail) ++ (cut c cs).rest := by
    rw [List.cons_append,cut_append]
  have itemized {item : Item} (described : Describes before (c :: (cut c cs).tail) (cut c cs).rest item) :
      Account before (c :: cs) (item :: later) := by
    have nothing : Layout ((c :: (cut c cs).tail) ++ (cut c cs).rest) [] := .nil
    rw [whole]
    exact .item nothing (by rwa [List.append_nil]) (by rwa [List.append_nil])
  have shows := cut_shows c cs
  unfold Shows at shows
  split at shows
  case h_1 piece =>
    rw [piece,whole]
    refine account.skip fun gap behind split layout => ?_
    rcases shows with ⟨blank,blanks⟩ | ⟨rfl,inLine,ends⟩
    · refine layout_blanks (fun x mem => ?_) layout
      rcases List.mem_cons.mp mem with rfl | mem
      · exact blank
      · exact blanks x mem
    · exact .comment inLine (split ▸ ends) layout
  case h_2 kind payload piece =>
    rw [piece]
    exact itemized (.token payload shows)
  case h_3 piece =>
    obtain ⟨rfl,inside,atEnd⟩ := shows
    rw [piece]
    exact itemized (.unterminated rfl inside atEnd)
  case h_4 piece =>
    obtain ⟨alone,visible,nothing⟩ := shows
    rw [piece]
    refine itemized (.unexpected (congrArg (c :: ·) alone) visible ?_)
    rwa [← whole]

theorem items_account (before cs : List Char) :
    Account before cs (items (placeBehind before) cs).1 ∧
      (items (placeBehind before) cs).2 = placeBehind (before ++ cs) := by
  match cs with
  | [] =>
    rw [items,List.append_nil]
    exact ⟨.done .nil,rfl⟩
  | c :: cs =>
    have shorter := cut_rest_length c cs
    obtain ⟨account,last⟩ := items_account (before ++ c :: (cut c cs).tail) (cut c cs).rest
    rw [placeBehind_append] at account last
    rw [items,span_placeBehind]
    refine ⟨cut_account c cs before account,?_⟩
    rw [last,List.append_assoc,List.cons_append,cut_append]
termination_by cs.length

/-! ### What an account says -/

section
variable {before text rest : List Char} {item : Item}

theorem Describes.text_ne_nil (described : Describes before text rest item) : text ≠ [] := by
  cases described with
  | token _ token =>
    obtain ⟨c,tail,rfl,_⟩ := token.lexeme.start
    exact List.cons_ne_nil _ _
  | unterminated opened => exact opened ▸ List.cons_ne_nil _ _
  | unexpected alone => exact alone ▸ List.cons_ne_nil _ _

theorem Describes.span_eq (described : Describes before text rest item) : item.span = spanBehind before text := by
  cases described <;> rfl

theorem utf8Len_pos (some : text ≠ []) : 0 < String.utf8Len text := by
  obtain ⟨c,tail,rfl⟩ := List.exists_cons_of_ne_nil some
  rw [String.utf8Len_cons]
  exact Nat.add_pos_right _ c.utf8Size_pos

theorem Describes.not_endOfFile {t : Token} (described : Describes before text rest (.token t)) :
    t.kind ≠ .endOfFile := by
  cases described with
  | token _ token =>
    rintro rfl
    cases token.lexeme with
    | fixed written => cases written

theorem Describes.ends {span : Span}
    (described : Describes before text rest (.problem (.scan "Unterminated string." span))) : rest = [] := by
  generalize same : Item.problem (.scan "Unterminated string." span) = item at described
  cases described with
  | token => cases same
  | unterminated _ _ atEnd => exact atEnd
  | unexpected =>
    have third := congrArg (fun message : String => message.toList[2]?) (Diagnostic.scan.inj (Item.problem.inj same)).1
    simp [toString,String.toList_append] at third

theorem Account.ordered {cs : List Char} {items : List Item} (account : Account before cs items) :
    (∀ item ∈ items, String.utf8Len before ≤ item.span.start) ∧
      items.Pairwise fun a b => a.span.stop ≤ b.span.start := by
  induction account with
  | done => exact ⟨nofun,.nil⟩
  | @item before gap text rest item items layout described later ih =>
    obtain ⟨behind,ordered⟩ := ih
    have stop : item.span.stop = String.utf8Len (before ++ gap ++ text) := by
      rw [described.span_eq,String.utf8Len_append]
      rfl
    refine ⟨fun other mem => ?_,.cons (fun other mem => stop ▸ behind other mem) ordered⟩
    rcases List.mem_cons.mp mem with rfl | mem
    · rw [described.span_eq]
      simp [spanBehind]
    · have bound := behind other mem
      simp only [String.utf8Len_append] at bound
      omega

/-- Each item describes some of the text, and one that reaches the end is the last one. -/
theorem Account.placed {cs : List Char} {items : List Item} (account : Account before cs items) :
    ∀ item ∈ items, ∃ front text rest, before ++ cs = front ++ text ++ rest ∧ Describes front text rest item ∧
      (rest = [] → items.getLast? = some item) := by
  induction account with
  | done => exact nofun
  | @item before gap text rest item items layout described later ih =>
    intro other mem
    rcases List.mem_cons.mp mem with rfl | mem
    · refine ⟨before ++ gap,text,rest,by simp,described,fun atEnd => ?_⟩
      subst atEnd
      generalize none_left : ([] : List Char) = cs at later
      cases later with
      | done => rfl
      | item _ described =>
        have nothing := List.append_eq_nil_iff.mp none_left.symm
        exact absurd (List.append_eq_nil_iff.mp nothing.2).1 described.text_ne_nil
    · obtain ⟨front,inner,behind,split,found,last⟩ := ih other mem
      refine ⟨front,inner,behind,by simpa using split,found,fun atEnd => ?_⟩
      rw [List.getLast?_cons,last atEnd]
      rfl

end

/-- What is found at a place of the source text: it lies between boundaries of characters, its line counts the
newlines in front of it, and it describes the slice of the source text there. -/
structure Placed (source : String) (item : Item) : Prop where
  nonempty : item.span.start < item.span.stop
  starts : String.Pos.Raw.IsValid source ⟨item.span.start⟩
  stops : String.Pos.Raw.IsValid source ⟨item.span.stop⟩
  line : item.span.line = 1 + (String.Pos.Raw.extract source 0 ⟨item.span.start⟩).toList.count '\n'
  described : ∃ before text rest, source.toList = before ++ text ++ rest ∧
    String.Pos.Raw.extract source ⟨item.span.start⟩ ⟨item.span.stop⟩ = String.ofList text ∧
    Describes before text rest item

theorem isValid_utf8Len (before rest : List Char) :
    String.Pos.Raw.IsValid (String.ofList (before ++ rest)) ⟨String.utf8Len before⟩ := by
  refine String.Pos.Raw.isValid_iff_exists_append.mpr ⟨String.ofList before,String.ofList rest,?_,?_⟩
  · rw [String.ofList_append]
  · rw [String.rawEndPos,String.utf8ByteSize_ofList]

theorem Describes.placed {before text rest : List Char} {item : Item} (described : Describes before text rest item) :
    Placed (String.ofList (before ++ text ++ rest)) item := by
  have span := described.span_eq
  have some := utf8Len_pos described.text_ne_nil
  refine ⟨?_,?_,?_,?_,before,text,rest,String.toList_ofList,?_,described⟩
  · rw [span]
    simp only [spanBehind]
    omega
  · rw [span,List.append_assoc]
    exact isValid_utf8Len before (text ++ rest)
  · have boundary := isValid_utf8Len (before ++ text) rest
    rw [String.utf8Len_append] at boundary
    rw [span]
    exact boundary
  · have front := String.extract_of_valid [] before (text ++ rest)
    rw [List.nil_append,String.utf8Len_nil,Nat.zero_add,← List.append_assoc] at front
    rw [span]
    simp only [spanBehind]
    rw [show (0 : String.Pos.Raw) = ⟨0⟩ from rfl,front,String.toList_ofList]
  · rw [span]
    exact String.extract_of_valid before text rest

/-- The items found in a source text cover it. -/
structure Covers (source : String) (found : List Item) : Prop where
  /-- What no item covers is blanks and comments. -/
  account : Account [] source.toList found
  ordered : found.Pairwise fun a b => a.span.stop ≤ b.span.start
  placed : ∀ item ∈ found, Placed source item
  /-- A string that is never closed runs to the end, and nothing is found behind it. -/
  unclosed : ∀ span, .problem (.scan "Unterminated string." span) ∈ found →
    span.stop = source.utf8ByteSize ∧ found.getLast? = some (.problem (.scan "Unterminated string." span))
  proper : ∀ t, .token t ∈ found → t.kind ≠ .endOfFile

theorem Account.covers {source : String} {found : List Item} (account : Account [] source.toList found) :
    Covers source found := by
  have spot := account.placed
  simp only [List.nil_append] at spot
  refine ⟨account,account.ordered.2,fun item mem => ?_,fun span mem => ?_,fun t mem => ?_⟩
  · obtain ⟨front,text,rest,split,described,_⟩ := spot item mem
    rw [← source.ofList_toList,split]
    exact described.placed
  · obtain ⟨front,text,rest,split,described,last⟩ := spot _ mem
    have atEnd := described.ends
    subst atEnd
    refine ⟨?_,last rfl⟩
    rw [← source.ofList_toList,split,String.utf8ByteSize_ofList,List.append_nil,String.utf8Len_append]
    exact congrArg Span.stop described.span_eq
  · obtain ⟨_,_,_,_,described,_⟩ := spot _ mem
    exact described.not_endOfFile

/-- Every character of a source text is accounted for: it is in a token or a problem, which are in the order of
the text and without overlaps, or it is a blank or in a comment. One end mark at the end of the text comes
behind all tokens. -/
theorem scan_accounts (source : String) : ∃ found : List Item,
    Covers source found ∧
    (scan source).tokens =
      found.filterMap Item.token? ++ [Token.endAt (.point source.utf8ByteSize (1 + source.toList.count '\n'))] ∧
    (scan source).problems = found.filterMap Item.problem? := by
  obtain ⟨account,last⟩ := items_account [] source.toList
  rw [List.nil_append,placeBehind_eq source.toList] at last
  refine ⟨_,account.covers,?_,rfl⟩
  have size : String.utf8Len source.toList = source.utf8ByteSize := by
    rw [← String.utf8ByteSize_ofList,String.ofList_toList]
  rw [size] at last
  have tokens : (scan source).tokens = (items (placeBehind []) source.toList).1.filterMap Item.token? ++
      [Token.endAt (.point (items (placeBehind []) source.toList).2.offset
        (items (placeBehind []) source.toList).2.line)] := rfl
  rw [tokens,last]

end TurtleScript.Token
