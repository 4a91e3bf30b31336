import Mathlib.Data.List.Infix
import TurtleScript.Token.Scan

/-!
The rules for tokens, and why scanning follows them. `Lexeme` says which texts are tokens of which kind, one
rule beside the other and without any order among them. What is cut off at a place is the longest text there
that follows any rule, an unclosed string runs to the end, and a character is left alone only where no rule
leads on from it (`cut_shows`).
-/

namespace TurtleScript.Token

/-- Whether all tokens of the kind are written alike. -/
def Kind.fixed : Kind → Bool
  | .number | .string | .identifier | .endOfFile => false
  | _ => true

/-- The texts that are tokens of a kind. The closing quote of a string is optional here, so that a string that
is never closed is a text of its own as well. -/
inductive Lexeme : Kind → List Char → Prop where
  | fixed {kind : Kind} (written : kind.fixed) : Lexeme kind kind.text.toList
  | whole {digits : List Char} (some : digits ≠ []) (all : ∀ c ∈ digits, isDigit c) : Lexeme .number digits
  | decimal {digits fraction : List Char} (some : digits ≠ []) (all : ∀ c ∈ digits, isDigit c)
      (more : fraction ≠ []) (allMore : ∀ c ∈ fraction, isDigit c) :
      Lexeme .number (digits ++ '.' :: fraction)
  | openString {body : List Char} (inside : '"' ∉ body) : Lexeme .string ('"' :: body)
  | string {body : List Char} (inside : '"' ∉ body) : Lexeme .string ('"' :: body ++ ['"'])
  | identifier {first : Char} {word : List Char} (letter : isLetter first) (all : ∀ c ∈ word, isWordChar c) :
      Lexeme .identifier (first :: word)

/-- No text that begins at the place and is a token is longer. -/
def Longest (text rest : List Char) : Prop :=
  ∀ kind other, other <+: text ++ rest → Lexeme kind other → other.length ≤ text.length

def Numeral (tail : List Char) : Prop :=
  (∀ c ∈ tail, isDigit c) ∨
    ∃ digits fraction, tail = digits ++ '.' :: fraction ∧ (∀ c ∈ digits, isDigit c) ∧ fraction ≠ [] ∧
      ∀ c ∈ fraction, isDigit c

def Quotation (tail : List Char) : Prop := '"' ∉ tail ∨ ∃ body, '"' ∉ body ∧ tail = body ++ ['"']

/-- What a token can be, by its first character. -/
inductive Start (c : Char) (tail : List Char) : Prop where
  | number (digit : isDigit c) (numeral : Numeral tail)
  | word (letter : isLetter c) (all : ∀ x ∈ tail, isWordChar x)
  | string (quote : c = '"') (quotation : Quotation tail)
  | mark (known : (markKind? c).isSome) (alone : tail = [])
  | withEq (known : c ∈ ['!','=','<','>']) (short : tail = [] ∨ tail = ['='])

theorem start_of_fixed {kind : Kind} (written : kind.fixed) :
    ∃ c tail, kind.text.toList = c :: tail ∧ Start c tail := by
  cases kind
  case number | string | identifier | endOfFile => cases written
  case bangEq | eqEq | ltEq | gtEq => exact ⟨_,_,rfl,.withEq (by decide) (.inr rfl)⟩
  case bang | eq | lt | gt => exact ⟨_,_,rfl,.withEq (by decide) (.inl rfl)⟩
  case plus | minus | star | slash | leftParen | rightParen | leftBrace | rightBrace | leftBracket
      | rightBracket | comma | dot | semicolon =>
    exact ⟨_,_,rfl,.mark (by decide) rfl⟩
  all_goals exact ⟨_,_,rfl,.word (by decide) (List.all_eq_true.mp (by decide))⟩

theorem Lexeme.start {kind : Kind} {text : List Char} (lexeme : Lexeme kind text) :
    ∃ c tail, text = c :: tail ∧ Start c tail := by
  cases lexeme with
  | fixed written => exact start_of_fixed written
  | whole some all =>
    obtain ⟨c,tail,rfl⟩ := List.exists_cons_of_ne_nil some
    exact ⟨c,tail,rfl,.number (all c (.head _)) (.inl fun x mem => all x (.tail _ mem))⟩
  | @decimal digits fraction some all more allMore =>
    obtain ⟨c,tail,rfl⟩ := List.exists_cons_of_ne_nil some
    refine ⟨c,tail ++ '.' :: fraction,rfl,.number (all c (.head _)) (.inr ?_)⟩
    exact ⟨tail,fraction,rfl,fun x mem => all x (.tail _ mem),more,allMore⟩
  | openString inside => exact ⟨_,_,rfl,.string rfl (.inl inside)⟩
  | @string body inside => exact ⟨_,_,rfl,.string rfl (.inr ⟨body,inside,rfl⟩)⟩
  | identifier letter all => exact ⟨_,_,rfl,.word letter all⟩

/-- A longest text is found by looking at how the other texts at the place can go on from its first
character. -/
theorem longest_of_start {c : Char} {tail rest : List Char}
    (bound : ∀ other, other <+: tail ++ rest → Start c other → other.length ≤ tail.length) :
    Longest (c :: tail) rest := by
  intro kind other begins lexeme
  obtain ⟨first,later,rfl,start⟩ := lexeme.start
  rw [List.cons_append,List.cons_prefix_cons] at begins
  obtain ⟨rfl,begins⟩ := begins
  exact Nat.succ_le_succ (bound later begins start)

theorem isDigit_iff {c : Char} : isDigit c = true ↔ 48 ≤ c.toNat ∧ c.toNat ≤ 57 := by
  simp only [isDigit,Bool.and_eq_true,decide_eq_true_eq,Char.le_def,UInt32.le_iff_toNat_le]
  exact Iff.rfl

theorem isLetter_iff {c : Char} :
    isLetter c = true ↔ (65 ≤ c.toNat ∧ c.toNat ≤ 90) ∨ (97 ≤ c.toNat ∧ c.toNat ≤ 122) := by
  simp only [isLetter,Bool.or_eq_true,Bool.and_eq_true,decide_eq_true_eq,Char.le_def,UInt32.le_iff_toNat_le]
  exact Iff.rfl

theorem not_letter_of_digit {c : Char} (digit : isDigit c) : ¬ isLetter c := by
  rw [isDigit_iff] at digit
  rw [isLetter_iff]
  omega

/-- The marks of one character are neither digits nor letters, and no other token begins with them. -/
theorem mark_plain {c : Char} (known : (markKind? c).isSome) :
    ¬ isDigit c ∧ ¬ isLetter c ∧ c ≠ '"' ∧ c ∉ ['!','=','<','>'] := by
  unfold markKind? at known
  split at known
  case h_14 => cases known
  all_goals decide

variable {p : Char → Bool}

/-- A text of characters of a class is no longer than the run of them at its place. -/
theorem length_le_takeWhile {text cs : List Char} (begins : text <+: cs) (all : ∀ c ∈ text, p c) :
    text.length ≤ (cs.takeWhile p).length := by
  obtain ⟨rest,rfl⟩ := begins
  rw [List.takeWhile_append_of_pos all,List.length_append]
  omega

theorem all_takeWhile (cs : List Char) : ∀ c ∈ cs.takeWhile p, p c :=
  List.all_eq_true.mp List.all_takeWhile

/-- A run ends where the text does or in front of a character of another class. -/
theorem dropWhile_stops {cs : List Char} {c : Char} {rest : List Char} (left : cs.dropWhile p = c :: rest) :
    p c = false := by
  have head := List.head?_dropWhile_not p cs
  rw [left] at head
  simpa using head

theorem mem_of_lookup {word : String} {kind : Kind} {entries : List (String × Kind)}
    (found : entries.lookup word = some kind) : (word,kind) ∈ entries := by
  induction entries with
  | nil => cases found
  | cons entry entries ih =>
    rw [List.lookup_cons] at found
    split at found
    · rename_i same
      cases found
      rw [eq_of_beq same]
      exact .head _
    · exact .tail _ (ih found)

/-- A token of the kind is cut off in front of the rest: its text is the longest that follows any rule, a string
is closed, and it is of a keyword's kind just if it is that keyword. -/
structure TokenAt (kind : Kind) (text rest : List Char) : Prop where
  lexeme : Lexeme kind text
  longest : Longest text rest
  closed : kind = .string → ∃ body, '"' ∉ body ∧ text = '"' :: body ++ ['"']
  keyword : ∀ word reserved, (word,reserved) ∈ Kind.keywords → (kind = reserved ↔ String.ofList text = word)

/-! ### The pieces -/

theorem withEq_plain {c : Char} (known : c ∈ ['!','=','<','>']) : ¬ isDigit c ∧ ¬ isLetter c ∧ c ≠ '"' := by
  simp only [List.mem_cons,List.not_mem_nil,or_false] at known
  rcases known with rfl | rfl | rfl | rfl <;> decide

/-! The first character tells which rules can apply. -/

section
variable {c : Char} {tail : List Char}

theorem Start.numeral (start : Start c tail) (digit : isDigit c) : Numeral tail := by
  cases start with
  | number _ numeral => exact numeral
  | word letter => exact absurd letter (not_letter_of_digit digit)
  | string quote =>
    subst quote
    exact absurd digit (by decide)
  | mark known => exact absurd digit (mark_plain known).1
  | withEq known => exact absurd digit (withEq_plain known).1

theorem Start.wordChars (start : Start c tail) (letter : isLetter c) : ∀ x ∈ tail, isWordChar x := by
  cases start with
  | number digit => exact absurd letter (not_letter_of_digit digit)
  | word _ all => exact all
  | string quote =>
    subst quote
    exact absurd letter (by decide)
  | mark known => exact absurd letter (mark_plain known).2.1
  | withEq known => exact absurd letter (withEq_plain known).2.1

theorem Start.quotation (start : Start '"' tail) : Quotation tail := by
  cases start with
  | number digit => exact absurd digit (by decide)
  | word letter => exact absurd letter (by decide)
  | string _ quotation => exact quotation
  | mark known => exact absurd rfl (mark_plain known).2.2.1
  | withEq known => exact absurd rfl (withEq_plain known).2.2

theorem Start.short (start : Start c tail) (known : c ∈ ['!','=','<','>']) : tail = [] ∨ tail = ['='] := by
  obtain ⟨digit,letter,quote⟩ := withEq_plain known
  cases start with
  | number isDigit => exact absurd isDigit digit
  | word isLetter => exact absurd isLetter letter
  | string isQuote => exact absurd isQuote quote
  | mark isMark => exact absurd known (mark_plain isMark).2.2.2
  | withEq _ short => exact short

end

/-- Each keyword begins with a letter, and is how its kind and no other kind is written. -/
theorem keyword_facts : ∀ entry ∈ Kind.keywords, entry.1.toList.head?.any isLetter ∧ entry.2.fixed ∧
    entry.2.text = entry.1 ∧ ∀ kind ∈ Kind.all, kind.text = entry.1 → kind = entry.2 := by
  decide

/-- A token is of a keyword's kind just if it is that keyword, as long as no keyword is taken for a name. -/
theorem Lexeme.keyword_iff {kind : Kind} {text : List Char} (lexeme : Lexeme kind text)
    (named : kind = .identifier → Kind.keywords.lookup (String.ofList text) = none) {word : String}
    {reserved : Kind} (listed : (word,reserved) ∈ Kind.keywords) :
    kind = reserved ↔ String.ofList text = word := by
  obtain ⟨letter,isFixed,written,unique⟩ := keyword_facts _ listed
  constructor
  · rintro rfl
    cases lexeme with
    | fixed _ => rw [String.ofList_toList,written]
    | _ => cases isFixed
  · rintro rfl
    simp only [String.toList_ofList] at letter
    cases lexeme with
    | fixed _ => exact unique kind kind.mem_all String.ofList_toList.symm
    | whole some all =>
      obtain ⟨c,tail,rfl⟩ := List.exists_cons_of_ne_nil some
      exact absurd letter (not_letter_of_digit (all c (.head _)))
    | decimal some all =>
      obtain ⟨c,tail,rfl⟩ := List.exists_cons_of_ne_nil some
      exact absurd letter (not_letter_of_digit (all c (.head _)))
    | openString => exact absurd (show isLetter '"' from letter) (by decide)
    | string => exact absurd (show isLetter '"' from letter) (by decide)
    | identifier =>
      have missing := List.lookup_eq_none_iff.mp (named rfl) _ listed
      simp at missing

theorem takeFraction_cases (cs : List Char) :
    (takeFraction cs = ([],cs) ∧ ∀ d rest, cs = '.' :: d :: rest → ¬ isDigit d) ∨
      ∃ d rest, cs = '.' :: d :: rest ∧ isDigit d ∧
        takeFraction cs = ('.' :: (d :: rest).takeWhile isDigit,(d :: rest).dropWhile isDigit) := by
  unfold takeFraction
  split
  case h_1 d rest =>
    by_cases digit : isDigit d
    · refine .inr ⟨d,rest,rfl,digit,?_⟩
      simp [digit]
    · refine .inl ⟨by simp [digit],fun d' rest' same => ?_⟩
      cases same
      exact digit
  case h_2 other => exact .inl ⟨rfl,fun d rest same => absurd same (other d rest)⟩

theorem cutNumber_at {c : Char} (digit : isDigit c) (cs : List Char) :
    TokenAt .number (c :: (cutNumber c cs).tail) (cutNumber c cs).rest := by
  have digits : ∀ x ∈ c :: cs.takeWhile isDigit, isDigit x := by
    intro x mem
    rcases List.mem_cons.mp mem with rfl | mem
    · exact digit
    · exact all_takeWhile cs x mem
  have lexeme : Lexeme .number (c :: (cutNumber c cs).tail) := by
    have some : c :: cs.takeWhile isDigit ≠ [] := List.cons_ne_nil _ _
    rcases takeFraction_cases (cs.dropWhile isDigit) with ⟨out,_⟩ | ⟨d,rest,_,follows,out⟩
    · simp only [cutNumber,out,List.append_nil]
      exact .whole some digits
    · simp only [cutNumber,out]
      refine .decimal some digits ?_ (all_takeWhile _)
      simp [List.takeWhile_cons_of_pos follows]
  refine ⟨lexeme,longest_of_start fun other begins start => ?_,by rintro ⟨⟩,fun _ _ => lexeme.keyword_iff (by rintro ⟨⟩)⟩
  rw [cutNumber_append] at begins
  rcases start.numeral digit with all | ⟨whole,fraction,rfl,all,more,allMore⟩
  · have short := length_le_takeWhile begins all
    simp only [cutNumber,List.length_append]
    omega
  · -- The digits in front of the point are all there are, so the fraction is found behind them.
    obtain ⟨behind,same⟩ := begins
    rw [List.append_assoc,List.cons_append] at same
    have front : cs.takeWhile isDigit = whole := by
      rw [← same,List.takeWhile_append_of_pos all,List.takeWhile_cons_of_neg (by decide),List.append_nil]
    have back : cs.dropWhile isDigit = '.' :: (fraction ++ behind) := by
      rw [← same,List.dropWhile_append_of_pos all,List.dropWhile_cons_of_neg (by decide)]
    have long := length_le_takeWhile (List.prefix_append fraction behind) allMore
    obtain ⟨d,later,rfl⟩ := List.exists_cons_of_ne_nil more
    rcases takeFraction_cases (cs.dropWhile isDigit) with ⟨_,none⟩ | ⟨d',rest,same',_,out⟩
    · exact absurd (allMore d (.head _)) (none d (later ++ behind) back)
    · obtain ⟨rfl,rfl⟩ : d = d' ∧ later ++ behind = rest := by simpa [back] using same'
      rw [List.cons_append] at long
      simp only [cutNumber,out,front,List.length_append,List.length_cons] at long ⊢
      omega

theorem cutWord_at {c : Char} (letter : isLetter c) (cs : List Char) :
    TokenAt (Kind.ofWord (String.ofList (c :: cs.takeWhile isWordChar))) (c :: cs.takeWhile isWordChar)
      (cs.dropWhile isWordChar) := by
  unfold Kind.ofWord
  have longest : Longest (c :: cs.takeWhile isWordChar) (cs.dropWhile isWordChar) := by
    refine longest_of_start fun other begins start => ?_
    rw [List.takeWhile_append_dropWhile] at begins
    exact length_le_takeWhile begins (start.wordChars letter)
  cases found : Kind.keywords.lookup (String.ofList (c :: cs.takeWhile isWordChar)) with
  | none =>
    have lexeme : Lexeme .identifier (c :: cs.takeWhile isWordChar) := .identifier letter (all_takeWhile cs)
    exact ⟨lexeme,longest,by rintro ⟨⟩,fun _ _ => lexeme.keyword_iff fun _ => found⟩
  | some kind =>
    obtain ⟨_,isFixed,written,_⟩ := keyword_facts _ (mem_of_lookup found)
    have lexeme : Lexeme kind (c :: cs.takeWhile isWordChar) := by
      have text := Lexeme.fixed isFixed
      rw [written,String.toList_ofList] at text
      exact text
    refine ⟨lexeme,longest,?_,fun _ _ => lexeme.keyword_iff ?_⟩
    · rintro rfl
      cases isFixed
    · rintro rfl
      cases isFixed

/-- A string that is closed is cut off behind its closing quote, and any other runs to the end. -/
theorem cutString_cases (cs : List Char) :
    (∃ payload, (cutString cs).piece = .token .string payload ∧
      TokenAt .string ('"' :: (cutString cs).tail) (cutString cs).rest) ∨
    ((cutString cs).piece = .unterminated ∧ '"' ∉ (cutString cs).tail ∧ (cutString cs).rest = []) := by
  have inside : '"' ∉ cs.takeWhile (· ≠ '"') := by
    intro mem
    have other := all_takeWhile (p := (· ≠ '"')) cs _ mem
    simp at other
  unfold cutString
  cases left : cs.dropWhile (· ≠ '"') with
  | nil => exact .inr ⟨rfl,inside,rfl⟩
  | cons quote rest =>
    have isQuote : quote = '"' := by simpa using dropWhile_stops left
    subst isQuote
    have lexeme : Lexeme .string ('"' :: (cs.takeWhile (· ≠ '"') ++ ['"'])) := .string inside
    refine .inl ⟨_,rfl,lexeme,longest_of_start fun other begins start => ?_,fun _ => ⟨_,inside,rfl⟩,fun _ _ =>
      lexeme.keyword_iff (by rintro ⟨⟩)⟩
    have whole : cs.takeWhile (· ≠ '"') ++ ['"'] ++ rest = cs := by
      rw [List.append_assoc,List.singleton_append,← left,List.takeWhile_append_dropWhile]
    rw [whole] at begins
    have bound : ∀ text : List Char, text <+: cs → '"' ∉ text →
        text.length ≤ (cs.takeWhile (· ≠ '"')).length := by
      intro text begins clean
      refine length_le_takeWhile begins fun x mem => ?_
      simp only [ne_eq,decide_not,Bool.not_eq_eq_eq_not,Bool.not_true,decide_eq_false_iff_not]
      rintro rfl
      exact clean mem
    rw [List.length_append,List.length_singleton]
    rcases start.quotation with clean | ⟨body,clean,rfl⟩
    · have short := bound other begins clean
      omega
    · have short := bound body ((List.prefix_append _ _).trans begins) clean
      rw [List.length_append,List.length_singleton]
      omega

theorem tokenAt_fixed {kind : Kind} {text rest : List Char} (isFixed : kind.fixed) (written : kind.text.toList = text)
    (longest : Longest text rest) : TokenAt kind text rest := by
  have lexeme : Lexeme kind text := written ▸ Lexeme.fixed isFixed
  refine ⟨lexeme,longest,?_,fun _ _ => lexeme.keyword_iff ?_⟩
  · rintro rfl
    cases isFixed
  · rintro rfl
    cases isFixed

theorem cutMark_at {c : Char} (known : c ∈ ['!','=','<','>']) {alone withEq : Kind} (short : alone.text.toList = [c])
    (long : withEq.text.toList = [c,'=']) (isFixed : alone.fixed ∧ withEq.fixed) (cs : List Char) :
    ∃ kind, (cutMark alone withEq cs).piece = .token kind none ∧
      TokenAt kind (c :: (cutMark alone withEq cs).tail) (cutMark alone withEq cs).rest := by
  unfold cutMark
  split
  case h_1 rest =>
    refine ⟨withEq,rfl,tokenAt_fixed isFixed.2 long (longest_of_start fun other _ start => ?_)⟩
    rcases start.short known with rfl | rfl <;> simp
  case h_2 other =>
    refine ⟨alone,rfl,tokenAt_fixed isFixed.1 short (longest_of_start fun text begins start => ?_)⟩
    rcases start.short known with rfl | rfl
    · simp
    · obtain ⟨rest,same⟩ := begins
      exact absurd same.symm (other rest)

theorem mark_written {c : Char} {kind : Kind} (known : markKind? c = some kind) :
    kind.fixed ∧ kind.text.toList = [c] := by
  unfold markKind? at known
  split at known
  case h_14 => cases known
  all_goals
    cases known
    decide

/-- What the piece is that is cut off at a place, as its text and the text behind it show. -/
def Shows (c : Char) (cs : List Char) (found : Cut) : Prop :=
  match found.piece with
  | .skipped => (isBlank c ∧ (∀ x ∈ found.tail, isBlank x)) ∨
      (c = '#' ∧ '\n' ∉ found.tail ∧ (found.rest = [] ∨ found.rest.head? = some '\n'))
  | .token kind _ => TokenAt kind (c :: found.tail) found.rest
  | .unterminated => c = '"' ∧ '"' ∉ found.tail ∧ found.rest = []
  | .unexpected => found.tail = [] ∧ (¬ isBlank c ∧ c ≠ '#') ∧
      ∀ kind text, text <+: c :: cs → ¬ Lexeme kind text

theorem shows_token {c : Char} {cs : List Char} {found : Cut} {kind : Kind} {payload : Option Payload}
    (piece : found.piece = .token kind payload) (token : TokenAt kind (c :: found.tail) found.rest) :
    Shows c cs found := by
  unfold Shows
  rw [piece]
  exact token

theorem comment_ends (cs : List Char) : '\n' ∉ cs.takeWhile (· ≠ '\n') ∧
    (cs.dropWhile (· ≠ '\n') = [] ∨ (cs.dropWhile (· ≠ '\n')).head? = some '\n') := by
  constructor
  · intro mem
    have other := all_takeWhile (p := (· ≠ '\n')) cs _ mem
    simp at other
  · cases left : cs.dropWhile (· ≠ '\n') with
    | nil => exact .inl rfl
    | cons c rest => exact .inr (congrArg some (by simpa using dropWhile_stops left))

/-- What is cut off at a place is what the rules for tokens, blanks and comments say. -/
theorem cut_shows (c : Char) (cs : List Char) : Shows c cs (cut c cs) := by
  unfold cut
  split
  case isTrue blank => exact .inl ⟨blank,all_takeWhile cs⟩
  case isFalse notBlank =>
  split
  case isTrue hash => exact .inr ⟨hash,comment_ends cs⟩
  case isFalse notHash =>
  split
  case isTrue digit => exact cutNumber_at digit cs
  case isFalse notDigit =>
  split
  case isTrue letter => exact cutWord_at letter cs
  case isFalse notLetter =>
  split
  case isTrue quote =>
    subst quote
    rcases cutString_cases cs with ⟨payload,piece,token⟩ | ⟨piece,clean,atEnd⟩
    · exact shows_token piece token
    · unfold Shows
      rw [piece]
      exact ⟨rfl,clean,atEnd⟩
  case isFalse notQuote =>
  -- The marks that an equals sign can follow.
  by_cases known : c ∈ ['!','=','<','>']
  · have marked : ∀ {alone withEq : Kind}, alone.text.toList = [c] → withEq.text.toList = [c,'='] →
        alone.fixed ∧ withEq.fixed → Shows c cs (cutMark alone withEq cs) := by
      intro alone withEq short long isFixed
      obtain ⟨kind,piece,token⟩ := cutMark_at known short long isFixed cs
      exact shows_token piece token
    simp only [List.mem_cons,List.not_mem_nil,or_false] at known
    rcases known with rfl | rfl | rfl | rfl <;> exact marked rfl rfl ⟨rfl,rfl⟩
  · have others := known
    simp only [List.mem_cons,List.not_mem_nil,or_false,not_or] at others
    rw [if_neg others.1,if_neg others.2.1,if_neg others.2.2.1,if_neg others.2.2.2]
    cases mark : markKind? c with
    | some kind =>
      obtain ⟨isFixed,written⟩ := mark_written mark
      refine tokenAt_fixed isFixed written (longest_of_start fun other _ start => ?_)
      cases start with
      | number digit => exact absurd digit notDigit
      | word letter => exact absurd letter notLetter
      | string quote => exact absurd quote notQuote
      | mark _ alone => rw [alone]
      | withEq isKnown => exact absurd isKnown known
    | none =>
      refine ⟨rfl,⟨notBlank,notHash⟩,fun kind text begins lexeme => ?_⟩
      obtain ⟨first,later,rfl,start⟩ := lexeme.start
      obtain ⟨rfl,_⟩ := List.cons_prefix_cons.mp begins
      cases start with
      | number digit => exact absurd digit notDigit
      | word letter => exact absurd letter notLetter
      | string quote => exact absurd quote notQuote
      | mark isMark => simp [mark] at isMark
      | withEq isKnown => exact absurd isKnown known

end TurtleScript.Token
