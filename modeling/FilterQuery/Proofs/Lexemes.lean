import FilterQuery.Proofs.Outcome
import FilterQuery.Token.Scan
import Mathlib.Tactic

/-!
# Lexemes

The written forms of tokens, stated without the scanner. A text that is scanned consists of
lexemes with white space around them, and its tokens are those of the lexemes, each at the position
of its first character. Lexemes with white space between them are scanned to their tokens again:
white space ends every lexeme, and nothing else in the text after it is looked at.
-/

namespace FilterQuery

open Outcome

def Comparator.symbols : Comparator → List Text
  | eq => [['='], ['=', '=']]
  | ne => [['!', '='], ['<', '>']]
  | gt => [['>']]
  | ge => [['>', '=']]
  | lt => [['<']]
  | le => [['<', '=']]

theorem Comparator.ofSymbol?_eq_some_iff {symbol : Text} {op : Comparator} :
    ofSymbol? symbol = some op ↔ symbol ∈ op.symbols := by
  constructor
  · intro h
    unfold ofSymbol? at h
    split at h <;> cases h <;> simp [symbols]
  · intro h
    cases op <;> simp only [symbols, List.mem_cons, List.not_mem_nil, or_false] at h
    · rcases h with rfl | rfl <;> rfl
    · rcases h with rfl | rfl <;> rfl
    all_goals
      subst h
      rfl

namespace Keyword

theorem mem_all (keyword : Keyword) : keyword ∈ all := by
  cases keyword <;> decide

theorem ofWord?_eq_some_iff {word : Text} {keyword : Keyword} :
    ofWord? word = some keyword ↔ Text.inCapitals word = keyword.spelling := by
  constructor
  · intro h
    have hspelling := List.find?_some h
    exact (beq_iff_eq.1 hspelling).symm
  · intro h
    rw [ofWord?, h]
    cases keyword <;> decide

theorem ofWord?_eq_none_iff {word : Text} :
    ofWord? word = none ↔ ∀ keyword : Keyword, Text.inCapitals word ≠ keyword.spelling := by
  simp only [ofWord?, List.find?_eq_none, beq_iff_eq]
  constructor
  · intro h keyword hspelling
    exact h keyword keyword.mem_all hspelling.symm
  · intro h keyword _ hspelling
    exact h keyword hspelling.symm

end Keyword

namespace Token

/-- The content of a string as it is written, each quote twice. -/
def doubled (content : Text) : Text :=
  content.flatMap fun c => if c = '\'' then ['\'', '\''] else [c]

theorem doubled_cons_of_ne {c : Char} (h : c ≠ '\'') (content : Text) :
    doubled (c :: content) = c :: doubled content := by
  simp [doubled, h]

/-- A letter, an underscore or a mark, then letters, numerals, underscores, points and marks. -/
def IsWord : Text → Prop
  | [] => False
  | first :: rest => (Text.isLetter first = true ∨ first = '_' ∨ first = '@') ∧
    ∀ c ∈ rest, Text.isLetter c = true ∨ Text.isNumeral c = true ∨ c = '_' ∨ c = '.' ∨ c = '@'

def IsFigures (figures : Text) : Prop := figures ≠ [] ∧ ∀ c ∈ figures, c.isDigit = true ∨ c = '.'

/-- The written forms of tokens. -/
inductive Lexeme : Text → Token → Prop
  | opening : Lexeme ['('] .opening
  | closing : Lexeme [')'] .closing
  | comma : Lexeme [','] .comma
  | string (content : Text) : Lexeme ('\'' :: doubled content ++ ['\'']) (.string content)
  | comparator {symbol : Text} {op : Comparator} : symbol ∈ op.symbols →
    Lexeme symbol (.comparator op)
  | number {figures : Text} : IsFigures figures → Lexeme figures (.number figures)
  | plus {figures : Text} : IsFigures figures → Lexeme ('+' :: figures) (.number figures)
  | minus {figures : Text} : IsFigures figures →
    Lexeme ('-' :: figures) (.number ('-' :: figures))
  | keyword {word : Text} {keyword : Keyword} : IsWord word →
    Text.inCapitals word = keyword.spelling → Lexeme word (.keyword keyword)
  | field {word : Text} : IsWord word →
    (∀ keyword : Keyword, Text.inCapitals word ≠ keyword.spelling) →
    Lexeme word (.field (word.dropWhile (· == '@')))

theorem isWord_cons_iff {first : Char} {rest : Text} :
    IsWord (first :: rest) ↔ isWordStart first = true ∧ ∀ c ∈ rest, isWordChar c = true := by
  simp [IsWord, isWordStart, isWordChar, or_assoc]

theorem isFigures_iff {figures : Text} :
    IsFigures figures ↔ figures ≠ [] ∧ ∀ c ∈ figures, isNumberChar c = true := by
  simp [IsFigures, isNumberChar]

/-! ### What is scanned is a lexeme -/

theorem readString_eq_some {text content : Text} {n : Nat}
    (h : readString text = some (content, n)) :
    ∃ tail, text = doubled content ++ ['\''] ++ tail ∧ (doubled content ++ ['\'']).length = n := by
  fun_induction readString text generalizing content n with
  | case1 => cases h
  | case2 rest ih =>
    obtain ⟨⟨content', m⟩, hrest, heq⟩ := Option.map_eq_some_iff.1 h
    cases heq
    obtain ⟨tail, rfl, rfl⟩ := ih hrest
    exact ⟨tail, rfl, rfl⟩
  | case3 rest =>
    cases h
    exact ⟨rest, rfl, rfl⟩
  | case4 c rest _ hquote ih =>
    obtain ⟨⟨content', m⟩, hrest, heq⟩ := Option.map_eq_some_iff.1 h
    cases heq
    obtain ⟨tail, rfl, rfl⟩ := ih hrest
    rw [doubled_cons_of_ne hquote]
    exact ⟨tail, rfl, rfl⟩

theorem lexeme_ofWord {word : Text} (h : IsWord word) : Lexeme word (ofWord word) := by
  unfold ofWord
  cases hword : Keyword.ofWord? word with
  | some keyword => exact .keyword h (Keyword.ofWord?_eq_some_iff.1 hword)
  | none => exact .field h (Keyword.ofWord?_eq_none_iff.1 hword)

theorem isFigures_takeWhile {rest : Text} (h : rest.head?.any isNumberChar = true) :
    IsFigures (rest.takeWhile isNumberChar) := by
  refine isFigures_iff.2 ⟨?_, List.all_eq_true.1 List.all_takeWhile⟩
  cases rest with
  | nil => cases h
  | cons c rest =>
    have hc : isNumberChar c = true := h
    rw [List.takeWhile_cons_of_pos hc]
    exact List.cons_ne_nil _ _

/-- A token that is scanned was written in one of the forms. -/
theorem lexeme_eq_ok {c : Char} {rest : Text} {token : Token} {n : Nat}
    (h : lexeme c rest = .ok (token, n)) :
    ∃ more tail, rest = more ++ tail ∧ more.length = n ∧ Lexeme (c :: more) token := by
  have hsingle : ∀ {token}, Lexeme [c] token →
      ∃ more tail, rest = more ++ tail ∧ more.length = 0 ∧ Lexeme (c :: more) token :=
    fun hlexeme => ⟨[], rest, rfl, rfl, hlexeme⟩
  have hclass : ∀ {p : Char → Bool} {token}, Lexeme (c :: rest.takeWhile p) token →
      ∃ more tail, rest = more ++ tail ∧ more.length = (rest.takeWhile p).length ∧
        Lexeme (c :: more) token :=
    fun hlexeme => ⟨_, _, List.takeWhile_append_dropWhile.symm, rfl, hlexeme⟩
  unfold lexeme at h
  split_ifs at h with hopening hclosing hcomma hquote hcomparator hsign hminus hfigure hword
  · cases h
    obtain rfl := beq_iff_eq.1 hopening
    exact hsingle .opening
  · cases h
    obtain rfl := beq_iff_eq.1 hclosing
    exact hsingle .closing
  · cases h
    obtain rfl := beq_iff_eq.1 hcomma
    exact hsingle .comma
  · obtain rfl := beq_iff_eq.1 hquote
    split at h
    · rename_i content m hstring
      cases h
      obtain ⟨tail, hrest, hlength⟩ := readString_eq_some hstring
      exact ⟨_, tail, hrest, hlength, .string content⟩
    · cases h
  · dsimp only at h
    split at h
    · rename_i op hop
      cases h
      exact hclass (.comparator (Comparator.ofSymbol?_eq_some_iff.1 hop))
    · cases h
  · cases h
    obtain rfl := beq_iff_eq.1 hminus
    exact hclass (.minus (isFigures_takeWhile (Bool.and_eq_true_iff.1 hsign).2))
  · cases h
    obtain ⟨hone, hfigures⟩ := Bool.and_eq_true_iff.1 hsign
    have hplus : c = '+' := by simpa [hminus] using hone
    subst hplus
    exact hclass (.plus (isFigures_takeWhile hfigures))
  · cases h
    refine hclass (.number (isFigures_iff.2 ⟨List.cons_ne_nil _ _, ?_⟩))
    exact List.forall_mem_cons.2 ⟨hfigure, List.all_eq_true.1 List.all_takeWhile⟩
  · cases h
    have hmore := List.all_eq_true.1 (List.all_takeWhile (l := rest) (p := isWordChar))
    exact hclass (lexeme_ofWord (isWord_cons_iff.2 ⟨hword, hmore⟩))

/-! ### A lexeme is scanned -/

/-- What may follow a lexeme: nothing, or white space. -/
def Delimited (tail : Text) : Prop := ∀ c, tail.head? = some c → Text.isBlank c = true

/-- White space ends a run of characters of a class that holds none. -/
theorem takeWhile_delimited {p : Char → Bool} {body tail : Text}
    (hbody : ∀ c ∈ body, p c = true) (htail : Delimited tail)
    (hblank : ∀ {c}, Text.isBlank c = true → p c = false) :
    (body ++ tail).takeWhile p = body := by
  rw [List.takeWhile_append_of_pos hbody]
  cases tail with
  | nil => simp
  | cons c tail => simp [hblank (htail c rfl)]

theorem isComparatorChar_of_isBlank {c : Char} (h : Text.isBlank c = true) :
    isComparatorChar c = false :=
  Text.eq_false_of_isBlank (by decide) h

theorem isNumberChar_of_isBlank {c : Char} (h : Text.isBlank c = true) : isNumberChar c = false :=
  Text.eq_false_of_isBlank (by decide) h

theorem isWordChar_of_isBlank {c : Char} (h : Text.isBlank c = true) : isWordChar c = false :=
  Text.eq_false_of_isBlank (by decide +kernel) h

theorem readString_quote {tail : Text} (h : tail.head? ≠ some '\'') :
    readString ('\'' :: tail) = some ([], 1) := by
  rw [readString]
  rintro rest rfl
  exact h rfl

theorem readString_cons_of_ne {c : Char} (h : c ≠ '\'') (text : Text) :
    readString (c :: text) = (readString text).map fun (content, n) => (c :: content, n + 1) := by
  rw [readString]
  · exact fun _ hquote _ => h hquote
  · exact h

theorem readString_doubled (content : Text) {tail : Text} (htail : Delimited tail) :
    readString (doubled content ++ ['\''] ++ tail) =
      some (content, (doubled content ++ ['\'']).length) := by
  induction content with
  | nil =>
    have hquote : tail.head? ≠ some '\'' := fun h => absurd (htail _ h) (by decide)
    exact readString_quote hquote
  | cons c content ih =>
    by_cases hc : c = '\''
    · subst hc
      have hpair : doubled ('\'' :: content) = '\'' :: '\'' :: doubled content := rfl
      rw [hpair, List.cons_append, List.cons_append, List.cons_append, List.cons_append,
        readString, ih]
      rfl
    · rw [doubled_cons_of_ne hc, List.cons_append, List.cons_append, readString_cons_of_ne hc, ih]
      rfl

theorem lexeme_quote {rest content : Text} {n : Nat} (h : readString rest = some (content, n)) :
    lexeme '\'' rest = .ok (.string content, n) := by
  simp [lexeme, h]

theorem isLetter_of_isDigit {c : Char} (h : c.isDigit = true) : Text.isLetter c = false := by
  obtain ⟨hlow, hhigh⟩ : 48 ≤ c.toNat ∧ c.toNat ≤ 57 := by
    simpa [Char.isDigit, UInt32.le_iff_toNat_le] using h
  rw [← Char.ofNat_toNat c]
  interval_cases c.toNat <;> rfl

theorem isNumberChar_of_isWordStart {c : Char} (h : isWordStart c = true) :
    isNumberChar c = false := by
  rw [← Bool.not_eq_true]
  intro hnumber
  simp only [isNumberChar, Bool.or_eq_true, beq_iff_eq] at hnumber
  rcases hnumber with hdigit | rfl
  · simp only [isWordStart, isLetter_of_isDigit hdigit, Bool.false_or, Bool.or_eq_true,
      beq_iff_eq] at h
    rcases h with rfl | rfl <;> cases hdigit
  · cases h

theorem symbol_chars {symbol : Text} {op : Comparator} (h : symbol ∈ op.symbols) :
    symbol ≠ [] ∧ ∀ c ∈ symbol, isComparatorChar c = true := by
  have hall : op.symbols.all (fun symbol => !symbol.isEmpty && symbol.all isComparatorChar) =
      true := by
    cases op <;> decide
  simpa using List.all_eq_true.1 hall symbol h

theorem lexeme_comparator {c : Char} {more tail : Text} {op : Comparator}
    (h : c :: more ∈ op.symbols) (htail : Delimited tail) :
    lexeme c (more ++ tail) = .ok (.comparator op, more.length) := by
  obtain ⟨hc, hmore⟩ := List.forall_mem_cons.1 (symbol_chars h).2
  have hne : ∀ d, isComparatorChar d = false → c ≠ d := fun d => ne_of_class hc
  have htake := takeWhile_delimited hmore htail isComparatorChar_of_isBlank
  simp [lexeme, hne '(' rfl, hne ')' rfl, hne ',' rfl, hne '\'' rfl, hc, htake,
    Comparator.ofSymbol?_eq_some_iff.2 h]

theorem isComparatorChar_of_class {p : Char → Bool} {c : Char} (hc : p c = true)
    (hp : ['=', '!', '<', '>'].all (fun d => !p d) = true) : isComparatorChar c = false := by
  simp only [List.all_cons, List.all_nil, Bool.and_true, Bool.and_eq_true, Bool.not_eq_true'] at hp
  obtain ⟨heq, hnot, hlt, hgt⟩ := hp
  simp [isComparatorChar, ne_of_class hc heq, ne_of_class hc hnot, ne_of_class hc hlt,
    ne_of_class hc hgt]

theorem lexeme_figures {c : Char} {more tail : Text} (h : IsFigures (c :: more))
    (htail : Delimited tail) :
    lexeme c (more ++ tail) = .ok (.number (c :: more), more.length) := by
  obtain ⟨hc, hmore⟩ := List.forall_mem_cons.1 (isFigures_iff.1 h).2
  have hne : ∀ d, isNumberChar d = false → c ≠ d := fun d => ne_of_class hc
  have hcomparator := isComparatorChar_of_class hc rfl
  have htake := takeWhile_delimited hmore htail isNumberChar_of_isBlank
  simp [lexeme, hne '(' rfl, hne ')' rfl, hne ',' rfl, hne '\'' rfl, hne '-' rfl, hne '+' rfl, hc,
    hcomparator, htake]

theorem lexeme_signed {figures tail : Text} (h : IsFigures figures) (htail : Delimited tail) :
    lexeme '-' (figures ++ tail) = .ok (.number ('-' :: figures), figures.length) ∧
      lexeme '+' (figures ++ tail) = .ok (.number figures, figures.length) := by
  obtain ⟨hne, hfigures⟩ := isFigures_iff.1 h
  have htake := takeWhile_delimited hfigures htail isNumberChar_of_isBlank
  have hhead : (figures ++ tail).head?.any isNumberChar = true := by
    cases figures with
    | nil => exact absurd rfl hne
    | cons c figures => exact (List.forall_mem_cons.1 hfigures).1
  generalize figures ++ tail = rest at htake hhead
  constructor
  · simp [lexeme, isComparatorChar, hhead, htake]
  · simp [lexeme, isComparatorChar, hhead, htake]

theorem lexeme_word {c : Char} {more tail : Text} (h : IsWord (c :: more))
    (htail : Delimited tail) :
    lexeme c (more ++ tail) = .ok (ofWord (c :: more), more.length) := by
  obtain ⟨hc, hmore⟩ := isWord_cons_iff.1 h
  have hne : ∀ d, isWordStart d = false → c ≠ d := fun d => ne_of_class hc
  have hcomparator := isComparatorChar_of_class hc rfl
  have htake := takeWhile_delimited hmore htail isWordChar_of_isBlank
  simp [lexeme, hne '(' rfl, hne ')' rfl, hne ',' rfl, hne '\'' rfl, hne '-' rfl, hne '+' rfl, hc,
    hcomparator, isNumberChar_of_isWordStart hc, htake]

theorem isWordChar_of_isWordStart {c : Char} (h : isWordStart c = true) : isWordChar c = true := by
  simp only [isWordStart, Bool.or_eq_true] at h
  simp only [isWordChar, Bool.or_eq_true]
  tauto

theorem lexeme_of_isWord {word tail : Text} (h : IsWord word) (htail : Delimited tail) :
    ∃ c more, word = c :: more ∧ Text.isBlank c = false ∧
      lexeme c (more ++ tail) = .ok (ofWord word, more.length) := by
  cases word with
  | nil => exact h.elim
  | cons c more =>
    refine ⟨c, more, rfl, ?_, lexeme_word h htail⟩
    have hfirst := isWordChar_of_isWordStart (isWord_cons_iff.1 h).1
    exact Text.isBlank_eq_false_of_class isWordChar_of_isBlank hfirst

/-- A lexeme before white space, or at the end, is scanned as a whole. -/
theorem lexeme_of_lexeme {spelling tail : Text} {token : Token} (h : Lexeme spelling token)
    (htail : Delimited tail) :
    ∃ c more, spelling = c :: more ∧ Text.isBlank c = false ∧
      lexeme c (more ++ tail) = .ok (token, more.length) := by
  cases h with
  | opening => exact ⟨'(', [], rfl, rfl, rfl⟩
  | closing => exact ⟨')', [], rfl, rfl, rfl⟩
  | comma => exact ⟨',', [], rfl, rfl, rfl⟩
  | string content =>
    refine ⟨'\'', doubled content ++ ['\''], rfl, rfl, ?_⟩
    exact lexeme_quote (readString_doubled content htail)
  | @comparator symbol op hsymbol =>
    obtain ⟨hne, hchars⟩ := symbol_chars hsymbol
    obtain ⟨c, more, rfl⟩ := List.exists_cons_of_ne_nil hne
    refine ⟨c, more, rfl, ?_, lexeme_comparator hsymbol htail⟩
    exact Text.isBlank_eq_false_of_class isComparatorChar_of_isBlank (hchars c List.mem_cons_self)
  | number hfigures =>
    obtain ⟨c, more, rfl⟩ := List.exists_cons_of_ne_nil hfigures.1
    refine ⟨c, more, rfl, ?_, lexeme_figures hfigures htail⟩
    have hfirst := (isFigures_iff.1 hfigures).2 c List.mem_cons_self
    exact Text.isBlank_eq_false_of_class isNumberChar_of_isBlank hfirst
  | plus hfigures => exact ⟨'+', _, rfl, rfl, (lexeme_signed hfigures htail).2⟩
  | minus hfigures => exact ⟨'-', _, rfl, rfl, (lexeme_signed hfigures htail).1⟩
  | @keyword word keyword hword hspelling =>
    obtain ⟨c, more, rfl, hblank, hlexeme⟩ := lexeme_of_isWord hword htail
    refine ⟨c, more, rfl, hblank, ?_⟩
    rw [hlexeme, ofWord, Keyword.ofWord?_eq_some_iff.2 hspelling]
  | @field word hword hspelling =>
    obtain ⟨c, more, rfl, hblank, hlexeme⟩ := lexeme_of_isWord hword htail
    refine ⟨c, more, rfl, hblank, ?_⟩
    rw [hlexeme, ofWord, Keyword.ofWord?_eq_none_iff.2 hspelling]

/-! ### Texts -/

structure Piece where
  blanks : Text
  lexeme : Text
  token : Token
  isBlank : ∀ c ∈ blanks, Text.isBlank c = true
  isLexeme : Lexeme lexeme token

def Piece.text (piece : Piece) : Text := piece.blanks ++ piece.lexeme

/-- The tokens of pieces, each with the position of its lexeme, where the first piece begins at
`position`. -/
def placed (position : Nat) : List Piece → List Placed
  | [] => []
  | piece :: pieces =>
    ⟨piece.token, position + piece.blanks.length⟩ :: placed (position + piece.text.length) pieces

theorem scanFrom_blanks {blanks : Text} (h : ∀ c ∈ blanks, Text.isBlank c = true) (position : Nat)
    (text : Text) : scanFrom position (blanks ++ text) = scanFrom (position + blanks.length) text := by
  induction blanks generalizing position with
  | nil => rfl
  | cons c blanks ih =>
    obtain ⟨hc, hblanks⟩ := List.forall_mem_cons.1 h
    rw [List.cons_append, scanFrom, if_pos hc, ih hblanks, List.length_cons, Nat.add_assoc,
      Nat.add_comm 1]

theorem scanFrom_lexeme {spelling tail : Text} {token : Token} (h : Lexeme spelling token)
    (htail : Delimited tail) (position : Nat) :
    scanFrom position (spelling ++ tail) =
      (scanFrom (position + spelling.length) tail).map (⟨token, position⟩ :: ·) := by
  obtain ⟨c, more, rfl, hblank, hlexeme⟩ := lexeme_of_lexeme h htail
  rw [List.cons_append, scanFrom, if_neg (by simp [hblank]), hlexeme]
  dsimp only
  rw [List.drop_left, List.length_cons, Nat.add_assoc, Nat.add_comm 1]

theorem delimited_of_blanks {blanks : Text} (h : ∀ c ∈ blanks, Text.isBlank c = true) :
    Delimited blanks :=
  fun c hc => h c (List.mem_of_mem_head? hc)

/-- Pieces with white space between them are scanned to their tokens. -/
theorem scanFrom_pieces {pieces : List Piece} {trailing : Text}
    (htrailing : ∀ c ∈ trailing, Text.isBlank c = true)
    (hblanks : ∀ piece ∈ pieces.tail, piece.blanks ≠ []) (position : Nat) :
    scanFrom position (pieces.flatMap Piece.text ++ trailing) = .ok (placed position pieces) := by
  induction pieces generalizing position with
  | nil =>
    have hend := scanFrom_blanks htrailing position []
    rw [List.append_nil] at hend
    rw [List.flatMap_nil, List.nil_append, hend, scanFrom, placed]
  | cons piece pieces ih =>
    have hrest : ∀ piece ∈ pieces.tail, piece.blanks ≠ [] :=
      fun piece hpiece => hblanks piece (List.mem_of_mem_tail hpiece)
    -- What follows the lexeme is the white space of the next piece, or the last white space.
    have hdelimited : Delimited (pieces.flatMap Piece.text ++ trailing) := by
      cases pieces with
      | nil => exact delimited_of_blanks htrailing
      | cons next pieces =>
        obtain ⟨c, more, hnext⟩ := List.exists_cons_of_ne_nil (hblanks next List.mem_cons_self)
        intro d hd
        have hfirst : c = d := by simpa [Piece.text, hnext] using hd
        apply next.isBlank d
        rw [hnext, hfirst]
        exact List.mem_cons_self
    rw [List.flatMap_cons, Piece.text, List.append_assoc, List.append_assoc,
      scanFrom_blanks piece.isBlank, scanFrom_lexeme piece.isLexeme hdelimited, ih hrest]
    simp [placed, Piece.text, Except.map, Nat.add_assoc]

/-- A text that is scanned consists of pieces, and of white space after the last one. -/
theorem exists_pieces_of_scanFrom {position : Nat} {text : Text} {tokens : List Placed}
    (h : scanFrom position text = .ok tokens) :
    ∃ pieces trailing, (∀ c ∈ trailing, Text.isBlank c = true) ∧
      text = pieces.flatMap Piece.text ++ trailing ∧ tokens = placed position pieces := by
  fun_induction scanFrom position text generalizing tokens with
  | case1 =>
    cases h
    exact ⟨[], [], by simp, rfl, rfl⟩
  | case2 position c rest hc ih =>
    obtain ⟨pieces, trailing, htrailing, rfl, rfl⟩ := ih h
    -- The character goes to the first piece, or to the end if there is none.
    cases pieces with
    | nil => exact ⟨[], c :: trailing, List.forall_mem_cons.2 ⟨hc, htrailing⟩, rfl, rfl⟩
    | cons piece pieces =>
      let longer : Piece := { piece with
        blanks := c :: piece.blanks
        isBlank := List.forall_mem_cons.2 ⟨hc, piece.isBlank⟩ }
      refine ⟨longer :: pieces, trailing, htrailing, rfl, ?_⟩
      simp [placed, longer, Piece.text, Nat.add_assoc, Nat.add_comm 1]
  | case3 => cases h
  | case4 position c rest _ token n hlexeme ih =>
    obtain ⟨later, hlater, rfl⟩ := map_eq_ok.1 h
    obtain ⟨pieces, trailing, htrailing, hrest, rfl⟩ := ih hlater
    obtain ⟨more, tail, rfl, rfl, hform⟩ := lexeme_eq_ok hlexeme
    rw [List.drop_left] at hrest
    subst hrest
    let piece : Piece := ⟨[], c :: more, token, by simp, hform⟩
    refine ⟨piece :: pieces, trailing, htrailing, by simp [piece, Piece.text], ?_⟩
    simp [placed, piece, Piece.text, Nat.add_assoc, Nat.add_comm 1]

theorem Piece.lexeme_ne_nil (piece : Piece) : piece.lexeme ≠ [] := by
  have hend : Delimited [] := fun c hc => by cases hc
  obtain ⟨c, more, heq, -⟩ := lexeme_of_lexeme piece.isLexeme hend
  rw [heq]
  exact List.cons_ne_nil c more

theorem map_token_placed (position : Nat) (pieces : List Piece) :
    (placed position pieces).map Placed.token = pieces.map Piece.token := by
  induction pieces generalizing position with
  | nil => rfl
  | cons piece pieces ih => rw [placed, List.map_cons, List.map_cons, ih]

theorem le_position_of_mem_placed {position : Nat} {pieces : List Piece} :
    ∀ token ∈ placed position pieces, position ≤ token.position := by
  induction pieces generalizing position with
  | nil => simp [placed]
  | cons piece pieces ih =>
    rw [placed, List.forall_mem_cons]
    refine ⟨Nat.le_add_right _ _, fun token htoken => ?_⟩
    exact Nat.le_trans (Nat.le_add_right _ _) (ih token htoken)

/-- Positions grow, since no lexeme is empty. -/
theorem pairwise_position_placed (position : Nat) (pieces : List Piece) :
    (placed position pieces).Pairwise fun first second => first.position < second.position := by
  induction pieces generalizing position with
  | nil => exact .nil
  | cons piece pieces ih =>
    refine .cons (fun token htoken => ?_) (ih _)
    have hle := le_position_of_mem_placed token htoken
    have hpos := List.length_pos_iff.2 piece.lexeme_ne_nil
    simp only [Piece.text, List.length_append] at hle ⊢
    omega

/-- What is scanned are lexemes with white space around them, and lexemes with white space between
them are scanned to their tokens. -/
theorem scan_lexemes :
    (∀ text tokens, scan text = .ok tokens →
      ∃ pieces trailing, (∀ c ∈ trailing, Text.isBlank c = true) ∧
        (∀ piece ∈ pieces, piece.lexeme ≠ []) ∧
        text = pieces.flatMap Piece.text ++ trailing ∧ tokens = placed 0 pieces ∧
        tokens.Pairwise fun first second => first.position < second.position) ∧
    ∀ pieces trailing, (∀ c ∈ trailing, Text.isBlank c = true) →
      (∀ piece ∈ pieces.tail, piece.blanks ≠ []) →
      scan (pieces.flatMap Piece.text ++ trailing) = .ok (placed 0 pieces) := by
  constructor
  · intro text tokens h
    obtain ⟨pieces, trailing, htrailing, htext, rfl⟩ := exists_pieces_of_scanFrom h
    exact ⟨pieces, trailing, htrailing, fun piece _ => piece.lexeme_ne_nil, htext, rfl,
      pairwise_position_placed 0 pieces⟩
  · intro pieces trailing htrailing hblanks
    exact scanFrom_pieces htrailing hblanks 0

/-- A keyword in small letters before lexemes that no white space parts, and another between a
quoted string and a signed number. -/
theorem scan_lexemes_signed :
    let text : Text := "not @age>=+5".toList
    let tokens : List Placed :=
      [⟨.keyword .not, 0⟩, ⟨.field "age".toList, 4⟩, ⟨.comparator .ge, 8⟩, ⟨.number ['5'], 10⟩]
    scan text = .ok tokens ∧
      (∃ pieces trailing, (∀ c ∈ trailing, Text.isBlank c = true) ∧
        (∀ piece ∈ pieces, piece.lexeme ≠ []) ∧
        text = pieces.flatMap Piece.text ++ trailing ∧ tokens = placed 0 pieces ∧
        tokens.Pairwise fun first second => first.position < second.position) ∧
      scan "'it''s' or\n+5".toList =
        .ok [⟨.string "it's".toList, 0⟩, ⟨.keyword .or, 8⟩, ⟨.number ['5'], 11⟩] := by
  intro text tokens
  obtain ⟨hsplit, hjoin⟩ := scan_lexemes
  have htokens : scan text = .ok tokens := by decide +kernel
  refine ⟨htokens, hsplit _ _ htokens, ?_⟩
  have hfive : IsFigures ['5'] := ⟨List.cons_ne_nil _ _, by simp⟩
  have hword : IsWord ['o', 'r'] :=
    isWord_cons_iff.2 ⟨by decide, List.forall_mem_singleton.2 (by decide)⟩
  let string : Piece := ⟨[], _, _, by simp, .string "it's".toList⟩
  let keyword : Piece :=
    ⟨[' '], _, .keyword .or, by simp [Text.isBlank], .keyword hword (by decide)⟩
  let number : Piece := ⟨['\n'], _, _, by simp [Text.isBlank], .plus hfive⟩
  have htext : [string, keyword, number].flatMap Piece.text ++ [] = "'it''s' or\n+5".toList := by
    simp [string, keyword, number, Piece.text, doubled]
  calc scan "'it''s' or\n+5".toList
      = scan ([string, keyword, number].flatMap Piece.text ++ []) := congrArg scan htext.symm
    _ = .ok (placed 0 [string, keyword, number]) :=
        hjoin _ [] (by simp) (by simp [keyword, number])

end Token

end FilterQuery
