import Decaf.Position

namespace Decaf

/-!
# Tokens

The vocabulary of the language: keywords, the marks that serve as operators and punctuation, and the
kinds of token that a scan delivers.

* `Keyword.ofWord?` — the keyword that a word spells.
* `Mark.ofPair?`, `Mark.ofChar?` — the mark that two characters, or one, spell.
* `TokenKind.all` — every kind, in the order of their codes.
* `Token` — a kind, the text that goes with it, and where it starts.
-/

/-! ### Keywords -/

/-- The reserved words, apart from `true` and `false`, which are constants. -/
inductive Keyword where
  | void | int | double | bool | string | class_ | interface | null | this_ | extends_ | implements
  | for_ | while_ | if_ | else_ | return_ | break_ | new | newArray | print | readInteger | readLine
deriving DecidableEq, Repr

namespace Keyword

/-- How the keyword is written in a source. -/
def spelling : Keyword → String
  | void => "void"
  | int => "int"
  | double => "double"
  | bool => "bool"
  | string => "string"
  | class_ => "class"
  | interface => "interface"
  | null => "null"
  | this_ => "this"
  | extends_ => "extends"
  | implements => "implements"
  | for_ => "for"
  | while_ => "while"
  | if_ => "if"
  | else_ => "else"
  | return_ => "return"
  | break_ => "break"
  | new => "New"
  | newArray => "NewArray"
  | print => "Print"
  | readInteger => "ReadInteger"
  | readLine => "ReadLine"

/-- Every keyword, in the order of their codes. -/
def all : List Keyword :=
  [void, int, double, bool, string, class_, interface, null, this_, extends_, implements, for_,
   while_, if_, else_, return_, break_, new, newArray, print, readInteger, readLine]

/-- The keyword that `word` spells. Case matters. -/
def ofWord? (word : String) : Option Keyword :=
  all.find? (·.spelling = word)

/-- The name under which the keyword is listed. -/
def name : Keyword → String
  | void => "VOID"
  | int => "INT"
  | double => "DOUBLE"
  | bool => "BOOL"
  | string => "STRING"
  | class_ => "CLASS"
  | interface => "INTERFACE"
  | null => "NULL"
  | this_ => "THIS"
  | extends_ => "EXTENDS"
  | implements => "IMPLEMENTS"
  | for_ => "FOR"
  | while_ => "WHILE"
  | if_ => "IF"
  | else_ => "ELSE"
  | return_ => "RETURN"
  | break_ => "BREAK"
  | new => "NEW"
  | newArray => "NEWARRAY"
  | print => "PRINT"
  | readInteger => "READINTEGER"
  | readLine => "READLINE"

end Keyword

/-! ### Operators and punctuation -/

/-- The operators, `plus` to `dec`, and the punctuation marks. -/
inductive Mark where
  | plus | minus | star | slash | percent | lt | le | gt | ge | eq | ne | and | or | not
  | assign | inc | dec
  | dot | lbracket | rbracket | lparen | rparen | lbrace | rbrace | semi | comma
deriving DecidableEq, Repr

namespace Mark

/-- How the mark is written in a source. -/
def spelling : Mark → List Char
  | plus => ['+']
  | minus => ['-']
  | star => ['*']
  | slash => ['/']
  | percent => ['%']
  | lt => ['<']
  | le => ['<', '=']
  | gt => ['>']
  | ge => ['>', '=']
  | eq => ['=', '=']
  | ne => ['!', '=']
  | and => ['&', '&']
  | or => ['|', '|']
  | not => ['!']
  | assign => ['=']
  | inc => ['+', '+']
  | dec => ['-', '-']
  | dot => ['.']
  | lbracket => ['[']
  | rbracket => [']']
  | lparen => ['(']
  | rparen => [')']
  | lbrace => ['{']
  | rbrace => ['}']
  | semi => [';']
  | comma => [',']

/-- Every mark, in the order of their codes. -/
def all : List Mark :=
  [plus, minus, star, slash, percent, lt, le, gt, ge, eq, ne, and, or, not, assign, inc, dec, dot,
   lbracket, rbracket, lparen, rparen, lbrace, rbrace, semi, comma]

/-- The mark that two characters spell. -/
def ofPair? : Char → Char → Option Mark
  | '+', '+' => some inc
  | '-', '-' => some dec
  | '<', '=' => some le
  | '>', '=' => some ge
  | '=', '=' => some eq
  | '!', '=' => some ne
  | '&', '&' => some and
  | '|', '|' => some or
  | _, _ => none

/-- The mark that a single character spells. `&` and `|` only count in pairs. -/
def ofChar? : Char → Option Mark
  | '+' => some plus
  | '-' => some minus
  | '*' => some star
  | '/' => some slash
  | '%' => some percent
  | '<' => some lt
  | '>' => some gt
  | '=' => some assign
  | '!' => some not
  | '.' => some dot
  | '[' => some lbracket
  | ']' => some rbracket
  | '(' => some lparen
  | ')' => some rparen
  | '{' => some lbrace
  | '}' => some rbrace
  | ';' => some semi
  | ',' => some comma
  | _ => none

/-- The longest mark at the front of the text `c :: rest`. -/
def first? (c : Char) (rest : List Char) : Option Mark :=
  (rest.head?.bind (ofPair? c)).or (ofChar? c)

/-- A mark is taken from the front of the text. -/
theorem spelling_first_prefix {c : Char} {rest : List Char} {m : Mark}
    (h : first? c rest = some m) : m.spelling <+: c :: rest := by
  unfold first? at h
  rcases Option.or_eq_some_iff.1 h with h | ⟨_, h⟩
  · cases rest with
    | nil => cases h
    | cons d rest =>
      simp only [List.head?_cons, Option.bind_some] at h
      unfold ofPair? at h
      split at h <;> cases h <;> simp [spelling]
  · unfold ofChar? at h
    split at h <;> cases h <;> simp [spelling]

/-- Whether the mark is an operator rather than punctuation. -/
def isOperator : Mark → Bool
  | dot | lbracket | rbracket | lparen | rparen | lbrace | rbrace | semi | comma => false
  | _ => true

/-- The name under which the mark is listed. -/
def name : Mark → String
  | plus => "PLUS"
  | minus => "MINUS"
  | star => "STAR"
  | slash => "SLASH"
  | percent => "PERCENT"
  | lt => "LT"
  | le => "LE"
  | gt => "GT"
  | ge => "GE"
  | eq => "EQ"
  | ne => "NE"
  | and => "AND"
  | or => "OR"
  | not => "NOT"
  | assign => "ASSIGN"
  | inc => "INC"
  | dec => "DEC"
  | dot => "DOT"
  | lbracket => "LBRACKET"
  | rbracket => "RBRACKET"
  | lparen => "LPAREN"
  | rparen => "RPAREN"
  | lbrace => "LBRACE"
  | rbrace => "RBRACE"
  | semi => "SEMI"
  | comma => "COMMA"

end Mark

/-! ### Kinds of token -/

/-- What a token is. -/
inductive TokenKind where
  | eof
  | error
  | keyword (k : Keyword)
  | intConst
  | doubleConst
  | boolConst
  | strConst
  | ident
  | mark (m : Mark)
deriving DecidableEq, Repr

namespace TokenKind

/-- Every kind, in the order of their codes, which count from zero. -/
def all : List TokenKind :=
  [eof, error] ++ Keyword.all.map keyword ++ [intConst, doubleConst, boolConst, strConst, ident] ++
    Mark.all.map mark

/-- The kind with the given code. -/
def ofCode? (code : Int) : Option TokenKind :=
  if code < 0 then none else all[code.toNat]?

/-- The name under which the kind is listed. -/
def name : TokenKind → String
  | eof => "EOF"
  | error => "ERROR"
  | keyword k => k.name
  | intConst => "INT_CONST"
  | doubleConst => "DOUBLE_CONST"
  | boolConst => "BOOL_CONST"
  | strConst => "STR_CONST"
  | ident => "IDENT"
  | mark m => m.name

/-- The kind listed under `name`. -/
def ofName? (name : String) : Option TokenKind :=
  all.find? (·.name = name)

/-- Whether tokens of the kind are operators. -/
def isOperator : TokenKind → Bool
  | mark m => m.isOperator
  | _ => false

end TokenKind

/-- A token: its kind, the text that goes with it (for an error, the message), and where it
    starts. -/
structure Token where
  kind : TokenKind
  literal : String
  pos : Position
deriving DecidableEq, Repr

end Decaf
