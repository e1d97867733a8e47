import BrebOS.Lib.Lookahead
import BrebOS.Programs.Shell

/-!
# The lexer of the shell

`programs/42sh/lexer`: how the shell cuts its input into tokens, and how it looks ahead.  The input comes in
lines, from a file; a byte of it is the character with its number.

Where the source steps behind the end of a string, or reads one that has been freed, the lexer stops with
`Stop.undefined`; where it does not return, with `Stop.fuel`.  The memory of the strings is left out, and so is
the value of a token that is not a word or a number: the source frees it.
-/

namespace BrebOS.Shell

/-! ## Tokens -/

/-- `enum token_type`. -/
inductive TokenType
  | AND
  | OR
  | REDIR_LG
  | REDIR_GO
  | REDIR_LA
  | REDIR_GA
  | REDIR_GG
  | REDIR_G
  | REDIR_L
  | NOT
  | PIPE
  | SEMICOLON
  | NEWLINE
  | QUOTE
  | EOF
  | IONUMBER
  | IF
  | THEN
  | ELIF
  | ELSE
  | FI
  | WHILE
  | UNTIL
  | DO
  | DONE
  | FOR
  | CASE
  | IN
  | ESAC
  | RBRACE
  | LBRACE
  | RPAREN
  | LPAREN
  | WORD
  | ASSIGNMENT_WORD
  | ERROR
  | EMPTY
  deriving DecidableEq, Repr

/-- `struct token`. -/
structure Token where
  type : TokenType
  value : Option Word := none
  deriving DecidableEq, Repr

/-- The operators: `valid_ope` in `is_valid_operator`, and `always_check` in `match_separator`. -/
def operators : List (Word × TokenType) :=
  [(['|'], .PIPE), (['!'], .NOT), ([';'], .SEMICOLON), (['\n'], .NEWLINE), ([], .EOF), (['>'], .REDIR_G),
    (['<'], .REDIR_L), (['>', '>'], .REDIR_GG), (['>', '&'], .REDIR_GA), (['<', '&'], .REDIR_LA),
    (['>', '|'], .REDIR_GO), (['<', '>'], .REDIR_LG), (['&', '&'], .AND), (['|', '|'], .OR),
    (['('], .LPAREN), ([')'], .RPAREN), (['{'], .LBRACE), (['}'], .RBRACE)]

/-- `keywords` in `match_keyword`. -/
def keywords : List (Word × TokenType) :=
  [(['i', 'f'], .IF), (['t', 'h', 'e', 'n'], .THEN), (['e', 'l', 'i', 'f'], .ELIF),
    (['e', 'l', 's', 'e'], .ELSE), (['f', 'i'], .FI), (['w', 'h', 'i', 'l', 'e'], .WHILE), (['d', 'o'], .DO),
    (['d', 'o', 'n', 'e'], .DONE), (['u', 'n', 't', 'i', 'l'], .UNTIL), (['f', 'o', 'r'], .FOR),
    (['i', 'n'], .IN), (['w', 'h', 'i', 'l', 'e'], .WHILE)]

def matchKeyword (nextStr : Word) : Option TokenType := keywords.lookup nextStr

def matchSeparator (nextStr : Word) : Option TokenType := operators.lookup nextStr

def isValidOperator (str : Word) : Bool := (operators.lookup str).isSome

lemma mem_of_lookup {table : List (Word × TokenType)} {str : Word} {type : TokenType}
    (h : table.lookup str = some type) : (str, type) ∈ table := by
  obtain ⟨l₁, l₂, htable, -⟩ := List.lookup_eq_some_iff.mp h
  rw [htable]
  exact List.mem_append_right l₁ List.mem_cons_self

/-- `SEPARATORS` -/
def isSeparator (c : Char) : Bool := c ∈ ['&', '|', '<', '>', ';', '\n', '(', ')']

/-- `WHITESPACE` -/
def isWhitespace (c : Char) : Bool := c ∈ [' ', '\t', '\r']

/-- `OPERATORS` -/
def isRedirection (c : Char) : Bool := c ∈ ['|', '&', '<', '>']

def isQuote (c : Char) : Bool := c ∈ ['\'', '"', '`']

/-! ## Lines -/

/-- The value of a byte as a `char`. -/
def charValue (c : Char) : ℤ := if c.toNat < 128 then c.toNat else c.toNat - 256

/-- `read_char`; its result is -1 at the end of the file. -/
def readChar : List Char → ℤ × List Char
  | [] => (-1, [])
  | c :: file => (charValue c, file)

/-- The characters a line goes on with. -/
def inLine (c : Char) : Bool := 0 < charValue c && c ≠ '\n'

/-- `io_backend_get_line`: a line, if there is one, and the rest of the file. -/
def ioBackendGetLine (file : List Char) : Option Word × List Char :=
  if (readChar file).1 = -1 then (none, (readChar file).2)
  else
    match file.dropWhile inLine with
    | [] => (some (file.takeWhile inLine), [])
    | c :: rest =>
        if c = '\n' then (some (file.takeWhile inLine ++ ['\n']), rest)
        else if charValue c = -2 then (none, rest)
        else (some (file.takeWhile inLine), rest)

/-! ## The text of a token -/

/-- `enum lexer_status`. -/
inductive LexerStatus
  | SINGLE_QUOTE
  | DOUBLE_QUOTE
  | BACKTICK
  | NONE
  | ERROR
  deriving DecidableEq, Repr

/-- Where a scan is: the characters it has passed (`size` of them), those from `start` on, and whether
`get_next_line` has put the input in another place since the scan began. -/
structure Scan where
  taken : Word := []
  rest : List Char
  file : List Char
  status : LexerStatus
  moved : Bool := false
  deriving DecidableEq, Repr

/-- `size += n; start += n` -/
def Scan.pass (n : ℕ) (s : Scan) : Scan :=
  { s with taken := s.taken ++ s.rest.take n, rest := s.rest.drop n }

@[simp] lemma Scan.pass_rest (k : ℕ) (s : Scan) : (s.pass k).rest = s.rest.drop k := rfl

/-- `get_next_line`: the scan passes the end of the line, and a further line is put behind the input. -/
def getNextLine (s : Scan) : Bool × Scan :=
  match ioBackendGetLine s.file with
  | (none, file) => (false, { s with file := file })
  | (some line, file) =>
      (true, { s with
        taken := s.taken ++ s.rest.take 1, rest := s.rest.drop 1 ++ line, file := file, moved := true })

/-- How `read_until_char` begins: it passes the opening character. -/
def Scan.enter (s : Scan) : Scan := { s.pass 1 with moved := false }

/-- How `read_until_char` ends.  When it fails, `start` and `size` of the caller stay as they are, and `start`
points into the input as it was: the caller then reads what has been freed if the input has been moved. -/
def Scan.leave (s : Scan) : Bool × Scan → Except Stop (Bool × Scan)
  | (true, s') => .ok (true, { s' with moved := s.moved || s'.moved })
  | (false, s') =>
      if s'.moved then .error .undefined
      else .ok (false, { s with file := s'.file, status := .ERROR })

/-- The loop of `read_until_char`: whether it finds the closing character. -/
def readUntilCharLoop : ℕ → Char → Scan → Except Stop (Bool × Scan)
  | 0, _, _ => .error .fuel
  | fuel + 1, c, s =>
      match s.rest with
      | [] => .ok (false, s)
      | d :: cs =>
          if d = c then .ok (true, s.pass 1)
          else if d = '\\' then
            match cs with
            -- the scan steps over the end of the string
            | [] => .error .undefined
            | e :: _ =>
                if e = '\'' ∧ e = c then .ok (true, s.pass 2)
                else if e = '\n' then
                  match getNextLine (s.pass 1) with
                  | (false, s) => .ok (false, s)
                  | (true, s) => readUntilCharLoop fuel c s
                else readUntilCharLoop fuel c (s.pass 2)
          else if isQuote d then
            if c = ')' then do
              let (closed, s') ← s.leave (← readUntilCharLoop fuel d s.enter)
              -- without the closing quote, the scan stays where it is
              if !closed && s'.file = s.file then .error .fuel
              else readUntilCharLoop fuel c s'
            else readUntilCharLoop fuel c (s.pass 1)
          else if d = '\n' then
            match getNextLine s with
            | (false, s) => .ok (false, s)
            | (true, s) => readUntilCharLoop fuel c s
          else readUntilCharLoop fuel c (s.pass 1)

/-- `read_until_char` -/
def readUntilChar (fuel : ℕ) (c : Char) (s : Scan) : Except Stop Scan := do
  let (_, s) ← s.leave (← readUntilCharLoop fuel c s.enter)
  return s

/-- The loop of `read_until_separator`; `false` where it returns `NULL`. -/
def readUntilSeparatorLoop : ℕ → Scan → Except Stop (Bool × Scan)
  | 0, _ => .error .fuel
  | fuel + 1, s =>
      match s.rest with
      | [] => .ok (true, s)
      | d :: cs =>
          if isSeparator d || s.status = .ERROR || isWhitespace d then .ok (true, s)
          else if d = '$' then
            if cs.head? = some '(' then do
              let s ← readUntilChar fuel ')' (s.pass 1)
              readUntilSeparatorLoop fuel s
            else readUntilSeparatorLoop fuel (s.pass 1)
          else if d = '\\' then
            if cs.head? = some '\n' then
              match getNextLine (s.pass 1) with
              | (false, s) => .ok (false, s)
              | (true, s) => readUntilSeparatorLoop fuel s
            else readUntilSeparatorLoop fuel (s.pass 2)
          else if isQuote d then do
            let s ← readUntilChar fuel d s
            readUntilSeparatorLoop fuel s
          else readUntilSeparatorLoop fuel (s.pass 1)

/-- `is_valid_ope`.  It also looks at what stands behind the end of the input, which makes no difference: the
operator ends there. -/
def isValidOpe (s : Scan) : Scan :=
  let size := 1 + ((s.rest.drop 1).takeWhile isRedirection).length
  let s' := s.pass size
  if isValidOperator s'.taken then s' else { s' with status := .ERROR }

/-! ## The input -/

/-- What `lexer->input + lexer->pos` points to: nothing, a place that is not known, or a string. -/
inductive Input
  | null
  | unknown
  | text (cs : List Char)
  deriving DecidableEq, Repr

/-- What the lexer reads: its input from `pos` on, its status, and the file behind the input. -/
structure Stream where
  input : Input
  status : LexerStatus := .NONE
  file : List Char
  deriving DecidableEq, Repr

/-- The text without the blanks and the comment it begins with. -/
def skipText (cs : List Char) : List Char :=
  let cs := cs.dropWhile isWhitespace
  if cs.head? = some '#' then cs.dropWhile (· ≠ '\n') else cs

/-- `skip_whitespaces_and_comments` -/
def skipWhitespacesAndComments (l : Stream) : Stream :=
  match l.input with
  | .text cs => { l with input := .text (skipText cs) }
  | _ => l

/-- `refresh_input`: at the end of the input, the next line of the file. -/
def refreshInput (l : Stream) : Stream :=
  match l.input with
  | .text [] =>
      match ioBackendGetLine l.file with
      | (none, file) => { l with input := .null, file := file }
      | (some line, file) => skipWhitespacesAndComments { l with input := .text line, file := file }
  | _ => l

/-- `read_until_separator`: the string, or `none` for `NULL`.  A scan cannot take more steps than there are
characters to read. -/
def readUntilSeparator (cs : List Char) (l : Stream) : Except Stop (Option Word × Stream) := do
  let (found, s) ← readUntilSeparatorLoop (cs.length + l.file.length + 1)
    { rest := cs, file := l.file, status := l.status }
  let s := if found && s.taken.isEmpty && s.rest.head?.all isSeparator then isValidOpe s else s
  return (if found then some s.taken else none,
    { input := .text (s.taken ++ s.rest), status := s.status, file := s.file })

/-- `get_next_str` -/
def getNextStr (l : Stream) : Except Stop (Option Word × Stream) :=
  match l.input with
  | .null => .ok (none, l)
  | .unknown => .error .undefined
  | .text _ =>
      let l := refreshInput (skipWhitespacesAndComments l)
      match l.input with
      | .text cs => readUntilSeparator cs l
      | _ => .ok (none, l)

/-- `is_IO_NUMBER` -/
def isIoNumber (l : Stream) (nextStr : Word) : Bool :=
  let size := (nextStr.takeWhile Char.isDigit).length
  nextStr.length = size &&
    match l.input with
    | .text cs => cs[size]? = some '<' || cs[size]? = some '>'
    | _ => false

/-- `change_token_type`; `none` where it returns 0. -/
def changeTokenType (l : Stream) (nextStr : Word) : Option TokenType :=
  match l.status with
  | .ERROR => some .ERROR
  | .SINGLE_QUOTE | .DOUBLE_QUOTE => some .WORD
  | _ => if isIoNumber l nextStr then some .IONUMBER else matchKeyword nextStr

/-- The type of the token with a string. -/
def tokenType (l : Stream) (nextStr : Word) : TokenType :=
  ((changeTokenType l nextStr).or (matchSeparator nextStr)).getD .WORD

/-- A token of a type with a string. -/
def Token.ofStr (type : TokenType) (str : Word) : Token :=
  { type := type, value := if type = .WORD ∨ type = .IONUMBER then some str else none }

/-- `lexer_next_token`: the token, and its length.  Where there is no string, the length is not assigned. -/
def lexerNextToken (l : Stream) : Except Stop (Token × Option ℕ × Stream) := do
  match ← getNextStr l with
  | (none, l) => return ({ type := .EOF }, none, l)
  | (some nextStr, l) =>
      return (.ofStr (tokenType l nextStr) nextStr, some nextStr.length, { l with status := .NONE })

/-- `lexer->pos += len`: where `len` has not been assigned, the lexer is at a place that is not known. -/
def Stream.advance (l : Stream) (len : Option ℕ) : Stream :=
  match l.input, len with
  | .null, _ => l
  | .text cs, some n => { l with input := .text (cs.drop n) }
  | _, _ => { l with input := .unknown }

/-- The next token, behind which the lexer then is. -/
def Stream.nextToken (l : Stream) : Except Stop (Token × Stream) := do
  let (tok, len, l) ← lexerNextToken l
  return (tok, l.advance len)

/-! ## Looking ahead -/

/-- `struct lexer` -/
structure Lexer extends Stream where
  next : Token := { type := .EMPTY }
  surNext : Token := { type := .EMPTY }
  deriving DecidableEq, Repr

/-- `lexer_new` -/
def lexerNew (file : List Char) : Lexer :=
  match ioBackendGetLine file with
  | (none, file) => { input := .null, file := file }
  | (some line, file) => { input := .text line, file := file }

/-- `lexer_peek` -/
def lexerPeek (lexer : Lexer) : Except Stop (Token × Lexer) :=
  if lexer.next.type ≠ .EMPTY then .ok (lexer.next, lexer)
  else do
    let (tok, l) ← lexer.nextToken
    return (tok, { lexer with toStream := l, next := tok })

/-- `lexer_peek_2` -/
def lexerPeek2 (lexer : Lexer) : Except Stop (Token × Lexer) :=
  if lexer.surNext.type ≠ .EMPTY then .ok (lexer.surNext, lexer)
  else do
    let (_, lexer) ← lexerPeek lexer
    let (tok, l) ← lexer.nextToken
    return (tok, { lexer with toStream := l, surNext := tok })

/-- `lexer_pop` -/
def lexerPop (lexer : Lexer) : Except Stop (Token × Lexer) :=
  if lexer.next.type ≠ .EMPTY then
    .ok (lexer.next, { lexer with next := lexer.surNext, surNext := { type := .EMPTY } })
  else do
    let (tok, l) ← lexer.nextToken
    return (tok, { lexer with toStream := l })

end BrebOS.Shell
