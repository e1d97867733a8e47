import BrebOS.Lib.Attempt
import BrebOS.Programs.Shell.Lexer

/-!
# The parser of the shell

`programs/42sh/parser`: how the shell builds a syntax tree from its tokens. A rule gives up where the source
sets `PARSER_UNEXPECTED_TOKEN`; the tokens it has popped by then are lost, and what is tried next goes on
behind them.

The tokens are those that pops alone would return, and behind the last one the input ends. The rules are run
with fuel, which nested commands and the turns of a loop use up.  The node of a function definition gets its
number when the whole input has been parsed.  Memory is left out, and so are the rules for `case`, which
nothing calls.
-/

namespace BrebOS.Shell

open Attempt

/-- A rule of the parser. -/
abbrev Rule (α : Type) := Attempt Stop (List Token) α

/-- `enum parser_status`, of a rule that has not given up. -/
inductive ParserStatus
  | OK
  | EOF
  deriving DecidableEq, Repr

/-! ## Tokens -/

/-- The token behind the last one. -/
def endToken : Token := { type := .EOF }

/-- `lexer_peek` -/
def peek : Rule Token := do
  let ts ← state
  return ts.headD endToken

/-- `lexer_peek_2` -/
def peek2 : Rule Token := do
  let ts ← state
  return ts.tail.headD endToken

/-- `lexer_pop` -/
def pop : Rule Token := do
  let ts ← state
  update List.tail
  return ts.headD endToken

/-- The string of a token. -/
def Token.text (t : Token) : Word := t.value.getD []

/-- `arr` in `wordify` -/
def reservedWords : List (TokenType × Word) :=
  [(.IF, ['i', 'f']), (.THEN, ['t', 'h', 'e', 'n']), (.ELSE, ['e', 'l', 's', 'e']),
  (.ELIF, ['e', 'l', 'i', 'f']),
    (.FI, ['f', 'i']), (.DO, ['d', 'o']), (.DONE, ['d', 'o', 'n', 'e']), (.CASE, ['c', 'a', 's', 'e']),
    (.ESAC, ['e', 's', 'a', 'c']), (.WHILE, ['w', 'h', 'i', 'l', 'e']), (.UNTIL, ['u', 'n', 't', 'i', 'l']),
    (.FOR, ['f', 'o', 'r']), (.IN, ['i', 'n']), (.NOT, ['!']), (.LBRACE, ['{']), (.RBRACE, ['}'])]

/-- `wordify`: a reserved word where a word may stand. -/
def wordify (t : Token) : Token :=
  match reservedWords.lookup t.type with
  | some str => { type := .WORD, value := some str }
  | none => t

/-- The loops that skip line ends. -/
def skipNewlines : Rule Unit := update (List.dropWhile fun t => t.type = .NEWLINE)

/-- `try_rule` -/
def tryRule (rule : Rule Ast) : Rule Ast := do
  let ast ← attempt rule
  return ast.getD .null

/-- A token of a type, which is otherwise left. -/
def expect (type : TokenType) : Rule Unit := do
  let t ← peek
  if t.type ≠ type then giveUp
  else
    let _ ← pop
    return ()

/-! ## Chains of nodes -/

/-- `ast->p2 = p2`, of a redirection or an assignment. -/
def Ast.setP2 : Ast → Ast → Ast
  | .redir p1 _, p2 => .redir p1 p2
  | .assign p1 _, p2 => .assign p1 p2
  | ast, _ => ast

/-- `while (cur->p2) cur = cur->p2; cur->p2 = next`; without a node there is `next`. -/
def Ast.hangOn : Ast → Ast → Ast
  | .null, next => next
  | .redir p1 p2, next => .redir p1 (p2.hangOn next)
  | .assign p1 p2, next => .assign p1 (p2.hangOn next)
  | ast, _ => ast

/-! ## Simple commands -/

/-- The operators of redirections. -/
def redirType : TokenType → Option RedirType
  | .REDIR_LG => some .LG
  | .REDIR_GO => some .GO
  | .REDIR_LA => some .LA
  | .REDIR_GA => some .GA
  | .REDIR_GG => some .GG
  | .REDIR_G => some .G
  | .REDIR_L => some .L
  | _ => none

/-- `parse_redirection` from its operator on. -/
def parseOperator (fd : ℤ) : Rule Ast := do
  let tok ← peek
  match redirType tok.type with
  | none => giveUp
  | some type => do
    let _ ← pop
    let tok ← peek
    if (wordify tok).type ≠ .WORD then giveUp
    else
      let tok ← pop
      return .redir { type := type, fd := fd, word := (wordify tok).text } .null

/-- `parse_redirection` -/
def parseRedirection : Rule Ast := do
  let tok ← peek
  if tok.type = .IONUMBER then
    let tok ← pop
    parseOperator (atoi tok.text)
  else parseOperator (-1)

/-- `parse_prefix` -/
def parsePrefix : Rule Ast := do
  let t ← peek
  if t.type = .WORD ∧ '=' ∈ t.text then
    let t ← pop
    return .assign t.text .null
  else parseRedirection

/-- `parse_element`: a word, which the source keeps in a node of type `AST_STRING`, or a redirection. -/
def parseElement : Rule (Word ⊕ Ast) := do
  let t ← peek
  if (wordify t).type = .WORD then
    let t ← pop
    return .inl (wordify t).text
  else
    let ast ← parseRedirection
    return .inr ast

/-- `get_prefix` and `get_redirections`: nodes of a rule, one hung on to the other. -/
def getChain (rule : Rule Ast) : ℕ → Rule Ast
  | 0 => stop .fuel
  | n + 1 => do
    let cur ← tryRule rule
    if isNull cur then return .null
    else
      let p2 ← getChain rule n
      return cur.setP2 p2

/-- `get_prefix` -/
def getPrefix (n : ℕ) : Rule Ast := getChain parsePrefix n

/-- `get_redirections` -/
def getRedirections (n : ℕ) : Rule Ast := getChain parseRedirection n

/-- The loop of `get_args`: the words, and the redirections. -/
def getElements : ℕ → Rule (List Word × Ast)
  | 0 => stop .fuel
  | n + 1 => do
    let elt ← attempt parseElement
    match elt with
    | none => return ([], .null)
    | some (.inl word) =>
      let (words, head) ← getElements n
      return (word :: words, head)
    | some (.inr redir) =>
      let (words, head) ← getElements n
      return (words, redir.setP2 head)

/-- `get_args` -/
def Parser.getArgs (n : ℕ) : Rule Ast := do
  let t ← peek
  if t.type ≠ .WORD then return .null
  else
    let t ← pop
    let (words, head) ← getElements n
    return head.hangOn (.argv (t.text :: words))

/-- `parse_simple_command` -/
def parseSimpleCommand (n : ℕ) : Rule Ast := do
  let head ← getPrefix n
  let t ← peek
  if t.type ≠ .WORD then
    if isNull head then giveUp else return head
  else
    let next ← Parser.getArgs n
    if isNull next then giveUp else return head.hangOn next

/-! ## Lists of commands -/

section Lists

variable (command : Rule Ast)

/-- `parse_pipeline_rec` -/
def parsePipelineRec : ℕ → Rule Ast
  | 0 => stop .fuel
  | n + 1 => do
    let p1 ← command
    let t ← peek
    if t.type = .PIPE then
      let _ ← pop
      skipNewlines
      let p2 ← parsePipelineRec n
      return .pipe p1 p2
    else return .pipe p1 .null

/-- `parse_pipeline` behind the `!`. -/
def parsePipes (n : ℕ) : Rule Ast := do
  let p1 ← command
  let t ← peek
  if t.type = .PIPE then
    let _ ← pop
    skipNewlines
    let p2 ← parsePipelineRec command n
    return .pipe p1 p2
  else return p1

/-- `parse_pipeline` -/
def parsePipeline (n : ℕ) : Rule Ast := do
  let t ← peek
  if t.type = .NOT then
    let _ ← pop
    let p1 ← parsePipes command n
    return .not p1
  else parsePipes command n

/-- The loop of `parse_and_or`, with `get_next`. -/
def andOrLoop : ℕ → Ast → Rule Ast
  | 0, _ => stop .fuel
  | n + 1, res => do
    let t ← peek
    if t.type = .AND ∨ t.type = .OR then
      let _ ← pop
      skipNewlines
      let p2 ← parsePipeline command n
      andOrLoop n (if t.type = .OR then .or res p2 else .and res p2)
    else return res

/-- `parse_and_or` -/
def parseAndOr (n : ℕ) : Rule Ast := do
  let res ← parsePipeline command n
  andOrLoop command n res

/-- The loop of `parse_list`: the nodes behind the first one. -/
def listLoop : ℕ → Rule Ast
  | 0 => stop .fuel
  | n + 1 => do
    let t ← peek
    if t.type = .SEMICOLON then
      let _ ← pop
      let p1 ← attempt (parseAndOr command n)
      match p1 with
      | none => return .null
      | some p1 =>
        let p2 ← listLoop n
        return .list p1 p2
    else return .null

/-- `parse_list` -/
def parseList (n : ℕ) : Rule Ast := do
  let p1 ← parseAndOr command n
  let p2 ← listLoop command n
  return .list p1 p2

/-- The loop of `parse_compound_list`: the nodes behind the first one. -/
def compoundLoop : ℕ → Rule Ast
  | 0 => stop .fuel
  | n + 1 => do
    let t ← peek
    if t.type = .SEMICOLON ∨ t.type = .NEWLINE then
      let _ ← pop
      skipNewlines
      let p1 ← attempt (parseAndOr command n)
      match p1 with
      | none => return .null
      | some p1 =>
        let p2 ← compoundLoop n
        return .list p1 p2
    else return .null

/-- `parse_compound_list` -/
def parseCompoundList (n : ℕ) : Rule Ast := do
  skipNewlines
  let p1 ← parseAndOr command n
  let p2 ← compoundLoop command n
  skipNewlines
  return .list p1 p2

end Lists

/-! ## Compound commands -/

section Compound

variable (command : Rule Ast)

/-- `parse_else_clause` -/
def parseElseClause : ℕ → Rule Ast
  | 0 => stop .fuel
  | n + 1 => do
    let t ← peek
    if t.type = .ELSE then
      let _ ← pop
      parseCompoundList command n
    else if t.type = .ELIF then
      let _ ← pop
      let p1 ← parseCompoundList command n
      -- the token is popped whatever it is
      let t ← pop
      if t.type ≠ .THEN then giveUp
      else
        let p2 ← parseCompoundList command n
        let p3 ← tryRule (parseElseClause n)
        return .ifThen p1 p2 p3
    else giveUp

/-- `parse_rule_if` -/
def parseRuleIf (n : ℕ) : Rule Ast := do
  expect .IF
  let p1 ← parseCompoundList command n
  expect .THEN
  let p2 ← parseCompoundList command n
  let p3 ← tryRule (parseElseClause command n)
  expect .FI
  return .ifThen p1 p2 p3

/-- `parse_rule_while` and `parse_rule_until` -/
def parseLoop (type : TokenType) (node : Ast → Ast → Ast) (n : ℕ) : Rule Ast := do
  expect type
  let p1 ← parseCompoundList command n
  expect .DO
  let p2 ← parseCompoundList command n
  expect .DONE
  return node p1 p2

/-- `parse_rule_while` -/
def parseRuleWhile (n : ℕ) : Rule Ast := parseLoop command .WHILE .whileLoop n

/-- `parse_rule_until` -/
def parseRuleUntil (n : ℕ) : Rule Ast := parseLoop command .UNTIL .untilLoop n

/-- The loop of `get_words`. -/
def getWordsLoop : ℕ → Rule (List Word)
  | 0 => stop .fuel
  | n + 1 => do
    let t ← peek
    if (wordify t).type = .WORD then
      let t ← pop
      let words ← getWordsLoop n
      return (wordify t).text :: words
    else return []

/-- `get_words` -/
def getWords (n : ℕ) : Rule (List Word) := do
  expect .IN
  getWordsLoop n

/-- `aux_for_do`; without words the loop goes over `"$@"`. -/
def auxForDo (p2 : Word) (p3 : List Word) (n : ℕ) : Rule Ast := do
  expect .DO
  let p1 ← parseCompoundList command n
  expect .DONE
  return .forLoop p1 p2 (if p3.isEmpty then [['$', '@']] else p3)

/-- `parse_rule_for` -/
def parseRuleFor (n : ℕ) : Rule Ast := do
  expect .FOR
  let t ← peek
  if (wordify t).type ≠ .WORD then giveUp
  else
    let t ← pop
    let p2 := (wordify t).text
    let t ← peek
    if t.type = .SEMICOLON then
      let _ ← pop
      skipNewlines
      auxForDo command p2 [] n
    else
      skipNewlines
      let t ← peek
      if t.type = .DO then auxForDo command p2 [] n
      else
        let p3 ← getWords n
        let t ← peek
        if t.type ≠ .SEMICOLON ∧ t.type ≠ .NEWLINE then giveUp
        else
          let _ ← pop
          skipNewlines
          auxForDo command p2 p3 n

/-- `parse_subshell` -/
def parseSubshell (n : ℕ) : Rule Ast := do
  expect .LPAREN
  let p1 ← parseCompoundList command n
  expect .RPAREN
  return .subshell p1

/-- The commands in braces of `parse_shell_command`, which pops a token also when there are none. -/
def parseGroup (n : ℕ) : Rule Ast := do
  let t ← peek
  if t.type = .LBRACE then
    let _ ← pop
    let res ← attempt (parseCompoundList command n)
    let t ← pop
    match res with
    | none => giveUp
    | some res => if t.type ≠ .RBRACE then giveUp else return res
  else return .null

/-- The rules that are tried one after the other, and what comes of it when they all fail. -/
def tryRules (last : Rule Ast) : List (Rule Ast) → Rule Ast
  | [] => last
  | rule :: rules => do
    let res ← tryRule rule
    if isNull res then tryRules last rules else return res

/-- `parse_shell_command` -/
def parseShellCommand (n : ℕ) : Rule Ast :=
  tryRules (parseGroup command n) [parseRuleIf command n, parseRuleWhile command n,
  parseRuleUntil command n,
    parseRuleFor command n, parseSubshell command n]

/-- `parse_funcdec` -/
def parseFuncdec (n : ℕ) : Rule Ast := do
  let t ← peek
  if t.type ≠ .WORD then giveUp
  else
    let t ← peek2
    if t.type ≠ .LPAREN then giveUp
    else
      let t ← pop
      let _ ← pop
      expect .RPAREN
      skipNewlines
      let p2 ← parseShellCommand command n
      return .funcdef 0 t.text p2

/-- A shell command, and the redirections behind it. -/
def parseRedirected (n : ℕ) : Rule Ast := do
  let ast ← tryRule (parseShellCommand command n)
  if isNull ast then giveUp
  else
    let head ← getRedirections n
    return head.hangOn ast

end Compound

/-- `parse_command` -/
def parseCommand : ℕ → Rule Ast
  | 0 => stop .fuel
  | n + 1 => tryRules (parseRedirected (parseCommand n) n) [parseFuncdec (parseCommand n) n,
  parseSimpleCommand n]

/-! ## The input -/

/-- The function definitions of a tree, numbered from `k` on. -/
def Ast.numbered : Ast → ℕ → Ast × ℕ
  | .null, k => (.null, k)
  | .argv p1, k => (.argv p1, k)
  | .list p1 p2, k => let (p1, k) := p1.numbered k; let (p2, k) := p2.numbered k; (.list p1 p2, k)
  | .ifThen p1 p2 p3, k =>
      let (p1, k) := p1.numbered k
      let (p2, k) := p2.numbered k
      let (p3, k) := p3.numbered k
      (.ifThen p1 p2 p3, k)
  | .redir p1 p2, k => let (p2, k) := p2.numbered k; (.redir p1 p2, k)
  | .pipe p1 p2, k => let (p1, k) := p1.numbered k; let (p2, k) := p2.numbered k; (.pipe p1 p2, k)
  | .not p1, k => let (p1, k) := p1.numbered k; (.not p1, k)
  | .whileLoop p1 p2, k => let (p1, k) := p1.numbered k; let (p2, k) := p2.numbered k; (.whileLoop p1 p2, k)
  | .untilLoop p1 p2, k => let (p1, k) := p1.numbered k; let (p2, k) := p2.numbered k; (.untilLoop p1 p2, k)
  | .and p1 p2, k => let (p1, k) := p1.numbered k; let (p2, k) := p2.numbered k; (.and p1 p2, k)
  | .or p1 p2, k => let (p1, k) := p1.numbered k; let (p2, k) := p2.numbered k; (.or p1 p2, k)
  | .assign p1 p2, k => let (p2, k) := p2.numbered k; (.assign p1 p2, k)
  | .forLoop p1 p2 p3, k => let (p1, k) := p1.numbered k; (.forLoop p1 p2 p3, k)
  | .funcdef _ p1 p2, k => let (p2, k') := p2.numbered (k + 1); (.funcdef k p1 p2, k')
  | .caseClause, k => (.caseClause, k)
  | .aliasDef, k => (.aliasDef, k)
  | .subshell p1, k => let (p1, k) := p1.numbered k; (.subshell p1, k)

/-- `parse_input` -/
def parseInput (n : ℕ) : Rule (ParserStatus × Ast) := do
  let t ← peek
  if t.type = .ERROR then giveUp
  else if t.type = .EOF ∨ t.type = .NEWLINE then
    let _ ← pop
    return (if t.type = .EOF then .EOF else .OK, .null)
  else
    let ast ← parseList (parseCommand n) n
    let t ← peek
    if t.type = .EOF then
      let _ ← pop
      return (.EOF, ast)
    else if t.type = .NEWLINE then
      let _ ← pop
      return (.OK, ast)
    else giveUp

end BrebOS.Shell
