import BrebOS.Programs.Shell.Lexer

/-!
# The expansion of words by the shell

`programs/42sh/expansion`: quotes, backslashes, command substitutions and variables are replaced in a word,
from left to right.  A cursor is the text from `*cur_argp` on; the words made so far are those before
`final_args[fargs_i]`, and the last of them, which grows.

Where the source steps behind the end of a word, or reads behind it, the expansion stops with `Stop.undefined`.
A moment is the number of expansions before; `rand` and the commands may answer differently at each.
-/

namespace BrebOS.Shell

/-- What words are expanded with: `argv` (there are `argc` of them), `last_rv` and `list_var` of the context,
the environment, and the answers of the system. -/
structure Vars where
  argv : List Word
  lastRv : ℤ
  listVar : List (Word × Word)
  getenv : Word → Option Word
  pid : ℤ
  rand : ℕ → ℤ
  /-- the output of a command, without the newlines at its end -/
  substitute : ℕ → Word → Word

/-- Where an expansion is. -/
structure Expansion where
  done : List Word := []
  cur : Word := []
  rest : List Char
  moment : ℕ := 0
  deriving DecidableEq, Repr

namespace Expansion

/-- `append_nstr` -/
def append (str : Word) (x : Expansion) : Expansion := { x with cur := x.cur ++ str }

/-- Several words are appended: the first to the last word made so far, and each of the others is a new one. -/
def appendArgs : List Word → Expansion → Expansion
  | [], x => x
  | [str], x => x.append str
  | str :: strs, x => appendArgs strs { x with done := x.done ++ [x.cur ++ str], cur := [] }

/-- The cursor moves within the word. -/
def pass (n : ℕ) (x : Expansion) : Expansion := { x with rest := x.rest.drop n }

/-- The cursor moves, if not behind the end of the word. -/
def advance (n : ℕ) (x : Expansion) : Except Stop Expansion :=
  if n ≤ x.rest.length then .ok (x.pass n) else .error .undefined

end Expansion

/-! ## The values of variables -/

/-- `num_to_args` -/
def numToArgs (n : ℤ) : List Word :=
  [if n < 0 then '-' :: Nat.toDigits 10 n.natAbs else Nat.toDigits 10 n.natAbs]

/-- `get_args` -/
def getArgs (c : Vars) : List Word := c.argv.drop 1

/-- `get_args_gathered` -/
def getArgsGathered (c : Vars) : List Word := [[' '].intercalate (getArgs c)]

/-- `get_nth_arg` -/
def getNthArg (n : ℕ) (c : Vars) : List Word := [c.argv[n]?.getD []]

/-- The value of digits, in `expand_var`. -/
def digitsValue (str : Word) : ℕ := str.foldl (fun val d => val * 10 + (d.toNat - '0'.toNat)) 0

/-- `RANDOM` -/
def random : Word := ['R', 'A', 'N', 'D', 'O', 'M']

/-- `expand_var`; `none` for `NULL`. -/
def expandVar (c : Vars) (moment : ℕ) (str : Word) : Option (List Word) :=
  if str = ['@'] then some (getArgs c)
  else if str = ['*'] then some (getArgsGathered c)
  else if str = ['?'] then some (numToArgs c.lastRv)
  else if str = ['$'] then some (numToArgs c.pid)
  else if str = ['#'] then some (numToArgs (c.argv.length - 1))
  else if str = random then some (numToArgs (c.rand moment))
  else if str.head?.any Char.isDigit then
    if str.all Char.isDigit then some (getNthArg (digitsValue str) c) else none
  else none

/-- `list_get_value` -/
def listGetValue (c : Vars) (name : Word) : Option Word := c.listVar.lookup name

/-- The names that `expand_env` knows. -/
def envNames : List Word := [['P', 'W', 'D'], ['O', 'L', 'D', 'P', 'W', 'D'], ['I', 'F', 'S']]

/-- `expand_env`; `none` for `NULL`. -/
def expandEnv (c : Vars) (str : Word) : Option Word :=
  if str ∈ envNames then some ((c.getenv str).getD []) else none

/-! ## Command substitution -/

namespace Expansion

/-- The loop of `read_until_char` in `command_sub.cpp`: how many characters there are up to the closing one, and
with it, or `none` where it is not found. -/
def readUntilCharLoop : ℕ → Char → List Char → Except Stop (Option ℕ)
  | 0, _, _ => .error .fuel
  | _, _, [] => .ok none
  | fuel + 1, c, d :: ds =>
      if d = c then .ok (some 1)
      else if d = '\\' then
        match ds with
        -- the scan steps over the end of the word
        | [] => .error .undefined
        | _ :: es => do return (← readUntilCharLoop fuel c es).map (· + 2)
      else if isQuote d then do
        match ← readUntilCharLoop fuel d ds with
        -- without the closing quote, the scan stays where it is
        | none => .error .fuel
        | some n => return (← readUntilCharLoop fuel c (ds.drop n)).map (· + (n + 1))
      else do return (← readUntilCharLoop fuel c ds).map (· + 1)

/-- `read_until_char` in `command_sub.cpp`, which passes one character before it looks for the closing one. -/
def readUntilChar (c : Char) : List Char → Except Stop (Option ℕ)
  | [] => .error .undefined
  | _ :: cs => do return (← readUntilCharLoop (cs.length + 1) c cs).map (· + 1)

end Expansion

/-- `interprete_backslash`: the backslashes that escape something go. -/
def interpreteBackslash : Word → Word
  | '\\' :: e :: cs =>
      if e = '$' ∨ e = '`' ∨ e = '\\' then e :: interpreteBackslash cs else '\\' :: interpreteBackslash (e :: cs)
  | c :: cs => c :: interpreteBackslash cs
  | [] => []

/-- `sub_substitution`: whether it substitutes.  Without a closing parenthesis, everything behind the opening
one is the command, and the cursor stays where it is. -/
def subSubstitution (c : Vars) (x : Expansion) : Except Stop (Bool × Expansion) :=
  if x.rest.head? ≠ some '(' then .ok (false, x)
  else do
    match ← Expansion.readUntilChar ')' x.rest with
    | some len =>
        return (true, (x.append (c.substitute x.moment ((x.rest.drop 1).take (len - 2)))).pass len)
    | none => return (true, x.append (c.substitute x.moment (x.rest.drop 1)))

/-- `expand_backtick`.  Without a closing backquote, it moves as many bytes as there are in the memory if there
is a backslash to take out. -/
def expandBacktick (c : Vars) (x : Expansion) : Except Stop Expansion := do
  let tick (x : Expansion) : Expansion := { x with moment := x.moment + 1 }
  match ← Expansion.readUntilChar '`' x.rest with
  | some len =>
      return tick ((x.append (c.substitute x.moment (interpreteBackslash (x.rest.take (len - 1))))).pass len)
  | none =>
      if interpreteBackslash x.rest = x.rest then return tick (x.append (c.substitute x.moment x.rest))
      else .error .undefined

/-! ## Variables -/

/-- The characters at which `strcspn` stops in `sub_shell_var` and `sub_env_var`. -/
def endsDollar (c : Char) : Bool := c ∈ [' ', '$', '"']

/-- `dollar_len` -/
def dollarLen (cs : List Char) : ℕ := (cs.takeWhile (!endsDollar ·)).length

/-- `sub_shell_var` -/
def subShellVar (c : Vars) (x : Expansion) : Bool × Expansion :=
  let expandedVar := (expandVar c x.moment (x.rest.take 1)).or
    (expandVar c x.moment (x.rest.take (dollarLen x.rest)))
  match expandedVar with
  | some strs => (true, (x.appendArgs strs).pass (dollarLen x.rest))
  | none => (false, x)

def isNameStart (c : Char) : Bool := c.isAlpha || c = '_'

def isNameChar (c : Char) : Bool := c.isAlphanum || c = '_'

/-- `strlen_var` -/
def strlenVar (cs : List Char) : ℕ :=
  if cs.head?.any isNameStart then (cs.takeWhile isNameChar).length else 0

/-- `sub_user_var`.  Where no name begins at the cursor, it looks for one behind the next character, which it
takes for an opening brace. -/
def subUserVar (c : Vars) (x : Expansion) : Except Stop (Bool × Expansion) :=
  if strlenVar x.rest ≠ 0 then
    match listGetValue c (x.rest.take (strlenVar x.rest)) with
    | some value => .ok (true, (x.append value).pass (strlenVar x.rest))
    | none => .ok (false, x)
  else
    match x.rest with
    | [] => .error .undefined
    | _ :: cs =>
        match listGetValue c (cs.take (strlenVar cs)) with
        | some value => do return (true, ← (x.append value).advance (strlenVar cs + 2))
        | none => .ok (false, x)

/-- `sub_env_var`.  The cursor moves whether there is such a variable or not. -/
def subEnvVar (c : Vars) (x : Expansion) : Bool × Expansion :=
  match expandEnv c (x.rest.take (dollarLen x.rest)) with
  | some value => (true, (x.append value).pass (dollarLen x.rest))
  | none => (false, x.pass (dollarLen x.rest))

/-- `expand_dollar` -/
def expandDollar (c : Vars) (x : Expansion) : Except Stop Expansion := do
  let tick (x : Expansion) : Expansion := { x with moment := x.moment + 1 }
  let (found, x) ← subSubstitution c x
  if found then return tick x
  let (found, x) := subShellVar c x
  if found then return tick x
  let (found, x) ← subUserVar c x
  if found then return tick x
  return tick (subEnvVar c x).2

/-! ## Quotes -/

/-- `expand_single` -/
def expandSingle (x : Expansion) : Except Stop Expansion :=
  let quoted := x.rest.takeWhile (· ≠ '\'')
  (x.append quoted).advance (quoted.length + 1)

/-- `expand_backslash` -/
def expandBackslash (x : Expansion) : Expansion :=
  match x.rest with
  | [] => x.append ['\\']
  | ch :: _ => if ch = '\n' then x.pass 1 else (x.append [ch]).pass 1

/-- `normal_backshlash_behavior`, of the character at the cursor. -/
def normalBackslashBehavior (ch : Option Char) : Bool := ch.any (· ∈ ['$', '`', '"', '\\', '\n'])

/-- The loop of `get_next_quote_len`: each time, the length up to the first quote of all is added. -/
def getNextQuoteLenLoop (input : List Char) : ℕ → ℕ → Except Stop ℕ
  | 0, _ => .error .fuel
  | fuel + 1, quoteLen =>
      if quoteLen = input.length ∨ input[quoteLen]? = some '"' then .ok quoteLen
      else if input.length < quoteLen then .error .undefined
      else
        let quoteLen := quoteLen + (input.takeWhile (· ≠ '"')).length
        if quoteLen = 1 ∧ input[0]? = some '\\' then getNextQuoteLenLoop input fuel (quoteLen + 1)
        else if 1 < quoteLen ∧ input[quoteLen - 1]? = some '\\' ∧ input[quoteLen - 2]? ≠ some '\\' then
          getNextQuoteLenLoop input fuel (quoteLen + 1)
        else getNextQuoteLenLoop input fuel quoteLen

/-- `get_next_quote_len` -/
def getNextQuoteLen (input : List Char) : Except Stop ℕ := getNextQuoteLenLoop input (input.length + 2) 0

/-- The loop of `expand_double`, in the text between the quotes. -/
def expandDoubleLoop (c : Vars) : ℕ → Expansion → Except Stop Expansion
  | 0, _ => .error .fuel
  | fuel + 1, x =>
      if x.rest = [] then .ok x
      else
        let plain := x.rest.takeWhile (fun ch => ch ≠ '\\' && ch ≠ '$')
        let x := (x.append plain).pass plain.length
        match x.rest with
        | [] => .ok x
        | ch :: _ =>
            let x := x.pass 1
            if ch = '$' then do
              let x ← expandDollar c x
              expandDoubleLoop c fuel x
            else
              let x := if normalBackslashBehavior x.rest.head? then x else x.append ['\\']
              expandDoubleLoop c fuel (expandBackslash x)

/-- `expand_double` -/
def expandDouble (c : Vars) (x : Expansion) : Except Stop Expansion := do
  let quoteLen ← getNextQuoteLen x.rest
  let y ← expandDoubleLoop c (quoteLen + 1) { x with rest := x.rest.take quoteLen }
  { y with rest := x.rest }.advance (quoteLen + 1)

/-! ## Words -/

/-- The characters that `expand_loop` does not just copy. -/
def isSpecial (ch : Char) : Bool := ch ∈ ['`', '\'', '\\', '"', '$']

/-- `expand_loop` -/
def expandLoop (c : Vars) (x : Expansion) : Except Stop Expansion :=
  match x.rest with
  | [] => .ok x
  | ch :: _ =>
      if ch = '\'' then expandSingle (x.pass 1)
      else if ch = '"' then expandDouble c (x.pass 1)
      else if ch = '`' then expandBacktick c (x.pass 1)
      else if ch = '$' then expandDollar c (x.pass 1)
      else if ch = '\\' then .ok (expandBackslash (x.pass 1))
      else
        let plain := x.rest.takeWhile (!isSpecial ·)
        .ok ((x.append plain).pass plain.length)

/-- The loop of `expand` over a word. -/
def expandWordLoop (c : Vars) : ℕ → Expansion → Except Stop Expansion
  | 0, _ => .error .fuel
  | fuel + 1, x => if x.rest = [] then .ok x else do expandWordLoop c fuel (← expandLoop c x)

/-- What `expand` makes of a word, behind the words made before. -/
def expandWord (c : Vars) (x : Expansion) : Except Stop Expansion := expandWordLoop c (x.rest.length + 1) x

/-- `expand`.  A word with `@` or `*` of which nothing is left is discarded. -/
def expand (c : Vars) (args : List Word) (moment : ℕ) : Except Stop (List Word × ℕ) :=
  args.foldlM (fun (words, moment) arg => do
    let x ← expandWord c { done := words, rest := arg, moment := moment }
    if x.cur = [] ∧ arg.any (fun ch => ch = '@' || ch = '*') then return (x.done, x.moment)
    else return (x.done ++ [x.cur], x.moment)) ([], moment)

end BrebOS.Shell
