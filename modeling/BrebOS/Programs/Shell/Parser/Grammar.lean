import BrebOS.Programs.Shell.Parser

/-!
# The grammar of the shell

The grammar that the rules of the parser describe, with the tree of each sentence.  It says where line ends
may stand, and where a command may not be followed by a reserved word: the words of a simple command go on
as far as they can, so `if a then` has no `then`.
-/

namespace BrebOS.Shell

/-- The string of a word, or of a reserved word in the place of one. -/
def Token.word (t : Token) : Option Word := if (wordify t).type = .WORD then some (wordify t).text else none

/-- Line ends. -/
def Newlines (ns : List Token) : Prop := ∀ t ∈ ns, t.type = .NEWLINE

/-- What separates the commands of a compound list. -/
def Separates (t : Token) : Prop := t.type = .SEMICOLON ∨ t.type = .NEWLINE

/-! ## Simple commands -/

/-- `[IONUMBER] operator WORD` -/
inductive IsRedirection : List Token → RedirInfo → Prop
  | plain {op t : Token} {type : RedirType} {w : Word} (hop : redirType op.type = some type)
      (hw : t.word = some w) : IsRedirection [op, t] { type := type, word := w }
  | numbered {io op t : Token} {type : RedirType} {w : Word} (hio : io.type = .IONUMBER)
      (hop : redirType op.type = some type) (hw : t.word = some w) :
      IsRedirection [io, op, t] { type := type, fd := atoi io.text, word := w }

/-- Assignments and redirections in front of a name. -/
inductive Prefixes : List Token → List (Word ⊕ RedirInfo) → Prop
  | nil : Prefixes [] []
  | assign {t : Token} {ts : List Token} {ps : List (Word ⊕ RedirInfo)} (ht : t.type = .WORD)
      (hassign : '=' ∈ t.text) (hts : Prefixes ts ps) : Prefixes (t :: ts) (.inl t.text :: ps)
  | redir {us ts : List Token} {r : RedirInfo} {ps : List (Word ⊕ RedirInfo)} (hr : IsRedirection us r)
      (hts : Prefixes ts ps) : Prefixes (us ++ ts) (.inr r :: ps)

/-- The words and redirections behind a name. -/
inductive Elements : List Token → List Word → List RedirInfo → Prop
  | nil : Elements [] [] []
  | word {t : Token} {w : Word} {ts : List Token} {ws : List Word} {rs : List RedirInfo}
      (hw : t.word = some w) (hts : Elements ts ws rs) : Elements (t :: ts) (w :: ws) rs
  | redir {us ts : List Token} {r : RedirInfo} {ws : List Word} {rs : List RedirInfo}
      (hr : IsRedirection us r) (hts : Elements ts ws rs) : Elements (us ++ ts) ws (r :: rs)

/-- Redirections of a command. -/
def redirects (rs : List RedirInfo) (ast : Ast) : Ast := rs.foldr .redir ast

/-- A command behind assignments and redirections. -/
def prefixed (ps : List (Word ⊕ RedirInfo)) (ast : Ast) : Ast :=
  ps.foldr (fun p ast => p.elim (fun w => .assign w ast) fun r => .redir r ast) ast

/-! ## Sentences -/

/-- The symbols.  `andOrFrom` is what follows a tree in an `and_or`, and `rest` what follows a command in a
compound list; both know whether a word may not follow what was before. -/
inductive Symbol
  | command
  | shell
  | pipes
  | bare
  | pipeline
  | andOr
  | andOrFrom (ast : Ast) (wordy : Bool)
  | list
  | listRest
  | compound
  | rest (wordy : Bool)
  | elseClause

/-- The sentences of a symbol, with their trees.  A sentence is wordy when a word behind it would be one of
its words.  If the grammar is lenient, functions need no body. -/
inductive Derives (lenient : Prop) : Symbol → List Token → Ast → Bool → Prop
  | bare {ts : List Token} {ps : List (Word ⊕ RedirInfo)} (hts : Prefixes ts ps) (hps : ps ≠ []) :
      Derives lenient .command ts (prefixed ps .null) false
  | simple {ts es : List Token} {t : Token} {ps : List (Word ⊕ RedirInfo)} {ws : List Word}
      {rs : List RedirInfo} (hts : Prefixes ts ps) (ht : t.type = .WORD) (hname : '=' ∉ t.text)
      (hes : Elements es ws rs) :
      Derives lenient .command (ts ++ t :: es) (prefixed ps (redirects rs (.argv (t.text :: ws)))) true
  | funcdef {t l r : Token} {ns ts : List Token} {body : Ast} (ht : t.type = .WORD) (hl : l.type = .LPAREN)
      (hr : r.type = .RPAREN) (hns : Newlines ns) (hbody : Derives lenient .shell ts body false) :
      Derives lenient .command (t :: l :: r :: ns ++ ts) (.funcdef 0 t.text body) false
  | bodiless {t l r : Token} {ns : List Token} (hlenient : lenient) (ht : t.type = .WORD)
      (hl : l.type = .LPAREN) (hr : r.type = .RPAREN) (hns : Newlines ns) :
      Derives lenient .command (t :: l :: r :: ns) (.funcdef 0 t.text .null) false
  | shell {ts es : List Token} {ast : Ast} {rs : List RedirInfo} (hts : Derives lenient .shell ts ast false)
      (hes : Elements es [] rs) : Derives lenient .command (ts ++ es) (redirects rs ast) false
  | pipe {ts ns us : List Token} {t : Token} {p1 p2 : Ast} {w w' : Bool}
      (hp1 : Derives lenient .command ts p1 w') (ht : t.type = .PIPE) (hns : Newlines ns)
      (hp2 : Derives lenient .pipes us p2 w) : Derives lenient .pipes (ts ++ t :: ns ++ us) (.pipe p1 p2) w
  | lastPipe {ts : List Token} {p1 : Ast} {w : Bool} (hp1 : Derives lenient .command ts p1 w) :
      Derives lenient .pipes ts (.pipe p1 .null) w
  | single {ts : List Token} {ast : Ast} {w : Bool} (h : Derives lenient .command ts ast w) :
      Derives lenient .bare ts ast w
  | piped {ts ns us : List Token} {t : Token} {p1 p2 : Ast} {w w' : Bool}
      (hp1 : Derives lenient .command ts p1 w') (ht : t.type = .PIPE) (hns : Newlines ns)
      (hp2 : Derives lenient .pipes us p2 w) : Derives lenient .bare (ts ++ t :: ns ++ us) (.pipe p1 p2) w
  | plain {ts : List Token} {ast : Ast} {w : Bool} (h : Derives lenient .bare ts ast w) :
      Derives lenient .pipeline ts ast w
  | not {ts : List Token} {t : Token} {ast : Ast} {w : Bool} (ht : t.type = .NOT)
      (h : Derives lenient .bare ts ast w) : Derives lenient .pipeline (t :: ts) (.not ast) w
  | andOr {ts us : List Token} {p1 ast : Ast} {w w' : Bool} (hp1 : Derives lenient .pipeline ts p1 w')
      (h : Derives lenient (.andOrFrom p1 w') us ast w) : Derives lenient .andOr (ts ++ us) ast w
  | done {ast : Ast} {w : Bool} : Derives lenient (.andOrFrom ast w) [] ast w
  | and {t : Token} {ns ts us : List Token} {p1 p2 ast : Ast} {w w' w'' : Bool} (ht : t.type = .AND)
      (hns : Newlines ns) (hp2 : Derives lenient .pipeline ts p2 w')
      (h : Derives lenient (.andOrFrom (.and p1 p2) w') us ast w) :
      Derives lenient (.andOrFrom p1 w'') (t :: ns ++ ts ++ us) ast w
  | or {t : Token} {ns ts us : List Token} {p1 p2 ast : Ast} {w w' w'' : Bool} (ht : t.type = .OR)
      (hns : Newlines ns) (hp2 : Derives lenient .pipeline ts p2 w')
      (h : Derives lenient (.andOrFrom (.or p1 p2) w') us ast w) :
      Derives lenient (.andOrFrom p1 w'') (t :: ns ++ ts ++ us) ast w
  | list {ts us : List Token} {p1 p2 : Ast} {w w' : Bool} (hp1 : Derives lenient .andOr ts p1 w)
      (hp2 : Derives lenient .listRest us p2 w') : Derives lenient .list (ts ++ us) (.list p1 p2) w'
  | listEnd : Derives lenient .listRest [] .null false
  | listSemicolon {t : Token} (ht : t.type = .SEMICOLON) : Derives lenient .listRest [t] .null false
  | listMore {t : Token} {ts us : List Token} {p1 p2 : Ast} {w w' : Bool} (ht : t.type = .SEMICOLON)
      (hp1 : Derives lenient .andOr ts p1 w) (hp2 : Derives lenient .listRest us p2 w') :
      Derives lenient .listRest (t :: ts ++ us) (.list p1 p2) w'
  | compound {ns ts us : List Token} {p1 p2 : Ast} {w w' : Bool} (hns : Newlines ns)
      (hp1 : Derives lenient .andOr ts p1 w) (hp2 : Derives lenient (.rest w) us p2 w') :
      Derives lenient .compound (ns ++ ts ++ us) (.list p1 p2) w'
  | restEnd {w : Bool} : Derives lenient (.rest w) [] .null w
  | restSeparator {t : Token} {ns : List Token} {w : Bool} (ht : Separates t) (hns : Newlines ns) :
      Derives lenient (.rest w) (t :: ns) .null false
  | restMore {t : Token} {ns ts us : List Token} {p1 p2 : Ast} {w w' w'' : Bool} (ht : Separates t)
      (hns : Newlines ns) (hp1 : Derives lenient .andOr ts p1 w')
      (hp2 : Derives lenient (.rest w') us p2 w'') :
      Derives lenient (.rest w) (t :: ns ++ ts ++ us) (.list p1 p2) w''
  | group {l r : Token} {ts : List Token} {ast : Ast} (hl : l.type = .LBRACE)
      (h : Derives lenient .compound ts ast false) (hr : r.type = .RBRACE) :
      Derives lenient .shell (l :: ts ++ [r]) ast false
  | subshell {l r : Token} {ts : List Token} {ast : Ast} {w : Bool} (hl : l.type = .LPAREN)
      (h : Derives lenient .compound ts ast w) (hr : r.type = .RPAREN) :
      Derives lenient .shell (l :: ts ++ [r]) (.subshell ast) false
  | ifThen {i t f : Token} {ts us vs : List Token} {p1 p2 p3 : Ast} (hi : i.type = .IF)
      (hp1 : Derives lenient .compound ts p1 false) (ht : t.type = .THEN)
      (hp2 : Derives lenient .compound us p2 false) (hp3 : Derives lenient .elseClause vs p3 false)
      (hf : f.type = .FI) :
      Derives lenient .shell (i :: ts ++ t :: us ++ vs ++ [f]) (.ifThen p1 p2 p3) false
  | whileLoop {l d e : Token} {ts us : List Token} {p1 p2 : Ast} (hl : l.type = .WHILE)
      (hp1 : Derives lenient .compound ts p1 false) (hd : d.type = .DO)
      (hp2 : Derives lenient .compound us p2 false) (he : e.type = .DONE) :
      Derives lenient .shell (l :: ts ++ d :: us ++ [e]) (.whileLoop p1 p2) false
  | untilLoop {l d e : Token} {ts us : List Token} {p1 p2 : Ast} (hl : l.type = .UNTIL)
      (hp1 : Derives lenient .compound ts p1 false) (hd : d.type = .DO)
      (hp2 : Derives lenient .compound us p2 false) (he : e.type = .DONE) :
      Derives lenient .shell (l :: ts ++ d :: us ++ [e]) (.untilLoop p1 p2) false
  | forArguments {l x d e : Token} {ss ns ts : List Token} {p1 : Ast} {p2 : Word} (hl : l.type = .FOR)
      (hx : x.word = some p2) (hss : ss = [] ∨ ∃ s : Token, ss = [s] ∧ s.type = .SEMICOLON)
      (hns : Newlines ns) (hd : d.type = .DO) (hp1 : Derives lenient .compound ts p1 false)
      (he : e.type = .DONE) :
      Derives lenient .shell (l :: x :: ss ++ ns ++ d :: ts ++ [e]) (.forLoop p1 p2 [['$', '@']]) false
  | forWords {l x i s d e : Token} {ns ws ms ts : List Token} {p1 : Ast} {p2 : Word} {p3 : List Word}
      (hl : l.type = .FOR) (hx : x.word = some p2) (hns : Newlines ns) (hi : i.type = .IN)
      (hws : Elements ws p3 []) (hs : Separates s) (hms : Newlines ms) (hd : d.type = .DO)
      (hp1 : Derives lenient .compound ts p1 false) (he : e.type = .DONE) :
      Derives lenient .shell (l :: x :: ns ++ i :: ws ++ s :: ms ++ d :: ts ++ [e])
        (.forLoop p1 p2 (if p3.isEmpty then [['$', '@']] else p3)) false
  | noElse : Derives lenient .elseClause [] .null false
  | else {e : Token} {ts : List Token} {ast : Ast} (he : e.type = .ELSE)
      (h : Derives lenient .compound ts ast false) : Derives lenient .elseClause (e :: ts) ast false
  | elif {e t : Token} {ts us vs : List Token} {p1 p2 p3 : Ast} (he : e.type = .ELIF)
      (hp1 : Derives lenient .compound ts p1 false) (ht : t.type = .THEN)
      (hp2 : Derives lenient .compound us p2 false) (hp3 : Derives lenient .elseClause vs p3 false) :
      Derives lenient .elseClause (e :: ts ++ t :: us ++ vs) (.ifThen p1 p2 p3) false

end BrebOS.Shell
