import BrebOS.Programs.Shell.Parser.Complete
import BrebOS.Programs.Shell.Parser.Progress
import BrebOS.Programs.Shell.Redirections

/-!
# The main loop of the shell

`main` in `programs/42sh/42sh.cpp`: inputs are parsed and executed one after the other, up to the end of the
tokens or to a grammar error.
-/

namespace BrebOS.Shell

open Attempt

/-- The loop of `main`, whose next function definition has the number `k`.  A grammar error ends it with
status 2. -/
def mainLoop (env : Env) (l n : ℕ) : ℕ → ℕ → List Token → Context → Result
  | 0, _, _, _ => .error .fuel
  | m + 1, k, ts, c =>
    match (parseInput n).run ts with
    | .error e => .error e
    | .ok (none, _) => errx 2
    | .ok (some (status, ast), rest) => do
      let c ← execList (exec env l) (ast.numbered k).1 c
      if status = .OK then mainLoop env l n m (ast.numbered k).2 rest c else .ok c

/-- Trees whose function definitions are numbered from `k` on. -/
def numberedAll : List Ast → ℕ → List Ast
  | [], _ => []
  | ast :: asts, k => (ast.numbered k).1 :: numberedAll asts (ast.numbered k).2

section Main

variable {env : Env} {k l m n : ℕ} {ts : List Token} {c : Context}

lemma runInputs_cons {ast : Ast} {inputs : List Ast} :
    runInputs env l (ast :: inputs) c = execList (exec env l) ast c >>= runInputs env l inputs := rfl

/-- **A script whose lines are sentences of the grammar is executed as their trees**, in order. -/
theorem mainLoop_script (lines : List (List Token × Ast)) (t : Token) (ht : t.type = .NEWLINE)
    (hlines : ∀ line ∈ lines, ∃ w, Derives False .list line.1 line.2 w)
    (hn : (lines.flatMap fun line => line.1 ++ [t]).length + 1 < n)
    (hm : (lines.flatMap fun line => line.1 ++ [t]).length < m) :
    mainLoop env l n m k (lines.flatMap fun line => line.1 ++ [t]) c =
      runInputs env l (numberedAll (lines.map Prod.snd) k) c := by
  induction lines generalizing k m c with
  | nil =>
    obtain ⟨m, rfl⟩ := Nat.exists_eq_add_of_lt hm
    have hrun : (parseInput n).run [] = .ok (some (.EOF, .null), []) := rfl
    rw [List.flatMap_nil, mainLoop, hrun]
    rfl
  | cons line lines ih =>
    obtain ⟨ts, ast⟩ := line
    obtain ⟨m, rfl⟩ := Nat.exists_eq_succ_of_ne_zero (Nat.ne_zero_of_lt hm)
    obtain ⟨w, h⟩ : ∃ w, Derives False .list ts ast w := hlines (ts, ast) List.mem_cons_self
    simp only [List.flatMap_cons, List.length_append, List.length_singleton] at hn hm
    have htype : nextType (t :: lines.flatMap fun line => line.1 ++ [t]) = .NEWLINE := ht
    have hrun := parseInput_run h (n := n) (by omega) (.inl htype)
    rw [htype, if_neg (by decide), List.tail_cons] at hrun
    rw [List.flatMap_cons, List.append_assoc, List.singleton_append, mainLoop, hrun, List.map_cons,
      numberedAll, runInputs_cons]
    exact congrArg _ (funext fun c => ih (fun line hline => hlines line (List.mem_cons_of_mem _ hline))
      (by omega)
      (by omega))

theorem mainLoop_script_line :
    mainLoop smallEnv 6 4 3 0 [{ type := .WORD, value := some ['a'] }, { type := .NEWLINE }] started =
      runInputs smallEnv 6 [.list (.argv [['a']]) .null] started := by
  refine mainLoop_script [([{ type := .WORD, value := some ['a'] }], .list (.argv [['a']]) .null)]
    { type := .NEWLINE } rfl ?_ (by decide) (by decide)
  intro line hline
  obtain rfl := List.mem_singleton.mp hline
  have hword : Derives False .andOr [{ type := .WORD, value := some ['a'] }] (.argv [['a']]) true :=
    derives_word rfl (by decide)
  exact ⟨false, .list hword .listEnd⟩

end Main

end BrebOS.Shell
