import BrebOS.Lib.DirTree
import BrebOS.Libc.Kstring.Tokens
import BrebOS.Programs.Shell.Assign

/-!
# The path of `cd`

`canonicalize_path` keeps the components of a path on a stack.  Of the `..` at the bottom of the stack it
keeps one, also where the path is absolute.
-/

namespace BrebOS.Shell

/-- `"."`. -/
def dot : Name := [46]

/-- `".."`. -/
def dotdot : Name := [46, 46]

/-- `PATH_MAX`. -/
def pathMax : ℕ := 512

def isAbsolute (path : List UInt8) : Bool := path.head? = some slash

/-- What a component means. -/
def hopOf (token : Name) : Hop Name :=
  if token = dot then .stay else if token = dotdot then .up else .down token

/-- Where a path starts. -/
def startDir (abs : Bool) (cwd : List Name) : List Name := if abs then [] else cwd

/-- The directory a path denotes. -/
def resolve (tree : DirTree Name) (cwd : List Name) (path : List UInt8) : Option (List Name) :=
  if path = [] then none else tree.walk (startDir (isAbsolute path) cwd) ((tokens path).map hopOf)

/-- The loop of `canonicalize_curpath`: each entry of the stack, and a slash between two. -/
def strcatAll : List Name → List UInt8 → Except Fault (List UInt8)
  | [], path => .ok path
  | [s], path => strcat path s
  | s :: t :: stack, path => do
      let path ← strcat path s
      let path ← strcat path [slash]
      strcatAll (t :: stack) path

/-- `if (*curpath == '/') strcat(*path, "/");`. -/
def strcatRoot (abs : Bool) (path : List UInt8) : Except Fault (List UInt8) :=
  if abs then strcat path [slash] else .ok path

/-- `canonicalize_curpath` takes a slash at the end away. -/
def trimSlash (path : List UInt8) : Except Fault (List UInt8) :=
  let len := (cString path).length
  if 1 < len ∧ path[len - 1]? = some slash then poke .outOfBounds (len - 1) 0 path else .ok path

/-- `canonicalize_curpath`, into the buffer `path`. -/
def canonicalizeCurpath (stack : List Name) (path curpath : List UInt8) : Except Fault (List UInt8) := do
  let path ← strcatRoot (isAbsolute curpath) path
  let path ← strcatAll stack path
  trimSlash path

/-- `is_valid_dir`. -/
def isValidDir (tree : DirTree Name) (cwd : List Name) (stack : List Name) (curpath : List UInt8) :
    Except Fault Bool := do
  let path ← canonicalizeCurpath stack (List.replicate pathMax 0) curpath
  return (resolve tree cwd (cString path)).isSome

/-- `stack[stack_size++] = token`. -/
def pushToken (stack : List Name) (token : Name) : Except Fault (List Name) :=
  if stack.length < pathMax then .ok (stack ++ [token]) else .error .outOfBounds

/-- A turn of the loop of `canonicalize_path`: the stack, or null when the function returns it. -/
def canonicalizeToken (tree : DirTree Name) (cwd : List Name) (curpath : List UInt8) (token : Name)
    (stack : List Name) : Except Fault (Option (List Name)) :=
  if token = dot then .ok (some stack)
  else if token = dotdot then
    if stack ≠ [] ∧ stack.getLast? ≠ some dotdot then do
      if ← isValidDir tree cwd stack curpath then return some stack.dropLast else return none
    else if stack = [] then do
      let stack ← pushToken stack dotdot
      return some stack
    else .ok (some stack)
  else do
    let stack ← pushToken stack token
    return some stack

/-- The loop of `canonicalize_path` over the tokens, and what comes behind it. -/
def canonicalizeTokens (tree : DirTree Name) (cwd : List Name) (curpath : List UInt8) :
    List Name → List Name → Except Fault (Option (List UInt8))
  | [], stack => do
      let path ← canonicalizeCurpath stack (List.replicate pathMax 0) curpath
      return some (cString path)
  | token :: rest, stack => do
      match ← canonicalizeToken tree cwd curpath token stack with
      | none => return none
      | some stack => canonicalizeTokens tree cwd curpath rest stack

/-- `canonicalize_path`: a path, or null. -/
def canonicalizePath (tree : DirTree Name) (cwd : List Name) (curpath : List UInt8) :
    Except Fault (Option (List UInt8)) :=
  if curpath = [] then .ok none else canonicalizeTokens tree cwd curpath (tokens curpath) []

/-! ## The text of a path -/

/-- The components with a slash between any two. -/
def joined : List Name → List UInt8
  | [] => []
  | [s] => s
  | s :: t :: stack => s ++ slash :: joined (t :: stack)

/-- The path that a stack stands for. -/
def render (abs : Bool) (stack : List Name) : List UInt8 := (if abs then [slash] else []) ++ joined stack

variable {tree : DirTree Name} {cwd stack : List Name} {curpath path path' : List UInt8} {token : Name}
  {n : NormalForm Name} {abs : Bool}

lemma zero_not_mem_slash : (0 : UInt8) ∉ [slash] := by decide

lemma strcatAll_fits (hstack : ∀ s ∈ stack, 0 ∉ s)
    (hfits : (cString path).length + (joined stack).length < path.length) :
    ∃ path', strcatAll stack path = .ok path' ∧ cString path' = cString path ++ joined stack ∧
      path'.length = path.length := by
  induction stack using joined.induct generalizing path with
  | case1 => exact ⟨path, rfl, by simp [joined], rfl⟩
  | case2 s => exact strcat_fits (hstack s (by simp)) hfits
  | case3 s t stack ih =>
      rw [joined, List.length_append, List.length_cons] at hfits
      have hroom : (cString path).length + s.length < path.length := by omega
      obtain ⟨path₁, hfirst, htext₁, hlen₁⟩ := strcat_fits (hstack s (by simp)) hroom
      have hlength₁ := congrArg List.length htext₁
      rw [List.length_append] at hlength₁
      have hroom₁ : (cString path₁).length + [slash].length < path₁.length := by
        rw [List.length_singleton]
        omega
      obtain ⟨path₂, hslash, htext₂, hlen₂⟩ := strcat_fits zero_not_mem_slash hroom₁
      have hlength₂ := congrArg List.length htext₂
      rw [List.length_append, List.length_singleton] at hlength₂
      have hroom₂ : (cString path₂).length + (joined (t :: stack)).length < path₂.length := by omega
      obtain ⟨path', hrest, htext, hlen⟩ := ih (fun s' h => hstack s' (by simp [h])) hroom₂
      refine ⟨path', ?_, ?_, by omega⟩
      · rw [strcatAll, hfirst]
        simp only [bind, Except.bind, hslash]
        exact hrest
      · rw [htext, htext₂, htext₁, joined]
        simp

lemma strcatAll_overflows (hstack : ∀ s ∈ stack, 0 ∉ s) (hpath : (cString path).length < path.length)
    (hover : path.length ≤ (cString path).length + (joined stack).length) :
    strcatAll stack path = .error .outOfBounds := by
  induction stack using joined.induct generalizing path with
  | case1 =>
      rw [joined, List.length_nil] at hover
      omega
  | case2 s => exact strcat_overflows hover
  | case3 s t stack ih =>
      rw [joined, List.length_append, List.length_cons] at hover
      rw [strcatAll]
      by_cases hfirst : (cString path).length + s.length < path.length
      · obtain ⟨path₁, hrun₁, htext₁, hlen₁⟩ := strcat_fits (hstack s (by simp)) hfirst
        have hlength₁ := congrArg List.length htext₁
        rw [List.length_append] at hlength₁
        rw [hrun₁]
        simp only [bind, Except.bind]
        by_cases hslash : (cString path₁).length + [slash].length < path₁.length
        · obtain ⟨path₂, hrun₂, htext₂, hlen₂⟩ := strcat_fits zero_not_mem_slash hslash
          have hlength₂ := congrArg List.length htext₂
          rw [List.length_append, List.length_singleton] at hlength₂
          rw [List.length_singleton] at hslash
          rw [hrun₂]
          exact ih (fun s' h => hstack s' (by simp [h])) (by omega) (by omega)
        · rw [strcat_overflows (by omega)]
      · rw [strcat_overflows (by omega)]
        rfl

lemma getLast_joined (hstack : ∀ s ∈ stack, Component s) (hne : stack ≠ []) :
    ∃ b, (joined stack).getLast? = some b ∧ b ≠ slash := by
  induction stack using joined.induct with
  | case1 => exact absurd rfl hne
  | case2 s =>
      have hs := hstack s (by simp)
      refine ⟨s.getLast hs.ne_nil, List.getLast?_eq_some_getLast hs.ne_nil, ?_⟩
      exact ne_of_mem_of_not_mem (List.getLast_mem hs.ne_nil) hs.slash
  | case3 s t stack ih =>
      obtain ⟨b, hlast, hb⟩ := ih (fun s' h => hstack s' (by simp [h])) (by simp)
      refine ⟨b, ?_, hb⟩
      rw [joined, List.getLast?_append, List.getLast?_cons, hlast]
      rfl

lemma getLast_render (hstack : ∀ s ∈ stack, Component s) (hlen : 1 < (render abs stack).length) :
    (render abs stack).getLast? ≠ some slash := by
  by_cases hne : stack = []
  · cases abs <;> simp [render, joined, hne] at hlen
  · obtain ⟨b, hlast, hb⟩ := getLast_joined hstack hne
    rw [render, List.getLast?_append, hlast]
    simpa using hb

lemma cString_zeros (k : ℕ) : cString (List.replicate k 0) = [] := by simp [cString]

lemma strcatRoot_zeros (abs : Bool) :
    ∃ path, strcatRoot abs (List.replicate pathMax 0) = .ok path ∧
      cString path = (if abs then [slash] else []) ∧ path.length = pathMax := by
  cases abs with
  | false => exact ⟨_, rfl, cString_zeros _, List.length_replicate⟩
  | true =>
      have hroom : (cString (List.replicate pathMax 0)).length + [slash].length <
          (List.replicate pathMax (0 : UInt8)).length := by
        rw [cString_zeros, List.length_replicate]
        decide
      obtain ⟨path, hrun, htext, hlen⟩ := strcat_fits zero_not_mem_slash hroom
      rw [cString_zeros, List.nil_append] at htext
      rw [List.length_replicate] at hlen
      exact ⟨path, hrun, htext, hlen⟩

lemma trimSlash_id (h : 1 < (cString path).length → (cString path).getLast? ≠ some slash) :
    trimSlash path = .ok path := by
  refine if_neg ?_
  rintro ⟨hlong, hlast⟩
  refine h hlong ?_
  have hlt : (cString path).length - 1 < (cString path).length := by omega
  rw [← List.getElem?_take_of_lt hlt, cString_take] at hlast
  rw [List.getLast?_eq_getElem?]
  exact hlast

lemma canonicalizeCurpath_fits (hstack : ∀ s ∈ stack, Component s)
    (hfits : (render (isAbsolute curpath) stack).length < pathMax) :
    ∃ path, canonicalizeCurpath stack (List.replicate pathMax 0) curpath = .ok path ∧
      cString path = render (isAbsolute curpath) stack := by
  obtain ⟨path₁, hroot, htext₁, hlen₁⟩ := strcatRoot_zeros (isAbsolute curpath)
  have hroom : (cString path₁).length + (joined stack).length < path₁.length := by
    rw [htext₁, hlen₁, ← List.length_append]
    exact hfits
  obtain ⟨path, hrun, htext, hlen⟩ := strcatAll_fits (fun s hs => (hstack s hs).zero) hroom
  rw [htext₁] at htext
  refine ⟨path, ?_, htext⟩
  rw [canonicalizeCurpath, hroot]
  simp only [bind, Except.bind, hrun]
  refine trimSlash_id ?_
  rw [htext]
  exact getLast_render hstack

lemma canonicalizeCurpath_overflows (hstack : ∀ s ∈ stack, Component s)
    (hover : pathMax ≤ (render (isAbsolute curpath) stack).length) :
    canonicalizeCurpath stack (List.replicate pathMax 0) curpath = .error .outOfBounds := by
  obtain ⟨path₁, hroot, htext₁, hlen₁⟩ := strcatRoot_zeros (isAbsolute curpath)
  have hover₁ : path₁.length ≤ (cString path₁).length + (joined stack).length := by
    rw [htext₁, hlen₁, ← List.length_append]
    exact hover
  have hpath₁ : (cString path₁).length < path₁.length := by
    rw [htext₁, hlen₁]
    split_ifs <;> decide
  rw [canonicalizeCurpath, hroot]
  simp only [bind, Except.bind, strcatAll_overflows (fun s hs => (hstack s hs).zero) hpath₁ hover₁]

/-! ## The components of a path -/

lemma tokens_slash (s : List UInt8) : tokens (slash :: s) = tokens s := by
  have hgo := Kstring.tokens_go_eq (s.length + 1) s 0 rfl (Nat.le_succ _)
  rw [tokens, List.length_cons, tokens_go_slash, hgo, tokens, Kstring.tokens_go_eq s.length s 0 rfl le_rfl]

lemma flatMap_slash (hne : stack ≠ []) : stack.flatMap (slash :: ·) = slash :: joined stack := by
  induction stack using joined.induct with
  | case1 => exact absurd rfl hne
  | case2 s => simp [joined]
  | case3 s t stack ih =>
      rw [List.flatMap_cons, ih (by simp), joined]
      simp

lemma tokens_render (abs : Bool) (hstack : ∀ s ∈ stack, Component s) :
    tokens (render abs stack) = stack := by
  by_cases hne : stack = []
  · subst hne
    cases abs <;> rfl
  · have htokens := tokens_path hstack
    rw [flatMap_slash hne] at htokens
    cases abs with
    | true => exact htokens
    | false =>
        rw [tokens_slash] at htokens
        exact htokens

lemma component_of_mem_tokens (hpath : 0 ∉ path) : ∀ s ∈ tokens path, Component s := by
  intro s hs
  rw [Kstring.tokens_eq_runs] at hs
  obtain ⟨⟨a, b⟩, hrun, rfl⟩ := List.mem_map.mp hs
  have h := mem_runs.mp hrun
  have hlt := h.nonempty
  have hle := h.bounded
  refine ⟨?_, ?_, ?_⟩
  · intro hnil
    have hlen := congrArg List.length hnil
    simp only [List.length_take, List.length_drop, List.length_nil] at hlen
    omega
  · intro hmem
    obtain ⟨i, hi⟩ := List.mem_iff_getElem?.mp hmem
    have hlen := (List.getElem?_eq_some_iff.mp hi).1
    simp only [List.length_take, List.length_drop] at hlen
    rw [List.getElem?_take_of_lt (by omega), List.getElem?_drop] at hi
    have hinside := h.inside (a + i) slash (by omega) (by omega) hi
    exact absurd hinside (by decide)
  · intro hmem
    exact hpath (List.mem_of_mem_drop (List.mem_of_mem_take hmem))

/-- What the components of a path take up, each with a slash. -/
def weight (stack : List Name) : ℕ := (stack.map fun s => s.length + 1).sum

lemma weight_tokens_go (fuel : ℕ) : ∀ s : List UInt8, weight (tokens.go fuel s) ≤ s.length + 1 := by
  induction fuel with
  | zero =>
      intro s
      simp [tokens.go, weight]
  | succ fuel ih =>
      intro s
      rcases exists_run (Kstring.isDelim [slash]) s with
        hall | ⟨skip, name, rest, rfl, hskip, hne, hname, hrest⟩
      · have hdrop : s.dropWhile (fun c => decide (c = slash)) = [] :=
          List.dropWhile_eq_nil_iff.mpr (by simpa [Kstring.isDelim] using hall)
        simp [tokens.go, strtokR, hdrop, weight]
      · rw [tokens.go, Kstring.strtokR_of_run hskip hne hname hrest]
        have hbehind := ih (rest.drop 1)
        simp only [weight, List.map_cons, List.sum_cons, List.length_append, List.length_drop] at hbehind ⊢
        cases rest with
        | nil =>
            have hnone : tokens.go fuel [] = [] := by cases fuel <;> rfl
            simp only [List.drop_nil, hnone, List.map_nil, List.sum_nil]
            omega
        | cons c rest =>
            simp only [List.length_cons] at hbehind ⊢
            omega

lemma weight_tokens (path : List UInt8) : weight (tokens path) ≤ path.length + 1 :=
  weight_tokens_go path.length path

lemma weight_absolute (habs : isAbsolute path = true) : weight (tokens path) ≤ path.length := by
  cases path with
  | nil => cases habs
  | cons b s =>
      obtain rfl : b = slash := by simpa [isAbsolute] using habs
      rw [tokens_slash]
      exact weight_tokens s

lemma length_joined (hne : stack ≠ []) : (joined stack).length + 1 = weight stack := by
  induction stack using joined.induct with
  | case1 => exact absurd rfl hne
  | case2 s => simp [joined, weight]
  | case3 s t stack ih =>
      have hrest := ih (by simp)
      have hweight : weight (s :: t :: stack) = s.length + 1 + weight (t :: stack) := by simp [weight]
      rw [joined, List.length_append, List.length_cons, hrest, hweight]
      omega

/-! ## The stack -/

/-- The stack that stands for a normal form. -/
def stackOf (n : NormalForm Name) : List Name := List.replicate (min n.ups 1) dotdot ++ n.names

/-- The names of a normal form are names of directories. -/
def Proper (n : NormalForm Name) : Prop := ∀ s ∈ n.names, Component s ∧ s ≠ dot ∧ s ≠ dotdot

/-- The stack and the path that a turn makes of it fit. -/
def TurnFits (abs : Bool) (n : NormalForm Name) (token : Name) : Prop :=
  (hopOf token = .up → n.names ≠ [] → (render abs (stackOf n)).length < pathMax) ∧
    (stackOf (n.add (hopOf token))).length ≤ pathMax

/-- They fit in all turns, and so does the path that is returned. -/
def FitsFrom (abs : Bool) : NormalForm Name → List Name → Prop
  | n, [] => (render abs (stackOf n)).length < pathMax
  | n, token :: rest => TurnFits abs n token ∧ FitsFrom abs (n.add (hopOf token)) rest

/-- A directory that is left by `..` is found. -/
def TurnFound (tree : DirTree Name) (cwd : List Name) (abs : Bool) (n : NormalForm Name) (token : Name) :
    Prop :=
  hopOf token = .up → n.names ≠ [] → (resolve tree cwd (render abs (stackOf n))).isSome = true

/-- Each of them is found. -/
def Found (tree : DirTree Name) (cwd : List Name) (abs : Bool) : NormalForm Name → List Name → Prop
  | _, [] => True
  | n, token :: rest => TurnFound tree cwd abs n token ∧ Found tree cwd abs (n.add (hopOf token)) rest

lemma component_dotdot : Component dotdot := by decide

lemma Proper.component (h : Proper n) : ∀ s ∈ stackOf n, Component s := by
  intro s hs
  rcases List.mem_append.mp hs with hs | hs
  · rw [List.eq_of_mem_replicate hs]
    exact component_dotdot
  · exact (h s hs).1

lemma hopOf_dot : hopOf dot = .stay := if_pos rfl

lemma hopOf_dotdot : hopOf dotdot = .up := by decide

lemma hopOf_name (hdot : token ≠ dot) (hdotdot : token ≠ dotdot) : hopOf token = .down token := by
  rw [hopOf, if_neg hdot, if_neg hdotdot]

lemma Proper.add (h : Proper n) (htoken : Component token) : Proper (n.add (hopOf token)) := by
  by_cases hdot : token = dot
  · rw [hdot, hopOf_dot]
    exact h
  · by_cases hdotdot : token = dotdot
    · rw [hdotdot, hopOf_dotdot, NormalForm.add]
      split_ifs
      · exact h
      · exact fun s hs => h s (List.mem_of_mem_dropLast hs)
    · rw [hopOf_name hdot hdotdot, NormalForm.add]
      intro s hs
      rcases List.mem_append.mp hs with hs | hs
      · exact h s hs
      · rw [List.mem_singleton.mp hs]
        exact ⟨htoken, hdot, hdotdot⟩

lemma isValidDir_fits (h : Proper n) (hfits : (render (isAbsolute curpath) (stackOf n)).length < pathMax) :
    isValidDir tree cwd (stackOf n) curpath =
      .ok (resolve tree cwd (render (isAbsolute curpath) (stackOf n))).isSome := by
  obtain ⟨path, hrun, htext⟩ := canonicalizeCurpath_fits h.component hfits
  rw [isValidDir, hrun, ← htext]
  rfl

lemma stackOf_eq_nil : stackOf n = [] ↔ n.ups = 0 ∧ n.names = [] := by
  rw [stackOf, List.append_eq_nil_iff, List.replicate_eq_nil_iff]
  refine and_congr_left fun _ => ?_
  omega

lemma Proper.getLast_stack (h : Proper n) (hnames : n.names ≠ []) :
    stackOf n ≠ [] ∧ (stackOf n).getLast? ≠ some dotdot ∧
      (stackOf n).dropLast = stackOf { n with names := n.names.dropLast } := by
  refine ⟨?_, ?_, ?_⟩
  · simp [stackOf, hnames]
  · rw [stackOf, List.getLast?_append, List.getLast?_eq_some_getLast hnames]
    intro hlast
    exact (h _ (List.getLast_mem hnames)).2.2 (Option.some.inj hlast)
  · rw [stackOf, stackOf, List.dropLast_append_of_ne_nil hnames]

lemma canonicalizeToken_eq (h : Proper n) (hlen : (stackOf n).length ≤ pathMax) :
    (TurnFits (isAbsolute curpath) n token ∧
        (canonicalizeToken tree cwd curpath token (stackOf n) = .ok (some (stackOf (n.add (hopOf token)))) ∨
          ¬ TurnFound tree cwd (isAbsolute curpath) n token ∧
            canonicalizeToken tree cwd curpath token (stackOf n) = .ok none)) ∨
      ¬ TurnFits (isAbsolute curpath) n token ∧
        canonicalizeToken tree cwd curpath token (stackOf n) = .error .outOfBounds := by
  rw [canonicalizeToken, TurnFits]
  split_ifs with hdot hdotdot hpop hempty
  · -- `.`
    left
    rw [hdot, hopOf_dot]
    exact ⟨⟨fun hup => absurd hup (by decide), hlen⟩, Or.inl rfl⟩
  · -- `..` on top of a name
    rw [hdotdot, hopOf_dotdot]
    have hnames : n.names ≠ [] := by
      intro hnil
      have hups : n.ups ≠ 0 := fun hups => hpop.1 (stackOf_eq_nil.mpr ⟨hups, hnil⟩)
      rw [stackOf, hnil, min_eq_right (by omega)] at hpop
      exact hpop.2 rfl
    obtain ⟨-, -, hdrop⟩ := h.getLast_stack hnames
    have hadd : n.add .up = { n with names := n.names.dropLast } := if_neg hnames
    have hfewer : (stackOf { n with names := n.names.dropLast }).length ≤ pathMax := by
      rw [← hdrop, List.length_dropLast]
      omega
    rw [hadd, hdrop]
    by_cases hfits : (render (isAbsolute curpath) (stackOf n)).length < pathMax
    · left
      refine ⟨⟨fun _ _ => hfits, hfewer⟩, ?_⟩
      rw [isValidDir_fits h hfits]
      by_cases hvalid : (resolve tree cwd (render (isAbsolute curpath) (stackOf n))).isSome = true
      · left
        rw [hvalid]
        rfl
      · right
        refine ⟨fun hfound => hvalid (hfound hopOf_dotdot hnames), ?_⟩
        rw [Bool.not_eq_true] at hvalid
        rw [hvalid]
        rfl
    · right
      refine ⟨fun hturn => hfits (hturn.1 rfl hnames), ?_⟩
      rw [isValidDir, canonicalizeCurpath_overflows h.component (by omega)]
      rfl
  · -- `..` on an empty stack
    left
    rw [hdotdot, hopOf_dotdot]
    obtain ⟨hups, hnames⟩ := stackOf_eq_nil.mp hempty
    have hadd : stackOf (n.add .up) = [dotdot] := by simp [NormalForm.add, stackOf, hups, hnames]
    rw [hadd, hempty]
    exact ⟨⟨fun _ hne => absurd hnames hne, by decide⟩, Or.inl rfl⟩
  · -- `..` on top of `..`
    left
    rw [hdotdot, hopOf_dotdot]
    have hnames : n.names = [] := by
      by_contra hne
      exact hpop ⟨hempty, (h.getLast_stack hne).2.1⟩
    have hups : n.ups ≠ 0 := fun hups => hempty (stackOf_eq_nil.mpr ⟨hups, hnames⟩)
    have hadd : stackOf (n.add .up) = stackOf n := by
      simp only [NormalForm.add, hnames, if_true, stackOf]
      rw [min_eq_right (by omega), min_eq_right (by omega)]
    rw [hadd]
    exact ⟨⟨fun _ hne => absurd hnames hne, hlen⟩, Or.inl rfl⟩
  · -- a name
    rw [hopOf_name hdot hdotdot]
    have hadd : stackOf (n.add (.down token)) = stackOf n ++ [token] := by
      simp [NormalForm.add, stackOf, List.append_assoc]
    rw [hadd, List.length_append, List.length_singleton, pushToken]
    by_cases hroom : (stackOf n).length < pathMax
    · left
      rw [if_pos hroom]
      exact ⟨⟨fun hup => absurd hup (by simp), hroom⟩, Or.inl rfl⟩
    · right
      rw [if_neg hroom]
      exact ⟨fun hturn => hroom hturn.2, rfl⟩

lemma canonicalizeTokens_eq (tree : DirTree Name) (cwd : List Name) (curpath : List UInt8) :
    ∀ {ts : List Name} {n : NormalForm Name}, Proper n → (∀ s ∈ ts, Component s) →
    (stackOf n).length ≤ pathMax → Found tree cwd (isAbsolute curpath) n ts →
      (FitsFrom (isAbsolute curpath) n ts ∧
        canonicalizeTokens tree cwd curpath ts (stackOf n) =
          .ok (some (render (isAbsolute curpath) (stackOf ((ts.map hopOf).foldl NormalForm.add n))))) ∨
      ¬ FitsFrom (isAbsolute curpath) n ts ∧
        canonicalizeTokens tree cwd curpath ts (stackOf n) = .error .outOfBounds
  | [], n, h, _, _, _ => by
      rw [canonicalizeTokens, FitsFrom]
      by_cases hfits : (render (isAbsolute curpath) (stackOf n)).length < pathMax
      · obtain ⟨path, hrun, htext⟩ := canonicalizeCurpath_fits h.component hfits
        left
        refine ⟨hfits, ?_⟩
        rw [hrun, List.map_nil, List.foldl_nil, ← htext]
        rfl
      · right
        refine ⟨hfits, ?_⟩
        rw [canonicalizeCurpath_overflows h.component (by omega)]
        rfl
  | token :: rest, n, h, hts, hlen, hfound => by
      rw [canonicalizeTokens, FitsFrom]
      rcases canonicalizeToken_eq h hlen with ⟨hfits, hturn | ⟨hmissing, -⟩⟩ | ⟨hover, hturn⟩
      · have hrest := canonicalizeTokens_eq tree cwd curpath (h.add (hts token (by simp)))
          (fun s hs => hts s (by simp [hs])) hfits.2 hfound.2
        rw [hturn]
        simp only [bind, Except.bind, hfits, true_and, List.map_cons, List.foldl_cons]
        exact hrest
      · exact absurd hfound.1 hmissing
      · rw [hturn]
        exact Or.inr ⟨fun hfits => hover hfits.1, rfl⟩

lemma canonicalizeTokens_safe : ∀ {ts : List Name} {n : NormalForm Name}, Proper n →
    (∀ s ∈ ts, Component s) →
    (stackOf n).length ≤ pathMax → FitsFrom (isAbsolute curpath) n ts →
      canonicalizeTokens tree cwd curpath ts (stackOf n) ≠ .error .outOfBounds
  | [], n, h, _, _, hfits => by
      obtain ⟨path, hrun, -⟩ := canonicalizeCurpath_fits h.component hfits
      rw [canonicalizeTokens, hrun]
      intro herror
      cases herror
  | token :: rest, n, h, hts, hlen, hfits => by
      rw [canonicalizeTokens]
      rcases canonicalizeToken_eq h hlen with ⟨-, hturn | ⟨-, hturn⟩⟩ | ⟨hover, -⟩
      · rw [hturn]
        exact canonicalizeTokens_safe (h.add (hts token (by simp))) (fun s hs => hts s (by simp [hs]))
          hfits.1.2 hfits.2
      · rw [hturn]
        intro herror
        cases herror
      · exact absurd hfits.1 hover

end BrebOS.Shell
