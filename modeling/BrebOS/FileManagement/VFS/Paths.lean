import BrebOS.FileManagement.VFS.Resolution
import BrebOS.Lib.Buffer

/-!
# Paths as strings

The path of a dentry is written into a buffer by a recursion over its parents, and read back by
`strtok_r`.  A dentry is given by its name and those of its parents up to the root, its own first.

`VFS::mkdir` splits a path into that of a directory and a name, in a copy that it edits.
-/

namespace BrebOS

/-- `'/'`. -/
def slash : UInt8 := 47

/-- What `new char[n]` holds before anything is written to it. -/
def fresh (junk : ℕ → UInt8) (n : ℕ) : List UInt8 := (List.range n).map junk

@[simp]
lemma length_fresh (junk : ℕ → UInt8) (n : ℕ) : (fresh junk n).length = n := by simp [fresh]

/-- The string a buffer holds. -/
def cString (buf : List UInt8) : List UInt8 := buf.takeWhile (· ≠ 0)

lemma cString_append {s : List UInt8} (h : 0 ∉ s) (rest : List UInt8) : cString (s ++ 0 :: rest) = s := by
  have hs : ∀ b ∈ s, decide (b ≠ 0) = true := by
    intro b hb
    simpa using ne_of_mem_of_not_mem hb h
  rw [cString, List.takeWhile_append_of_pos hs]
  simp

/-! ## `strtok_r` -/

/-- `strtok_r` with the delimiter `'/'`: a token and what is left of the string. -/
def strtokR (s : List UInt8) : Option (Name × List UInt8) :=
  match s.dropWhile (· = slash) with
  | [] => none
  | b :: s => some ((b :: s).takeWhile (· ≠ slash), ((b :: s).dropWhile (· ≠ slash)).drop 1)

/-- All tokens of a string.  There are no more than it has characters. -/
def tokens (s : List UInt8) : List Name := go s.length s
where
  go : ℕ → List UInt8 → List Name
    | 0, _ => []
    | fuel + 1, s =>
      match strtokR s with
      | none => []
      | some (token, rest) => token :: go fuel rest

/-- `browse_to` of a string. -/
def Vfs.browseToPath {D : Type} (F : FileSystems D) (path : List UInt8) (start : ℕ)
    (printErrors : Bool) (locals : List ℕ) (s : Vfs D) : Except Fault (Option ℕ × Vfs D) :=
  s.browseTo F (tokens path) start printErrors locals

/-! ## The path of a dentry -/

/-- `Dentry::absolute_path_length`. -/
def absolutePathLength : List Name → ℕ
  | [] => 0
  | name :: parents => name.length + 1 + absolutePathLength parents

/-- `Dentry::write_name`: the buffer and where `str` points to in it. -/
def writeName : List Name → Bool → List UInt8 × ℕ → Except Fault (List UInt8 × ℕ)
  | [], _, st => .ok st
  | name :: parents, isLast, st => do
      let (buf, str) ← writeName parents false st
      let buf ← pokes .outOfBounds str name buf
      let str := str + name.length
      let (buf, str) ←
        if parents ≠ [] ∧ !isLast then do
          let buf ← poke .outOfBounds str slash buf
          .ok (buf, str + 1)
        else .ok (buf, str)
      let buf ← poke .outOfBounds str 0 buf
      .ok (buf, str)

/-- `Dentry::get_absolute_path`. -/
def getAbsolutePath (junk : ℕ → UInt8) (names : List Name) : Except Fault (List UInt8) := do
  let absName ← poke .outOfBounds 0 0 (fresh junk (absolutePathLength names))
  let (absName, _) ← writeName names true (absName, 0)
  .ok absName

/-! ## `VFS::mkdir` -/

/-- `while (pathname[i] != '/') i--;`. -/
def lastSlash (pathname : List UInt8) : ℕ → ℕ
  | 0 => 0
  | i + 1 => if pathname[i + 1]? = some slash then i + 1 else lastSlash pathname i

/-- What `VFS::mkdir` makes of an absolute path: `parent_dir_path` and `dir_name`. -/
def mkdirPaths (junk : ℕ → UInt8) (pathname : List UInt8) :
    Except Fault (List UInt8 × List UInt8) := do
  let pathLength := pathname.length
  let parentDirPath ← pokes .outOfBounds 0 (pathname ++ [0]) (fresh junk (pathLength + 1))
  let (parentDirPath, pathLength) ←
    if pathname[pathLength - 1]? ≠ some slash then do
      let parentDirPath ← poke .outOfBounds pathLength slash parentDirPath
      let pathLength := pathLength + 1
      let parentDirPath ← poke .outOfBounds pathLength 0 parentDirPath
      .ok (parentDirPath, pathLength)
    else .ok (parentDirPath, pathLength)
  let i := lastSlash pathname (pathLength - 2)
  let parentDirPath ← pokes .outOfBounds (i + 1) (List.replicate (pathLength - i) 0) parentDirPath
  .ok (cString parentDirPath, pathname.drop (i + 1))

/-- `VFS::mkdir`. -/
def Vfs.mkdirPath {D : Type} (F : FileSystems D) (junk : ℕ → UInt8) (pathname : List UInt8)
    (s : Vfs D) : Except Fault (Option ℕ × Vfs D) :=
  if pathname[0]? ≠ some slash ∨ pathname = [slash] then .ok (none, s)
  else do
    let (parentDirPath, dirName) ← mkdirPaths junk pathname
    s.mkdir F (tokens parentDirPath) dirName

/-! ## Reading a path -/

section Tokens

variable {name rest : List UInt8} {names : List Name}

/-- What can be a component of a path. -/
structure Component (name : Name) : Prop where
  ne_nil : name ≠ []
  slash : slash ∉ name
  zero : 0 ∉ name

instance : DecidablePred Component := fun name =>
  decidable_of_iff (name ≠ [] ∧ BrebOS.slash ∉ name ∧ 0 ∉ name)
    ⟨fun ⟨h₁, h₂, h₃⟩ => ⟨h₁, h₂, h₃⟩, fun ⟨h₁, h₂, h₃⟩ => ⟨h₁, h₂, h₃⟩⟩

lemma strtokR_component (h : Component name) (hrest : rest = [] ∨ ∃ t, rest = slash :: t) :
    strtokR (slash :: (name ++ rest)) = some (name, rest.drop 1) := by
  obtain ⟨b, name, rfl⟩ := List.exists_cons_of_ne_nil h.ne_nil
  have hb : b ≠ slash := fun hb => h.slash (by simp [hb])
  have hall : ∀ c ∈ b :: name, decide (c ≠ slash) = true := by
    intro c hc
    simpa using ne_of_mem_of_not_mem hc h.slash
  have hdrop : (slash :: (b :: name ++ rest)).dropWhile (· = slash) = b :: (name ++ rest) := by
    simp [hb]
  have htake : (b :: (name ++ rest)).takeWhile (· ≠ slash) = b :: name := by
    rw [← List.cons_append, List.takeWhile_append_of_pos hall]
    rcases hrest with rfl | ⟨t, rfl⟩ <;> simp
  have hleft : (b :: (name ++ rest)).dropWhile (· ≠ slash) = rest := by
    rw [← List.cons_append, List.dropWhile_append_of_pos hall]
    rcases hrest with rfl | ⟨t, rfl⟩ <;> simp
  simp only [strtokR, hdrop, htake, hleft]

lemma tokens_go_slash : ∀ (fuel : ℕ) (s : List UInt8),
    tokens.go fuel (slash :: s) = tokens.go fuel s
  | 0, _ => rfl
  | _ + 1, s => by simp [tokens.go, strtokR]

lemma tokens_path (h : ∀ name ∈ names, Component name) :
    tokens (names.flatMap (slash :: ·)) = names := by
  suffices hgo : ∀ fuel, names.length ≤ fuel →
      tokens.go fuel (names.flatMap (slash :: ·)) = names by
    refine hgo _ ?_
    clear hgo
    induction names with
    | nil => simp
    | cons name names ih =>
      have := ih fun n hn => h n (by simp [hn])
      simp only [List.flatMap_cons, List.cons_append, List.length_cons, List.length_append]
      omega
  induction names with
  | nil => intro fuel _; cases fuel <;> rfl
  | cons name names ih =>
    intro fuel hfuel
    obtain ⟨fuel, rfl⟩ : ∃ n, fuel = n + 1 := ⟨fuel - 1, by simp at hfuel; omega⟩
    have hih := ih (fun n hn => h n (by simp [hn])) fuel (by simpa using hfuel)
    have hshape : names.flatMap (slash :: ·) = [] ∨ ∃ t, names.flatMap (slash :: ·) = slash :: t := by
      cases names <;> simp
    have hname := strtokR_component (h name (by simp)) hshape
    simp only [List.flatMap_cons, List.cons_append, tokens.go, hname, List.cons.injEq, true_and]
    -- the delimiter behind the token is gone, but a token may as well follow at once
    rcases hshape with hnil | ⟨t, ht⟩
    · rw [hnil] at hih ⊢
      exact hih
    · rw [ht, tokens_go_slash] at hih
      rw [ht]
      exact hih

end Tokens

/-! ## Writing a path -/

section Writing

/-- What `write_name` writes. -/
def nameText : List Name → Bool → List UInt8
  | [], _ => []
  | name :: parents, isLast =>
      nameText parents false ++ name ++ if parents ≠ [] ∧ !isLast then [slash] else []

lemma length_nameText : ∀ (names : List Name) (isLast : Bool), names ≠ [] →
    (nameText names isLast).length + 1 ≤ absolutePathLength names
  | [name], isLast, _ => by simp [nameText, absolutePathLength]
  | name :: parent :: parents, isLast, _ => by
      have := length_nameText (parent :: parents) false (by simp)
      rw [nameText, absolutePathLength, List.length_append, List.length_append]
      split_ifs <;> simp <;> omega

lemma writeName_ok : ∀ (names : List Name) (isLast : Bool) (done buf : List UInt8), names ≠ [] →
    (nameText names isLast).length < buf.length → ∃ rest,
      rest.length + 1 + (nameText names isLast).length = buf.length ∧
      writeName names isLast (done ++ buf, done.length) =
        .ok (done ++ nameText names isLast ++ 0 :: rest, (done ++ nameText names isLast).length)
  | name :: parents, isLast, done, buf, _, hlen => by
      set sep := if parents ≠ [] ∧ !isLast then [slash] else [] with hsep
      have htext : nameText (name :: parents) isLast = nameText parents false ++ name ++ sep := rfl
      rw [htext, List.length_append, List.length_append] at hlen
      -- the parents first: their terminator is overwritten
      obtain ⟨rest, hrest, hparents⟩ : ∃ rest,
          rest.length + (nameText parents false).length = buf.length ∧
          writeName parents false (done ++ buf, done.length) =
            .ok (done ++ nameText parents false ++ rest, (done ++ nameText parents false).length) := by
        rcases parents with _ | ⟨parent, parents⟩
        · exact ⟨buf, by simp [nameText], by simp [nameText, writeName]⟩
        · obtain ⟨rest, hlen', hrun⟩ :=
            writeName_ok (parent :: parents) false done buf (by simp) (by omega)
          exact ⟨0 :: rest, by simp; omega, hrun⟩
      rw [htext, List.length_append, List.length_append, ← List.append_assoc, ← List.append_assoc]
      clear htext
      generalize done ++ nameText parents false = done at hparents ⊢
      -- then the name
      have hname :=
        pokes_append (e := Fault.outOfBounds) done (show name.length ≤ rest.length by omega)
      have hstr : done.length + name.length = (done ++ name).length := List.length_append.symm
      have hdrop : (rest.drop name.length).length = rest.length - name.length := List.length_drop
      generalize rest.drop name.length = rest₁ at hname hdrop
      generalize done ++ name = done at hname hstr ⊢
      obtain ⟨b, rest₂, rfl⟩ := List.exists_cons_of_length_pos (show 0 < rest₁.length by omega)
      simp only [List.length_cons] at hdrop
      by_cases hlast : parents ≠ [] ∧ !isLast
      · -- and the separator
        rw [if_pos hlast] at hsep
        rw [hsep, List.length_singleton] at hlen
        obtain ⟨c, rest₃, rfl⟩ := List.exists_cons_of_length_pos (show 0 < rest₂.length by omega)
        simp only [List.length_cons] at hdrop
        have hsep' : done ++ slash :: c :: rest₃ = done ++ [slash] ++ c :: rest₃ := by simp
        have hstr' : done.length + 1 = (done ++ [slash]).length := by simp
        refine ⟨rest₃, by rw [hsep, List.length_singleton]; omega, ?_⟩
        simp only [writeName, hparents, bind, Except.bind, hname, hstr, if_pos hlast, poke_append, hsep',
          hstr', hsep]
      · rw [if_neg hlast] at hsep
        refine ⟨rest₂, by rw [hsep, List.length_nil]; omega, ?_⟩
        simp only [writeName, hparents, bind, Except.bind, hname, hstr, if_neg hlast, poke_append, hsep,
          List.append_nil]

lemma nameText_dir (ns : List Name) :
    nameText (ns ++ [[slash]]) false = ns.reverse.flatMap (slash :: ·) ++ [slash] := by
  induction ns with
  | nil => simp [nameText]
  | cons n ns ih => simp [nameText, ih]

lemma nameText_path {n : Name} {ns : List Name} :
    nameText (n :: ns ++ [[slash]]) true = (n :: ns).reverse.flatMap (slash :: ·) := by
  rw [List.cons_append, nameText, nameText_dir]
  simp

lemma getAbsolutePath_ok (junk : ℕ → UInt8) {n : Name} {ns : List Name} (hzero : ∀ m ∈ n :: ns, 0 ∉ m) :
    ∃ buf, getAbsolutePath junk (n :: ns ++ [[slash]]) = .ok buf ∧
      buf.length = absolutePathLength (n :: ns ++ [[slash]]) ∧
      cString buf = (n :: ns).reverse.flatMap (slash :: ·) := by
  set names := n :: ns ++ [[slash]] with hnames
  have hne : names ≠ [] := by simp [hnames]
  have hlen := length_nameText names true hne
  set buf := (fresh junk (absolutePathLength names)).set 0 0 with hbuf
  have hbuflen : buf.length = absolutePathLength names := by rw [hbuf, List.length_set, length_fresh]
  obtain ⟨rest, hrest, hrun⟩ := writeName_ok names true [] buf hne (by omega)
  have hpath : nameText names true = (n :: ns).reverse.flatMap (slash :: ·) := nameText_path
  rw [List.nil_append, List.nil_append, List.length_nil] at hrun
  refine ⟨nameText names true ++ 0 :: rest, ?_, ?_, ?_⟩
  · have hfirst : poke Fault.outOfBounds 0 0 (fresh junk (absolutePathLength names)) = .ok buf :=
      poke_ok (by rw [length_fresh]; omega)
    simp only [getAbsolutePath, hfirst, bind, Except.bind, hrun]
  · rw [List.length_append, List.length_cons]
    omega
  · rw [hpath]
    refine cString_append ?_ rest
    simp only [List.mem_flatMap, List.mem_reverse, not_exists, not_and]
    intro m hm hmem
    rcases List.mem_cons.mp hmem with h | h
    · exact absurd h (by decide)
    · exact hzero m hm h

end Writing

/-! ## Splitting a path -/

section Splitting

variable {dir name : List UInt8} {pathname : List UInt8} {i k : ℕ} {junk : ℕ → UInt8}

lemma lastSlash_eq (hi : i = 0 ∨ pathname[i]? = some slash)
    (hnone : ∀ j, i < j → j ≤ k → pathname[j]? ≠ some slash) (hk : i ≤ k) :
    lastSlash pathname k = i := by
  induction k with
  | zero =>
    obtain rfl : i = 0 := by omega
    rfl
  | succ k ih =>
    rcases Nat.lt_or_ge k i with hlt | hle
    · obtain rfl : i = k + 1 := by omega
      rw [lastSlash, if_pos (hi.resolve_left (by omega))]
    · rw [lastSlash, if_neg (hnone (k + 1) (by omega) le_rfl)]
      exact ih (fun j hj hjk => hnone j hj (by omega)) hle

/-- The path of a directory, with the last `/`. -/
structure DirPath (dir : List UInt8) : Prop where
  absolute : dir.head? = some slash
  ends : dir.getLast? = some slash
  zero : 0 ∉ dir

instance : DecidablePred DirPath := fun dir =>
  decidable_of_iff (dir.head? = some slash ∧ dir.getLast? = some slash ∧ 0 ∉ dir)
    ⟨fun ⟨h₁, h₂, h₃⟩ => ⟨h₁, h₂, h₃⟩, fun ⟨h₁, h₂, h₃⟩ => ⟨h₁, h₂, h₃⟩⟩

lemma DirPath.length_pos (h : DirPath dir) : 0 < dir.length := by
  rcases dir with _ | ⟨b, dir⟩
  · simpa using h.absolute
  · simp

lemma DirPath.lastSlash (h : DirPath dir) (hname : Component name) (rest : List UInt8) :
    lastSlash (dir ++ name ++ rest) (dir.length + name.length - 1) = dir.length - 1 := by
  have hpos := h.length_pos
  have hends := h.ends
  rw [List.getLast?_eq_getElem?] at hends
  refine lastSlash_eq (Or.inr ?_) ?_ (by omega)
  · rw [List.append_assoc, List.getElem?_append_left (by omega)]
    exact hends
  · intro j hj hjk hslash
    rw [List.getElem?_append_left (by rw [List.length_append]; omega),
      List.getElem?_append_right (by omega)] at hslash
    exact hname.slash (List.mem_of_getElem? hslash)

lemma mkdirPaths_overflow (hname : Component name) :
    mkdirPaths junk (dir ++ name) = .error .outOfBounds := by
  set pathname := dir ++ name with hpath
  have hcopy : pokes Fault.outOfBounds 0 (pathname ++ [0]) (fresh junk (pathname.length + 1)) =
      .ok (pathname ++ [0]) := by
    rw [pokes_ok (by simp)]
    simp
  have hlast : pathname[pathname.length - 1]? ≠ some slash := by
    rw [← List.getLast?_eq_getElem?, hpath, List.getLast?_append]
    intro hslash
    rcases hl : name.getLast? with _ | b
    · exact hname.ne_nil (List.getLast?_eq_none_iff.mp hl)
    · rw [hl] at hslash
      obtain rfl : b = slash := by simpa using hslash
      exact hname.slash (List.mem_of_getLast? hl)
  have hslash := poke_append (e := Fault.outOfBounds) (c := 0) pathname slash []
  have hterm : poke Fault.outOfBounds (pathname.length + 1) 0 (pathname ++ [slash]) = .error .outOfBounds :=
    poke_error (by simp)
  simp only [mkdirPaths, hcopy, bind, Except.bind, if_pos hlast, hslash, hterm]

lemma mkdirPaths_slash (hdir : DirPath dir) (hname : Component name) :
    mkdirPaths junk (dir ++ name ++ [slash]) = .ok (dir, name ++ [slash]) := by
  set pathname := dir ++ name ++ [slash] with hpath
  have hlen : pathname.length = dir.length + name.length + 1 := by simp [hpath, Nat.add_assoc]
  have hcopy : pokes Fault.outOfBounds 0 (pathname ++ [0]) (fresh junk (pathname.length + 1)) =
      .ok (pathname ++ [0]) := by
    rw [pokes_ok (by simp)]
    simp
  have hlast : pathname[pathname.length - 1]? = some slash := by
    rw [← List.getLast?_eq_getElem?, hpath]
    simp
  have hsplit : lastSlash pathname (pathname.length - 2) = dir.length - 1 := by
    rw [hlen]
    exact hdir.lastSlash hname [slash]
  have hpos := hdir.length_pos
  have herase : pokes Fault.outOfBounds (dir.length - 1 + 1)
      (List.replicate (pathname.length - (dir.length - 1)) 0) (pathname ++ [0]) =
        .ok (dir ++ 0 :: List.replicate (name.length + 1) 0) := by
    have hzeros : pathname.length - (dir.length - 1) = name.length + 1 + 1 := by omega
    have htake : (pathname ++ [0]).take dir.length = dir := by
      rw [hpath, List.append_assoc, List.append_assoc, List.take_left]
    have hdrop : (pathname ++ [0]).drop (dir.length + (name.length + 1 + 1)) = [] := by
      rw [List.drop_eq_nil_iff, List.length_append, List.length_singleton, hlen]
      omega
    rw [pokes_ok (by simp [hlen]; omega), Nat.sub_add_cancel hpos, hzeros, List.length_replicate, htake, hdrop,
      List.replicate_succ, List.append_nil]
  simp only [mkdirPaths, hcopy, bind, Except.bind, hlast, ne_eq, not_true_eq_false, if_false, hsplit, herase,
    cString_append hdir.zero]
  rw [Nat.sub_add_cancel hpos, hpath, List.append_assoc, List.drop_left]

lemma mkdirPath_slash {D : Type} (F : FileSystems D) (s : Vfs D) (hdir : DirPath dir)
    (hname : Component name) :
    s.mkdirPath F junk (dir ++ name ++ [slash]) = s.mkdir F (tokens dir) (name ++ [slash]) := by
  have hfirst : (dir ++ name ++ [slash])[0]? = some slash := by
    rw [← List.head?_eq_getElem?, List.append_assoc, List.head?_append, hdir.absolute]
    rfl
  have hlong : dir ++ name ++ [slash] ≠ [slash] := by
    intro heq
    have hlen := congrArg List.length heq
    have hpos := hdir.length_pos
    simp only [List.length_append, List.length_singleton] at hlen
    omega
  rw [Vfs.mkdirPath, if_neg (not_or.mpr ⟨not_not.mpr hfirst, hlong⟩), mkdirPaths_slash hdir hname]
  rfl

/-- `VFS::mkdir` is right about a path when it takes it apart into the directory and the name, and
writes inside its copy. -/
def MkdirRight (junk : ℕ → UInt8) (dir name : List UInt8) (trailing : Bool) : Prop :=
  mkdirPaths junk (dir ++ name ++ if trailing then [slash] else []) = .ok (dir, name)

/-- It is right about no path. -/
theorem mkdir_never_right (junk : ℕ → UInt8) (dir name : List UInt8) (trailing : Bool) (hdir : DirPath dir)
    (hname : Component name) : ¬ MkdirRight junk dir name trailing := by
  rw [MkdirRight]
  cases trailing with
  | false =>
    rw [if_neg (by simp), List.append_nil, mkdirPaths_overflow hname]
    nofun
  | true =>
    rw [if_pos rfl, mkdirPaths_slash hdir hname]
    simp

/-- `/a`, with and without a slash behind it. -/
theorem mkdir_never_right_a : ¬ MkdirRight (fun _ => 0) [slash] [97] false ∧
    ¬ MkdirRight (fun _ => 0) [slash] [97] true :=
  ⟨mkdir_never_right _ _ _ false (by decide) (by decide), mkdir_never_right _ _ _ true (by decide) (by decide)⟩

/-- The terminator of the copy of `/a` is written behind the copy. -/
theorem mkdir_overflows : ¬ ∀ (junk : ℕ → UInt8) (dir name : List UInt8) (trailing : Bool), DirPath dir →
    Component name → MkdirRight junk dir name trailing := by
  intro h
  have hright := h (fun _ => 0) [slash] [97] false (by decide) (by decide)
  rw [MkdirRight, if_neg (by simp), List.append_nil, mkdirPaths_overflow (by decide)] at hright
  cases hright

end Splitting

/-! ## Dentries and their paths -/

namespace Vfs

variable {D : Type} {F : FileSystems D} {s : Vfs D} {d : ℕ} {ns : List Name}

/-- A dentry with the names from itself up to the root, which is not among them.  A dentry is made in
a directory. -/
def Chain (s : Vfs D) : ℕ → List Name → Prop
  | d, [] => d = s.rootDentry ∧ ∃ o, s.dents d = some o ∧ o.name = [slash] ∧ o.parent = none
  | d, n :: ns => ∃ o, s.dents d = some o ∧ o.name = n ∧
      ∃ p, o.parent = some p ∧ (s.inodeOf p).type = .dir ∧ Chain s p ns

/-- The dentries of a chain are in the cache. -/
def ChainCached (s : Vfs D) : ℕ → List Name → Prop
  | _, [] => True
  | d, _ :: ns => s.Cached d ∧ ∀ p, s.parentOf d = some p → ChainCached s p ns

lemma Keyed.getCachedDentry (h : s.Keyed) {o : Dentry} {p : ℕ} (hc : s.Cached d)
    (hd : s.dents d = some o) (hp : o.parent = some p) : s.getCachedDentry p o.name = some d := by
  obtain ⟨i, hi, hslot⟩ := hc
  rcases hfound : s.getCachedDentry p o.name with _ | x
  · rw [Vfs.getCachedDentry, List.findSome?_eq_none_iff] at hfound
    have hnone := hfound i (List.mem_range.mpr hi)
    simp [hslot, hd, hp] at hnone
  · obtain ⟨⟨j, -, hx⟩, o', hdx, hparent, hname⟩ := getCachedDentry_eq_some hfound
    rw [h j i x d o' o hx hslot hdx hd (hparent.trans hp.symm) hname]

lemma Chain.browseCached (hkeyed : s.Keyed) : ∀ {ns : List Name} {d : ℕ} {rest : List Name},
    s.Chain d ns → s.ChainCached d ns → (∀ n ∈ ns, n ≠ Name.dot ∧ n ≠ Name.dotDot) →
    (s.inodeOf d).type = .dir ∨ rest = [] → 
    s.browseCached (ns.reverse ++ rest) s.rootDentry = s.browseCached rest d
  | [], d, rest, ⟨hd, _⟩, _, _, _ => by
      rw [hd]
      rfl
  | n :: ns, d, rest, ⟨o, hd, hname, p, hp, hdir, hchain⟩, ⟨hc, hcached⟩, hdots, hrest => by
      have hparent : s.parentOf d = some p := by rw [parentOf, hd]; exact hp
      have hih : s.browseCached (ns.reverse ++ n :: rest) s.rootDentry = s.browseCached (n :: rest) p :=
        hchain.browseCached hkeyed (hcached p hparent) (fun m hm => hdots m (by simp [hm])) (Or.inl hdir)
      obtain ⟨hdot, hdotDot⟩ := hdots n (by simp)
      have hfound : s.getCachedDentry p n = some d := hname ▸ hkeyed.getCachedDentry hc hd hp
      rw [List.reverse_cons, List.append_assoc, List.singleton_append, hih, Vfs.browseCached,
        if_neg hdot, if_neg hdotDot, hfound]
      rcases hrest with hdir' | rfl
      · simp [hdir']
      · simp [Vfs.browseCached]

/-- What `get_absolute_path` and `browse_to` owe each other at a dentry. -/
structure PathRight (F : FileSystems D) (s : Vfs D) (d : ℕ) (ns : List Name) : Prop where
  /-- The path is written inside its buffer and is `/n1/n2/.../nk`, -/
  path : ∀ junk, ∃ buf, getAbsolutePath junk (ns ++ [[slash]]) = .ok buf ∧
    buf.length = absolutePathLength (ns ++ [[slash]]) ∧
    cString buf = ns.reverse.flatMap (slash :: ·) ∧ tokens (cString buf) = ns.reverse
  /-- and leads back to the dentry when what is on the way is in the cache. -/
  browse : s.ChainCached d ns → s.Keyed → ∀ printErrors locals,
    s.browseToPath F (ns.reverse.flatMap (slash :: ·)) s.rootDentry printErrors locals = .ok (some d, s)

end Vfs

end BrebOS
