import BrebOS.Programs.Shell.Cd

/-!
# What the path of `cd` denotes

The stack of `canonicalize_path` is the normal form of the path, but that it has one `..` where the normal
form may have several.  So the path that is made of it denotes the same directory when there is at most one.
-/

namespace BrebOS.Shell

variable {tree : DirTree Name} {cwd stack : List Name} {curpath path path' : List UInt8} {token : Name}
  {n : NormalForm Name} {abs : Bool}

/-! ## What a stack denotes -/

lemma isDir_startDir (hcwd : tree.isDir cwd = true) : tree.isDir (startDir abs cwd) = true := by
  cases abs with
  | true => exact tree.root
  | false => exact hcwd

lemma joined_ne_nil (hstack : ∀ s ∈ stack, Component s) (hne : stack ≠ []) : joined stack ≠ [] := by
  obtain ⟨b, hlast, -⟩ := getLast_joined hstack hne
  intro hnil
  rw [hnil] at hlast
  cases hlast

lemma isAbsolute_render (hstack : ∀ s ∈ stack, Component s) : isAbsolute (render abs stack) = abs := by
  cases abs with
  | true => rfl
  | false =>
      cases stack with
      | nil => rfl
      | cons s stack =>
          have hs := hstack s (by simp)
          obtain ⟨b, s', rfl⟩ := List.exists_cons_of_ne_nil hs.ne_nil
          have hb : b ≠ slash := fun hb => hs.slash (by simp [hb])
          cases stack <;> simp [isAbsolute, render, joined, hb]

lemma Proper.map_hopOf (h : Proper n) :
    (stackOf n).map hopOf = (NormalForm.mk (min n.ups 1) n.names).hops := by
  have hnames : n.names.map hopOf = n.names.map .down :=
    List.map_congr_left fun s hs => hopOf_name (h s hs).2.1 (h s hs).2.2
  rw [stackOf, NormalForm.hops, List.map_append, List.map_replicate, hopOf_dotdot, hnames]

lemma Proper.resolve_render (h : Proper n) (hne : render abs (stackOf n) ≠ []) :
    resolve tree cwd (render abs (stackOf n)) =
      tree.walk (startDir abs cwd) (NormalForm.mk (min n.ups 1) n.names).hops := by
  rw [resolve, if_neg hne, isAbsolute_render h.component, tokens_render _ h.component, h.map_hopOf]

lemma Proper.render_ne_nil (h : Proper n) (hnames : n.names ≠ []) : render abs (stackOf n) ≠ [] := by
  intro hnil
  exact joined_ne_nil h.component (fun hstack => hnames (stackOf_eq_nil.mp hstack).2)
    (List.append_eq_nil_iff.mp hnil).2

/-- The normal form of a path. -/
def normalForm (path : List UInt8) : NormalForm Name := normalize ((tokens path).map hopOf)

lemma proper_foldl : ∀ {ts : List Name} {n : NormalForm Name}, Proper n → (∀ s ∈ ts, Component s) →
    Proper ((ts.map hopOf).foldl NormalForm.add n)
  | [], _, h, _ => h
  | token :: rest, n, h, hts => by
      rw [List.map_cons, List.foldl_cons]
      exact proper_foldl (h.add (hts token (by simp))) fun s hs => hts s (by simp [hs])

lemma proper_empty : Proper ⟨0, []⟩ := by
  intro s hs
  cases hs

lemma proper_normalForm (hpath : 0 ∉ path) : Proper (normalForm path) :=
  proper_foldl proper_empty (component_of_mem_tokens hpath)

lemma found_of_way (hcwd : tree.isDir cwd = true) : ∀ {ts : List Name} {n : NormalForm Name}, Proper n →
    (∀ s ∈ ts, Component s) → ((ts.map hopOf).foldl NormalForm.add n).ups ≤ 1 →
      tree.isDir (n.target (startDir abs cwd)) = true →
        (tree.walk (n.target (startDir abs cwd)) ((ts.map hopOf).dropLast)).isSome = true →
          Found tree cwd abs n ts
  | [], _, _, _, _, _, _ => trivial
  | token :: rest, n, h, hts, hups, hdir, hway => by
      rw [List.map_cons, List.foldl_cons] at hups
      have hfew : n.ups ≤ 1 := (NormalForm.ups_le_add n _).trans ((NormalForm.ups_le_foldl _ _).trans hups)
      refine ⟨?_, ?_⟩
      · intro _ hnames
        have hform : NormalForm.mk (min n.ups 1) n.names = n := by rw [min_eq_left hfew]
        rw [h.resolve_render (h.render_ne_nil hnames), hform, walk_hops (isDir_startDir hcwd), if_pos hdir]
        rfl
      · cases rest with
        | nil => trivial
        | cons next rest =>
            rw [List.map_cons, List.map_cons, List.dropLast_cons_of_ne_nil (List.cons_ne_nil _ _),
              DirTree.walk_cons] at hway
            obtain ⟨e, hway⟩ := Option.isSome_iff_exists.mp hway
            obtain ⟨e', he', hrest⟩ := Option.bind_eq_some_iff.mp hway
            have hnext := tree.isDir_hop hdir he'
            rw [target_add he'] at hnext hrest
            refine found_of_way hcwd (h.add (hts token (by simp))) (fun s hs => hts s (by simp [hs])) hups
              hnext ?_
            rw [List.map_cons, hrest]
            rfl

/-! ## What fits -/

lemma weight_append (s t : List Name) : weight (s ++ t) = weight s + weight t := by
  simp [weight]

lemma length_le_weight (stack : List Name) : stack.length ≤ weight stack := by
  induction stack with
  | nil => exact Nat.zero_le _
  | cons s stack ih =>
      have hweight : weight (s :: stack) = s.length + 1 + weight stack := by simp [weight]
      rw [List.length_cons, hweight]
      omega

lemma weight_dropLast (stack : List Name) : weight stack.dropLast ≤ weight stack := by
  by_cases hne : stack = []
  · simp [hne]
  · have hsplit := weight_append stack.dropLast [stack.getLast hne]
    rw [List.dropLast_append_getLast hne] at hsplit
    omega

lemma weight_add (n : NormalForm Name) (token : Name) :
    weight (stackOf (n.add (hopOf token))) ≤ weight (stackOf n) + weight [token] := by
  by_cases hdot : token = dot
  · rw [hdot, hopOf_dot]
    exact Nat.le_add_right _ _
  · by_cases hdotdot : token = dotdot
    · rw [hdotdot, hopOf_dotdot, NormalForm.add]
      split_ifs with hnames
      · have hheavier : weight (List.replicate (min (n.ups + 1) 1) dotdot) ≤
            weight (List.replicate (min n.ups 1) dotdot) + weight [dotdot] := by
          rw [min_eq_right (by omega)]
          exact Nat.le_add_left _ _
        simp only [stackOf, hnames, List.append_nil]
        exact hheavier
      · have hlighter := weight_dropLast n.names
        simp only [stackOf, weight_append]
        omega
    · rw [hopOf_name hdot hdotdot, NormalForm.add]
      simp only [stackOf, weight_append]
      omega

lemma length_render (abs : Bool) (hweight : weight stack + (if abs then 1 else 0) ≤ pathMax) :
    (render abs stack).length < pathMax := by
  by_cases hne : stack = []
  · subst hne
    cases abs <;> decide
  · have hjoined := length_joined hne
    cases abs <;> simp [render] at hweight ⊢ <;> omega

lemma fits_of_weight : ∀ {ts : List Name} {n : NormalForm Name}, Proper n → (∀ s ∈ ts, Component s) →
    weight (stackOf n) + weight ts + (if abs then 1 else 0) ≤ pathMax → FitsFrom abs n ts
  | [], n, h, _, hweight => length_render abs (by simpa [weight] using hweight)
  | token :: rest, n, h, hts, hweight => by
      have hsplit : weight (token :: rest) = weight [token] + weight rest := weight_append [token] rest
      have hnext := weight_add n token
      have hlen := length_le_weight (stackOf (n.add (hopOf token)))
      refine ⟨⟨fun _ _ => length_render abs (by omega), by omega⟩, ?_⟩
      exact fits_of_weight (h.add (hts token (by simp))) (fun s hs => hts s (by simp [hs])) (by omega)

lemma fitsFrom_end : ∀ {ts : List Name} {n : NormalForm Name}, FitsFrom abs n ts →
    (render abs (stackOf ((ts.map hopOf).foldl NormalForm.add n))).length < pathMax
  | [], _, h => h
  | _ :: _, _, h => by
      rw [List.map_cons, List.foldl_cons]
      exact fitsFrom_end h.2

/-- The components of a path, and the paths that are made of them. -/
def PathFits (path : List UInt8) : Prop := FitsFrom (isAbsolute path) ⟨0, []⟩ (tokens path)

lemma pathFits_of_short (hpath : 0 ∉ path) (hshort : path.length < pathMax) : PathFits path := by
  refine fits_of_weight proper_empty (component_of_mem_tokens hpath) ?_
  have hnothing : weight (stackOf ⟨0, []⟩) = 0 := rfl
  rw [hnothing, Nat.zero_add]
  split_ifs with habs
  · have := weight_absolute habs
    omega
  · have := weight_tokens path
    omega

lemma length_le_render (abs : Bool) (hstack : ∀ s ∈ stack, Component s) :
    stack.length ≤ (render abs stack).length := by
  have hjoined : stack.length ≤ (joined stack).length := by
    induction stack using joined.induct with
    | case1 => exact le_rfl
    | case2 s => exact List.length_pos_of_ne_nil (hstack s (by simp)).ne_nil
    | case3 s t stack ih =>
        have hrest := ih fun s' h => hstack s' (by simp [h])
        rw [joined, List.length_append, List.length_cons (a := s), List.length_cons (a := slash)]
        omega
  rw [render, List.length_append]
  omega

lemma fits_names : ∀ {names : List Name} {n : NormalForm Name}, Proper ⟨n.ups, n.names ++ names⟩ →
    (render abs (stackOf ⟨n.ups, n.names ++ names⟩)).length < pathMax → FitsFrom abs n names
  | [], n, _, hfits => by
      rw [List.append_nil] at hfits
      exact hfits
  | s :: names, n, h, hfits => by
      have hs := h s (by simp)
      have hadd : n.add (hopOf s) = ⟨n.ups, n.names ++ [s]⟩ := by
        rw [hopOf_name hs.2.1 hs.2.2, NormalForm.add]
      have hsplit : n.names ++ s :: names = (n.names ++ [s]) ++ names := by simp
      have hlen : (stackOf ⟨n.ups, n.names ++ [s]⟩).length ≤ pathMax := by
        have hwhole := length_le_render abs h.component
        simp only [stackOf, List.length_append, List.length_cons, List.length_nil] at hwhole hfits ⊢
        omega
      rw [hsplit] at h hfits
      refine ⟨⟨fun hup => ?_, hadd ▸ hlen⟩, ?_⟩
      · rw [hopOf_name hs.2.1 hs.2.2] at hup
        cases hup
      · rw [hadd]
        exact fits_names h hfits

lemma pathFits_stack (h : Proper n) (hfits : (render abs (stackOf n)).length < pathMax) :
    FitsFrom abs ⟨0, []⟩ (stackOf n) := by
  have hone : min n.ups 1 = 0 ∨ min n.ups 1 = 1 := by omega
  have hnames (k : ℕ) (hk : k = min n.ups 1) : FitsFrom abs ⟨k, []⟩ n.names := by
    refine fits_names ?_ ?_
    · exact h
    · have hstack : stackOf ⟨k, n.names⟩ = stackOf n := by
        simp [stackOf, hk]
      rw [List.nil_append, hstack]
      exact hfits
  rcases hone with hzero | hone
  · rw [stackOf, hzero]
    exact hnames 0 hzero.symm
  · rw [stackOf, hone]
    have hadd : (NormalForm.mk 0 ([] : List Name)).add (hopOf dotdot) = ⟨1, []⟩ := by decide
    refine ⟨⟨fun _ hne => absurd rfl hne, by decide⟩, ?_⟩
    rw [hadd]
    exact hnames 1 hone.symm

lemma found_names : ∀ {names : List Name} {n : NormalForm Name}, (∀ s ∈ names, hopOf s ≠ .up) →
    Found tree cwd abs n names
  | [], _, _ => trivial
  | s :: names, _, h =>
      ⟨fun hup => absurd hup (h s (by simp)), found_names fun s' hs' => h s' (by simp [hs'])⟩

lemma found_stack (h : Proper n) : Found tree cwd abs ⟨0, []⟩ (stackOf n) := by
  have hnames : ∀ s ∈ n.names, hopOf s ≠ .up := by
    intro s hs
    rw [hopOf_name (h s hs).2.1 (h s hs).2.2]
    intro hup
    cases hup
  have hone : min n.ups 1 = 0 ∨ min n.ups 1 = 1 := by omega
  rcases hone with hzero | hone
  · rw [stackOf, hzero]
    exact found_names hnames
  · rw [stackOf, hone]
    exact ⟨fun _ hne => absurd rfl hne, found_names hnames⟩

lemma canonicalizePath_stack (h : Proper n) (hne : render abs (stackOf n) ≠ [])
    (hfits : (render abs (stackOf n)).length < pathMax) :
    canonicalizePath tree cwd (render abs (stackOf n)) = .ok (some (render abs (stackOf n))) := by
  have habs : isAbsolute (render abs (stackOf n)) = abs := isAbsolute_render h.component
  have hform : ((stackOf n).map hopOf).foldl NormalForm.add ⟨0, []⟩ = ⟨min n.ups 1, n.names⟩ := by
    rw [h.map_hopOf]
    exact normalize_hops _
  have hstack : stackOf ⟨min n.ups 1, n.names⟩ = stackOf n := by simp [stackOf]
  have hrun := canonicalizeTokens_eq tree cwd (render abs (stackOf n)) proper_empty
    h.component (Nat.zero_le _) (habs.symm ▸ found_stack h)
  rw [habs, hform, hstack] at hrun
  rw [canonicalizePath, if_neg hne, tokens_render _ h.component]
  rcases hrun with ⟨-, hrun⟩ | ⟨hover, -⟩
  · exact hrun
  · exact absurd (pathFits_stack h hfits) hover

/-! ## `canonicalize_path` -/

/-- What is asked of a path that stands for another one. -/
structure IsCanonical (tree : DirTree Name) (cwd : List Name) (curpath path : List UInt8) : Prop where
  same : resolve tree cwd path = resolve tree cwd curpath
  idempotent : canonicalizePath tree cwd path = .ok (some path)
  no_dot : dot ∉ tokens path
  absolute : isAbsolute curpath = true → isAbsolute path = true ∧ dotdot ∉ tokens path
  relative : isAbsolute curpath = false → isAbsolute path = false ∧
    ∀ k, List.replicate k dotdot <+: (tokens curpath).filter (· ≠ dot) →
      List.replicate k dotdot <+: tokens path

/-- The directories on the way of a path exist. -/
def WayExists (tree : DirTree Name) (cwd : List Name) (path : List UInt8) : Prop :=
  (tree.walk (startDir (isAbsolute path) cwd) ((tokens path).map hopOf).dropLast).isSome = true

/-- The path is made canonical in each tree in which the directories on its way exist; and no buffer
overflows when it is short. -/
def CanonicalizeRight (curpath : List UInt8) : Prop :=
  (curpath.length < pathMax → ∀ tree cwd, canonicalizePath tree cwd curpath ≠ .error .outOfBounds) ∧
    ∀ (tree : DirTree Name) (cwd : List Name), tree.isDir cwd = true → WayExists tree cwd curpath →
      ∃ path, canonicalizePath tree cwd curpath = .ok (some path) ∧ IsCanonical tree cwd curpath path

/-- An absolute path does not go above the root; a relative one goes up once at most, and does not lead back
to where it starts. -/
structure GoesUpLittle (curpath : List UInt8) : Prop where
  absolute : isAbsolute curpath = true → (normalForm curpath).ups = 0
  relative : isAbsolute curpath = false → (normalForm curpath).ups ≤ 1 ∧ normalForm curpath ≠ ⟨0, []⟩

lemma GoesUpLittle.ups_le_one (h : GoesUpLittle curpath) : (normalForm curpath).ups ≤ 1 := by
  cases habs : isAbsolute curpath with
  | true =>
      rw [h.absolute habs]
      exact Nat.zero_le 1
  | false => exact (h.relative habs).1

lemma canonicalizePath_safe (hpath : 0 ∉ curpath) (hshort : curpath.length < pathMax) :
    canonicalizePath tree cwd curpath ≠ .error .outOfBounds := by
  rw [canonicalizePath]
  split_ifs
  · intro h
    cases h
  · exact canonicalizeTokens_safe proper_empty (component_of_mem_tokens hpath) (Nat.zero_le _)
      (pathFits_of_short hpath hshort)

lemma ups_of_leading : ∀ {ts : List Name} {k m : ℕ}, List.replicate k dotdot <+: ts.filter (· ≠ dot) →
    m + k ≤ ((ts.map hopOf).foldl NormalForm.add ⟨m, []⟩).ups
  | [], k, m, h => by
      have hk : k = 0 := by simpa using h
      simp [hk]
  | token :: rest, k, m, h => by
      rw [List.map_cons, List.foldl_cons]
      by_cases hdot : token = dot
      · subst hdot
        rw [hopOf_dot]
        exact ups_of_leading (by simpa using h)
      · rw [List.filter_cons_of_pos (by simpa using hdot)] at h
        cases k with
        | zero =>
            have hfirst := NormalForm.ups_le_add ⟨m, []⟩ (hopOf token)
            exact hfirst.trans (NormalForm.ups_le_foldl _ _)
        | succ k =>
            rw [List.replicate_succ, List.cons_prefix_cons] at h
            rw [← h.1, hopOf_dotdot, NormalForm.add, if_pos rfl]
            have hrest : m + 1 + k ≤ _ := ups_of_leading h.2
            rw [← Nat.add_assoc, Nat.add_right_comm]
            exact hrest

lemma GoesUpLittle.render_ne_nil (hpath : 0 ∉ curpath) (h : GoesUpLittle curpath) :
    render (isAbsolute curpath) (stackOf (normalForm curpath)) ≠ [] := by
  cases habs : isAbsolute curpath with
  | true => exact List.cons_ne_nil _ _
  | false =>
      intro hnil
      have hstack : stackOf (normalForm curpath) ≠ [] := by
        intro hstack
        obtain ⟨hups, hnames⟩ := stackOf_eq_nil.mp hstack
        exact (h.relative habs).2 (NormalForm.ext hups hnames)
      exact joined_ne_nil (proper_normalForm hpath).component hstack (List.append_eq_nil_iff.mp hnil).2

lemma isCanonical_stack (hpath : 0 ∉ curpath) (h : GoesUpLittle curpath) (hcwd : tree.isDir cwd = true)
    (hway : WayExists tree cwd curpath)
    (hfits : (render (isAbsolute curpath) (stackOf (normalForm curpath))).length < pathMax) :
    IsCanonical tree cwd curpath (render (isAbsolute curpath) (stackOf (normalForm curpath))) := by
  have hproper := proper_normalForm hpath
  have hne := h.render_ne_nil hpath
  have htokens := tokens_render (isAbsolute curpath) hproper.component
  have hform : NormalForm.mk (min (normalForm curpath).ups 1) (normalForm curpath).names =
      normalForm curpath := by rw [min_eq_left h.ups_le_one]
  have hcurpath : curpath ≠ [] := by
    rintro rfl
    exact (h.relative rfl).2 rfl
  refine ⟨?_, canonicalizePath_stack hproper hne hfits, ?_, ?_, ?_⟩
  · rw [hproper.resolve_render hne, hform, resolve, if_neg hcurpath]
    exact walk_normalize (isDir_startDir hcwd) hway
  · rw [htokens, stackOf, List.mem_append, not_or]
    refine ⟨?_, fun hdot => (hproper dot hdot).2.1 rfl⟩
    intro hdot
    exact absurd (List.eq_of_mem_replicate hdot) (by decide)
  · intro habs
    refine ⟨(isAbsolute_render hproper.component).trans habs, ?_⟩
    rw [htokens, stackOf, h.absolute habs]
    exact fun hdotdot => (hproper dotdot hdotdot).2.2 rfl
  · intro habs
    refine ⟨(isAbsolute_render hproper.component).trans habs, ?_⟩
    intro k hk
    have hle := (ups_of_leading hk).trans_eq (show _ = (normalForm curpath).ups from rfl)
    have hone := h.ups_le_one
    have hsplit : min (normalForm curpath).ups 1 = k + (min (normalForm curpath).ups 1 - k) := by omega
    rw [htokens, stackOf, hsplit, List.replicate_add, List.append_assoc]
    exact List.prefix_append _ _

/-- The tree with all directories. -/
def fullTree : DirTree Name := { isDir := fun _ => true, root := rfl, closed := fun _ _ _ => rfl }

lemma walk_fullTree (d : List Name) (hops : List (Hop Name)) : ∃ e, fullTree.walk d hops = some e := by
  induction hops generalizing d with
  | nil => exact ⟨d, rfl⟩
  | cons h hops ih =>
      cases h with
      | stay => exact ih d
      | up => exact ih d.dropLast
      | down a => exact ih (d ++ [a])

lemma found_fullTree : ∀ {ts : List Name} {n : NormalForm Name}, Proper n → (∀ s ∈ ts, Component s) →
    Found fullTree cwd abs n ts
  | [], _, _, _ => trivial
  | token :: rest, n, h, hts => by
      refine ⟨?_, found_fullTree (h.add (hts token (by simp))) fun s hs => hts s (by simp [hs])⟩
      intro _ hnames
      obtain ⟨e, he⟩ := walk_fullTree (startDir abs cwd) (NormalForm.mk (min n.ups 1) n.names).hops
      rw [h.resolve_render (h.render_ne_nil hnames), he]
      rfl

lemma canonicalizePath_fullTree (hpath : 0 ∉ curpath)
    (h : canonicalizePath fullTree cwd curpath = .ok (some path)) :
    curpath ≠ [] ∧ PathFits curpath ∧
      path = render (isAbsolute curpath) (stackOf (normalForm curpath)) := by
  have hempty : curpath ≠ [] := by
    rintro rfl
    cases h
  rw [canonicalizePath, if_neg hempty] at h
  have hcomponents := component_of_mem_tokens hpath
  rcases canonicalizeTokens_eq fullTree cwd curpath proper_empty hcomponents (Nat.zero_le _)
    (found_fullTree proper_empty hcomponents) with ⟨hfits, hrun⟩ | ⟨-, hrun⟩
  · have hsame := hrun.symm.trans h
    exact ⟨hempty, hfits, (Option.some.inj (Except.ok.inj hsame)).symm⟩
  · have hsame := hrun.symm.trans h
    cases hsame

lemma resolve_fullTree (hne : curpath ≠ []) (habs : isAbsolute curpath = false) :
    resolve fullTree cwd curpath = some ((normalForm curpath).target cwd) := by
  obtain ⟨e, he⟩ := walk_fullTree cwd ((tokens curpath).map hopOf)
  have htarget : e = (normalForm curpath).target cwd := by
    rw [← target_start cwd] at he
    exact walk_target he
  rw [resolve, if_neg hne, habs, ← htarget]
  exact he

lemma goesUpLittle_of_right (hpath : 0 ∉ curpath) (h : CanonicalizeRight curpath) :
    GoesUpLittle curpath ∧ PathFits curpath := by
  have hproper := proper_normalForm hpath
  set cwd : List Name := List.replicate (normalForm curpath).ups [97] with hcwd
  obtain ⟨e, hway⟩ :=
    walk_fullTree (startDir (isAbsolute curpath) cwd) ((tokens curpath).map hopOf).dropLast
  obtain ⟨path, hrun, hcanonical⟩ := h.2 fullTree cwd rfl (Option.isSome_of_eq_some hway)
  obtain ⟨hempty, hfits, rfl⟩ := canonicalizePath_fullTree hpath hrun
  refine ⟨⟨?_, ?_⟩, hfits⟩
  · intro habs
    have hno := (hcanonical.absolute habs).2
    rw [tokens_render _ hproper.component, stackOf, List.mem_append, not_or] at hno
    by_contra hups
    refine hno.1 ?_
    rw [min_eq_right (by omega)]
    exact List.mem_singleton_self _
  · intro habs
    have hsame := hcanonical.same
    rw [resolve_fullTree hempty habs] at hsame
    have hne : render (isAbsolute curpath) (stackOf (normalForm curpath)) ≠ [] := by
      intro hnil
      rw [hnil] at hsame
      cases hsame
    refine ⟨?_, ?_⟩
    · by_contra hups
      rw [hproper.resolve_render hne, habs, walk_hops rfl] at hsame
      have hlength := congrArg List.length (Option.some.inj hsame)
      simp only [startDir, Bool.false_eq_true, if_false, NormalForm.target, hcwd, List.length_append,
        List.length_take, List.length_replicate] at hlength
      omega
    · intro hform
      rw [habs, hform] at hne
      exact hne rfl

/-- `canonicalize_path` is right about a path that fits and goes up little. -/
theorem canonicalizePath_right_iff (curpath : List UInt8) (hpath : 0 ∉ curpath) :
    CanonicalizeRight curpath ↔ GoesUpLittle curpath ∧ PathFits curpath := by
  constructor
  · exact goesUpLittle_of_right hpath
  · rintro ⟨hlittle, hfits⟩
    refine ⟨fun hshort _ _ => canonicalizePath_safe hpath hshort, ?_⟩
    intro tree cwd hcwd hway
    have hcomponents := component_of_mem_tokens hpath
    have hcurpath : curpath ≠ [] := by
      rintro rfl
      exact (hlittle.relative rfl).2 rfl
    have hfound : Found tree cwd (isAbsolute curpath) ⟨0, []⟩ (tokens curpath) := by
      refine found_of_way hcwd proper_empty hcomponents hlittle.ups_le_one ?_ ?_
      · rw [target_start]
        exact isDir_startDir hcwd
      · rw [target_start]
        exact hway
    rcases canonicalizeTokens_eq tree cwd curpath proper_empty hcomponents (Nat.zero_le _) hfound with
      ⟨-, hrun⟩ | ⟨hover, -⟩
    · refine ⟨_, ?_, isCanonical_stack hpath hlittle hcwd hway ?_⟩
      · rw [canonicalizePath, if_neg hcurpath]
        exact hrun
      · exact fitsFrom_end hfits
    · exact absurd hfits hover

/-- `"a/b"`. -/
theorem canonicalizePath_right_child :
    CanonicalizeRight [97, 47, 98] ↔ GoesUpLittle [97, 47, 98] ∧ PathFits [97, 47, 98] :=
  canonicalizePath_right_iff [97, 47, 98] (by decide)

/-- Of `"../.."` one component is lost. -/
theorem canonicalizePath_two_up : ¬ CanonicalizeRight [46, 46, 47, 46, 46] := by
  intro h
  have hups := ((goesUpLittle_of_right (by decide) h).1.relative rfl).1
  exact absurd hups (by decide)

end BrebOS.Shell
