import BrebOS.FileManagement.FileTable

/-!
# Ends of pipes in the table of open files

An end of a pipe is open iff its entry is there, and the entry is the one the pipe knows.  `Pipes`
says so, and the lemmas keep it through whatever happens to an entry.
-/

namespace BrebOS

namespace FileTable

/-- The entries of the pipes and what the pipes know of each other's ends. -/
structure Pipes (v : FileTable) : Prop where
  readEnd : ∀ fd id, v.kindAt fd = some (.pipe id .read) →
    ∃ p, v.pipes[id]? = some p ∧ p.readFd = fd ∧ p.pipe.readOpen = true
  writeEnd : ∀ fd id, v.kindAt fd = some (.pipe id .write) →
    ∃ p, v.pipes[id]? = some p ∧ p.writeFd = fd ∧ p.pipe.writeOpen = true
  readOpen : ∀ (id : ℕ) (p : PipeFds), v.pipes[id]? = some p → p.pipe.readOpen = true →
    v.kindAt p.readFd = some (.pipe id .read)
  writeOpen : ∀ (id : ℕ) (p : PipeFds), v.pipes[id]? = some p → p.pipe.writeOpen = true →
    v.kindAt p.writeFd = some (.pipe id .write)
  buf : ∀ (id : ℕ) (p : PipeFds), v.pipes[id]? = some p → p.pipe.buf.InBounds ∧
    p.pipe.buf.capacity = pipeBufSize

namespace Pipes

variable {v v' : FileTable} {fd id : ℕ}

lemma congr (h : v.Pipes) (hkind : ∀ fd id e, v'.kindAt fd = some (.pipe id e) ↔
    v.kindAt fd = some (.pipe id e)) (hpipes : v'.pipes = v.pipes) : v'.Pipes := by
  refine ⟨?_, ?_, ?_, ?_, ?_⟩
  · intro fd id hfd
    rw [hpipes]
    exact h.readEnd fd id ((hkind _ _ _).mp hfd)
  · intro fd id hfd
    rw [hpipes]
    exact h.writeEnd fd id ((hkind _ _ _).mp hfd)
  · intro id p hp ho
    rw [hpipes] at hp
    exact (hkind _ _ _).mpr (h.readOpen id p hp ho)
  · intro id p hp ho
    rw [hpipes] at hp
    exact (hkind _ _ _).mpr (h.writeOpen id p hp ho)
  · rw [hpipes]
    exact h.buf

lemma update {k : Option FileKind} (h : v.Pipes) (hnone : ∀ id e, v.kindAt fd ≠ some (.pipe id e))
    (hk : ∀ id e, k ≠ some (.pipe id e)) (hkind : v'.kindAt = Function.update v.kindAt fd k)
    (hpipes : v'.pipes = v.pipes) : v'.Pipes := by
  refine h.congr ?_ hpipes
  intro j id e
  rw [hkind]
  rcases eq_or_ne j fd with rfl | hne
  · rw [Function.update_self]
    exact iff_of_false (hk id e) (hnone id e)
  · rw [Function.update_of_ne hne]

lemma change {p p' : PipeFds} (h : v.Pipes) (hp : v.pipes[id]? = some p)
    (hp' : v'.pipes[id]? = some p') (hother : ∀ j, j ≠ id → v'.pipes[j]? = v.pipes[j]?)
    (hfds : p'.readFd = p.readFd ∧ p'.writeFd = p.writeFd)
    (hread : p'.pipe.readOpen = true → p.pipe.readOpen = true)
    (hwrite : p'.pipe.writeOpen = true → p.pipe.writeOpen = true)
    (hbuf : p'.pipe.buf.InBounds ∧ p'.pipe.buf.capacity = pipeBufSize)
    (hkind : ∀ fd j e, j ≠ id → (v'.kindAt fd = some (.pipe j e) ↔ v.kindAt fd = some (.pipe j e)))
    (hkindRead : ∀ fd, v'.kindAt fd = some (.pipe id .read) ↔
      v.kindAt fd = some (.pipe id .read) ∧ p'.pipe.readOpen = true)
    (hkindWrite : ∀ fd, v'.kindAt fd = some (.pipe id .write) ↔
      v.kindAt fd = some (.pipe id .write) ∧ p'.pipe.writeOpen = true) : v'.Pipes := by
  refine ⟨?_, ?_, ?_, ?_, ?_⟩
  · intro fd j hj
    rcases eq_or_ne j id with rfl | hne
    · obtain ⟨hk, ho⟩ := (hkindRead fd).mp hj
      obtain ⟨q, hq, hfd, -⟩ := h.readEnd fd j hk
      obtain rfl : p = q := by simpa [hp] using hq
      exact ⟨p', hp', hfds.1.trans hfd, ho⟩
    · rw [hother j hne]
      exact h.readEnd fd j ((hkind fd j _ hne).mp hj)
  · intro fd j hj
    rcases eq_or_ne j id with rfl | hne
    · obtain ⟨hk, ho⟩ := (hkindWrite fd).mp hj
      obtain ⟨q, hq, hfd, -⟩ := h.writeEnd fd j hk
      obtain rfl : p = q := by simpa [hp] using hq
      exact ⟨p', hp', hfds.2.trans hfd, ho⟩
    · rw [hother j hne]
      exact h.writeEnd fd j ((hkind fd j _ hne).mp hj)
  · intro j q hq ho
    rcases eq_or_ne j id with rfl | hne
    · obtain rfl : p' = q := by simpa [hp'] using hq
      rw [hfds.1]
      exact (hkindRead _).mpr ⟨h.readOpen j p hp (hread ho), ho⟩
    · rw [hother j hne] at hq
      exact (hkind _ j _ hne).mpr (h.readOpen j q hq ho)
  · intro j q hq ho
    rcases eq_or_ne j id with rfl | hne
    · obtain rfl : p' = q := by simpa [hp'] using hq
      rw [hfds.2]
      exact (hkindWrite _).mpr ⟨h.writeOpen j p hp (hwrite ho), ho⟩
    · rw [hother j hne] at hq
      exact (hkind _ j _ hne).mpr (h.writeOpen j q hq ho)
  · intro j q hq
    rcases eq_or_ne j id with rfl | hne
    · obtain rfl : p' = q := by simpa [hp'] using hq
      exact hbuf
    · rw [hother j hne] at hq
      exact h.buf j q hq

lemma pipe {rfd wfd : ℕ} (h : v.Pipes) (hne : rfd ≠ wfd) (hr : v.kindAt rfd = none)
    (hw : v.kindAt wfd = none)
    (hkind : v'.kindAt = Function.update (Function.update v.kindAt rfd
      (some (.pipe v.pipes.length .read))) wfd (some (.pipe v.pipes.length .write)))
    (hpipes : v'.pipes = v.pipes ++ [⟨{}, rfd, wfd⟩]) : v'.Pipes := by
  have hat : ∀ j, j ≠ rfd → j ≠ wfd → v'.kindAt j = v.kindAt j := by
    intro j hj hj'
    rw [hkind, Function.update_of_ne hj', Function.update_of_ne hj]
  have hrfd : v'.kindAt rfd = some (.pipe v.pipes.length .read) := by
    rw [hkind, Function.update_of_ne hne, Function.update_self]
  have hwfd : v'.kindAt wfd = some (.pipe v.pipes.length .write) := by
    rw [hkind, Function.update_self]
  have hlast : v'.pipes[v.pipes.length]? = some ⟨{}, rfd, wfd⟩ := by simp [hpipes]
  have hold : ∀ (id : ℕ) (p : PipeFds), v.pipes[id]? = some p → v'.pipes[id]? = some p := by
    intro id p hp
    rw [hpipes, List.getElem?_append_left (List.getElem?_eq_some_iff.mp hp).1, hp]
  have hcases : ∀ (id : ℕ) (p : PipeFds), v'.pipes[id]? = some p →
      v.pipes[id]? = some p ∨ id = v.pipes.length ∧ p = ⟨{}, rfd, wfd⟩ := by
    intro id p hp
    rcases Nat.lt_trichotomy id v.pipes.length with hlt | rfl | hgt
    · rw [hpipes, List.getElem?_append_left hlt] at hp
      exact Or.inl hp
    · exact Or.inr ⟨rfl, by simpa [hlast] using hp.symm⟩
    · rw [hpipes, List.getElem?_eq_none (by simp; omega)] at hp
      cases hp
  have hkeep : ∀ j id e, v.kindAt j = some (.pipe id e) → v'.kindAt j = some (.pipe id e) := by
    intro j id e hj
    rw [hat j]
    · exact hj
    · rintro rfl
      simp [hr] at hj
    · rintro rfl
      simp [hw] at hj
  refine ⟨?_, ?_, ?_, ?_, ?_⟩
  · intro j id hj
    rcases eq_or_ne j rfd with rfl | hjr
    · obtain rfl : v.pipes.length = id := by simpa [hrfd] using hj
      exact ⟨_, hlast, rfl, rfl⟩
    rcases eq_or_ne j wfd with rfl | hjw
    · simp [hwfd] at hj
    · rw [hat j hjr hjw] at hj
      obtain ⟨p, hp, hrest⟩ := h.readEnd j id hj
      exact ⟨p, hold id p hp, hrest⟩
  · intro j id hj
    rcases eq_or_ne j rfd with rfl | hjr
    · simp [hrfd] at hj
    rcases eq_or_ne j wfd with rfl | hjw
    · obtain rfl : v.pipes.length = id := by simpa [hwfd] using hj
      exact ⟨_, hlast, rfl, rfl⟩
    · rw [hat j hjr hjw] at hj
      obtain ⟨p, hp, hrest⟩ := h.writeEnd j id hj
      exact ⟨p, hold id p hp, hrest⟩
  · intro id p hp ho
    rcases hcases id p hp with hp | ⟨rfl, rfl⟩
    · exact hkeep _ _ _ (h.readOpen id p hp ho)
    · exact hrfd
  · intro id p hp ho
    rcases hcases id p hp with hp | ⟨rfl, rfl⟩
    · exact hkeep _ _ _ (h.writeOpen id p hp ho)
    · exact hwfd
  · intro id p hp
    rcases hcases id p hp with hp | ⟨-, rfl⟩
    · exact h.buf id p hp
    · show (({} : Pipe).buf).InBounds ∧ _
      exact ⟨⟨by decide, by decide, by decide, by decide⟩, rfl⟩

lemma getElem?_modifyPipe {p : PipeFds} {g : Pipe → Pipe} (hp : v.pipes[id]? = some p) :
    (v.modifyPipe id g).pipes[id]? = some { p with pipe := g p.pipe } := by
  simp [modifyPipe, hp]

lemma getElem?_modifyPipe_ne {g : Pipe → Pipe} {j : ℕ} (hj : j ≠ id) :
    (v.modifyPipe id g).pipes[j]? = v.pipes[j]? := by
  simp [modifyPipe, hj.symm]

lemma setBuf {p : PipeFds} {b : CircularBuffer} (h : v.Pipes) (hp : v.pipes[id]? = some p)
    (hb : b.InBounds) (hcap : b.capacity = pipeBufSize) :
    (v.modifyPipe id fun _ => { p.pipe with buf := b }).Pipes := by
  refine h.change hp (getElem?_modifyPipe hp) (fun j hj => getElem?_modifyPipe_ne hj) ⟨rfl, rfl⟩
    (fun ho => ho) (fun ho => ho) ⟨hb, hcap⟩ (fun _ _ _ _ => Iff.rfl) ?_ ?_
  · intro fd
    constructor
    · intro hk
      obtain ⟨q, hq, -, ho⟩ := h.readEnd fd _ hk
      obtain rfl : p = q := by simpa [hp] using hq
      exact ⟨hk, ho⟩
    · rintro ⟨hk, -⟩
      exact hk
  · intro fd
    constructor
    · intro hk
      obtain ⟨q, hq, -, ho⟩ := h.writeEnd fd _ hk
      obtain rfl : p = q := by simpa [hp] using hq
      exact ⟨hk, ho⟩
    · rintro ⟨hk, -⟩
      exact hk

lemma kindAt_remove {x : FileInterface} :
    (v.remove fd x).kindAt = Function.update v.kindAt fd none := by
  show ((v.destroy x.kind).setFile fd none).kindAt = _
  rw [kindAt_setFile]
  rcases x with ⟨_ | _ | ⟨id, _ | _⟩, rc⟩ <;> rfl

lemma update_none_iff {g : ℕ → Option FileKind} {j : ℕ} {k : FileKind} :
    Function.update g fd none j = some k ↔ j ≠ fd ∧ g j = some k := by
  rcases eq_or_ne j fd with rfl | hj
  · simp
  · simp [hj]

lemma remove {x : FileInterface} (h : v.Pipes) (hx : v.kindAt fd = some x.kind) :
    (v.remove fd x).Pipes := by
  have hkind : (v.remove fd x).kindAt = Function.update v.kindAt fd none := kindAt_remove
  have hother : ∀ j k, x.kind ≠ k →
      ((v.remove fd x).kindAt j = some k ↔ v.kindAt j = some k) := by
    intro j k hk
    rw [hkind, update_none_iff]
    constructor
    · intro hj
      exact hj.2
    · intro hj
      refine ⟨?_, hj⟩
      rintro rfl
      rw [hx, Option.some.injEq] at hj
      exact hk hj
  rcases hk : x.kind with _ | _ | ⟨id, e⟩
  · refine h.congr (fun j id e => hother j _ (by rw [hk]; simp)) ?_
    simp [FileTable.remove, hk, destroy, setFile]
  · refine h.congr (fun j id e => hother j _ (by rw [hk]; simp)) ?_
    simp [FileTable.remove, hk, destroy, setFile]
  · cases e with
    | read =>
      obtain ⟨p, hp, rfl, ho⟩ := h.readEnd fd id (hk ▸ hx)
      have hpipes : (v.remove p.readFd x).pipes =
          (v.modifyPipe id fun q => { q with readOpen := false }).pipes := by
        simp [FileTable.remove, hk, destroy, setFile]
      have hp' : (v.remove p.readFd x).pipes[id]? =
          some { p with pipe := { p.pipe with readOpen := false } } := by
        rw [hpipes]
        exact getElem?_modifyPipe hp
      refine h.change hp hp'
        (fun j hj => hpipes ▸ getElem?_modifyPipe_ne hj) ⟨rfl, rfl⟩ (fun ho => by cases ho)
        (fun ho => ho) (h.buf id p hp) (fun j k e hk' => hother j _ (by rw [hk]; simp [hk'.symm])) ?_ ?_
      · intro j
        simp only [Bool.false_eq_true, and_false, iff_false, hkind, update_none_iff, not_and]
        intro hj hjk
        obtain ⟨q, hq, hfd, -⟩ := h.readEnd j id hjk
        obtain rfl : p = q := by simpa [hp] using hq
        exact hj hfd.symm
      · intro j
        rw [hother j _ (by rw [hk]; simp)]
        constructor
        · intro hjk
          obtain ⟨q, hq, -, hwo⟩ := h.writeEnd j id hjk
          obtain rfl : p = q := by simpa [hp] using hq
          exact ⟨hjk, hwo⟩
        · intro hjk
          exact hjk.1
    | write =>
      obtain ⟨p, hp, rfl, ho⟩ := h.writeEnd fd id (hk ▸ hx)
      have hpipes : (v.remove p.writeFd x).pipes =
          (v.modifyPipe id fun q => { q with writeOpen := false }).pipes := by
        simp [FileTable.remove, hk, destroy, setFile]
      have hp' : (v.remove p.writeFd x).pipes[id]? =
          some { p with pipe := { p.pipe with writeOpen := false } } := by
        rw [hpipes]
        exact getElem?_modifyPipe hp
      refine h.change hp hp'
        (fun j hj => hpipes ▸ getElem?_modifyPipe_ne hj) ⟨rfl, rfl⟩ (fun ho => ho)
        (fun ho => by cases ho) (h.buf id p hp)
        (fun j k e hk' => hother j _ (by rw [hk]; simp [hk'.symm])) ?_ ?_
      · intro j
        rw [hother j _ (by rw [hk]; simp)]
        constructor
        · intro hjk
          obtain ⟨q, hq, -, hro⟩ := h.readEnd j id hjk
          obtain rfl : p = q := by simpa [hp] using hq
          exact ⟨hjk, hro⟩
        · intro hjk
          exact hjk.1
      · intro j
        simp only [Bool.false_eq_true, and_false, iff_false, hkind, update_none_iff, not_and]
        intro hj hjk
        obtain ⟨q, hq, hfd, -⟩ := h.writeEnd j id hjk
        obtain rfl : p = q := by simpa [hp] using hq
        exact hj hfd.symm

end Pipes

end FileTable

end BrebOS
