import BrebOS.Core.FB
import BrebOS.Lib.Ring
import BrebOS.Lib.Run

/-!
# The caret and the shadow buffer

The screen is a window of the ring `fb_shadow`.  A scroll moves the window on by one row and clears the row
that was its first; so the rows outside the window are blank, and the one that comes in at the bottom is
one of them.

Two things break the console.  A backspace in the first column of a row that is not the first one wraps
`caret_x`.  A character from 128 on is stored as a negative `char`, and `flush` reads in front of the font
when it draws it.  `Careful` excludes them, and `Inv` is what is true then.
-/

namespace BrebOS.FB

/-! ## What is asked of the console -/

/-- The caret is on the screen. -/
def CaretInside (s : FB) : Prop := s.caretX < s.charactersPerLine ∧ s.caretY < s.charactersPerCol

/-- The offset in `fb_shadow` of the cell at a row and a column of the screen. -/
def cellOff (s : FB) (y x : ℕ) : ℕ := s.wrapOff (s.shadowStart + y * s.fbWidth + x)

/-- The last row of the screen is blank. -/
def BottomBlank (s : FB) : Prop :=
  ∀ x < s.fbWidth, (s.fbShadow (s.cellOff (s.charactersPerCol - 1) x)).c = 0

/-- The character moves the caret below the last row. -/
def ScrollsOn (s : FB) (c : ℕ) : Prop :=
  c ≠ 8 ∧ (c = 10 ∨ s.caretX + 1 = s.charactersPerLine) ∧ s.charactersPerCol ≤ s.caretY + 1

/-- The operation scrolls. -/
def Scrolls (s : FB) : Op → Prop
  | .putchar c => s.ScrollsOn c
  | .write b => s.ScrollsOn b.toNat
  | _ => False

/-- The cell holds a character of the font, or a cursor is shown in it. -/
def DrawableAt (s : FB) (y x : ℕ) : Prop :=
  s.showCursor = true ∧ y = s.caretY ∧ x = s.caretX ∨ 0 ≤ (s.fbShadow (s.cellOff y x)).c

instance (s : FB) (y x : ℕ) : Decidable (s.DrawableAt y x) := inferInstanceAs (Decidable (_ ∨ _))

/-- What `flush` draws can be drawn: the cells of the dirty rectangle. -/
def Drawable (s : FB) : Prop :=
  ∀ y < s.dirtyEndY, ∀ x < s.dirtyEndX, s.dirtyStartY ≤ y → s.dirtyStartX ≤ x → s.DrawableAt y x

instance (s : FB) : Decidable s.Drawable := inferInstanceAs (Decidable (∀ _ < _, ∀ _ < _, _ → _ → _))

/-- A backspace does not leave the row. -/
def StaysInRow (s : FB) (c : ℕ) : Prop := c = 8 → s.caretX = 0 → s.caretY = 0

/-- The condition. -/
def Careful (s : FB) : Op → Prop
  | .putchar c => s.StaysInRow c
  | .write b => s.StaysInRow b.toNat
  | .flush => s.lockFlush = false → s.Drawable
  | .unlockFlushing => s.Drawable
  | _ => True

instance (s : FB) : DecidablePred s.Careful
  | .putchar c => inferInstanceAs (Decidable (c = 8 → s.caretX = 0 → s.caretY = 0))
  | .write b => inferInstanceAs (Decidable (b.toNat = 8 → s.caretX = 0 → s.caretY = 0))
  | .flush => inferInstanceAs (Decidable (s.lockFlush = false → s.Drawable))
  | .unlockFlushing => inferInstanceAs (Decidable s.Drawable)
  | .lockFlushing => isTrue trivial
  | .showCursor _ => isTrue trivial
  | .setFg _ => isTrue trivial
  | .setBg _ => isTrue trivial

/-! ## The invariant -/

/-- The dimensions are those of the mode. -/
structure Shape (m : VideoMode) (s : FB) : Prop where
  width : s.fbWidth = m.width
  height : s.fbHeight = m.height
  size : s.characterSize = m.characterSize
  line : s.charactersPerLine = m.width / 8
  col : s.charactersPerCol = m.height / m.characterSize
  lim : s.shadowLim = m.height * m.width

/-- The cell at column `x` of row `r` of the window, which starts at row `k` of the ring. -/
def cellAt (m : VideoMode) (k r x : ℕ) (s : FB) : Cell := s.fbShadow (ringRow m.height k r * m.width + x)

/-- The ring: the window starts at row `k`, characters are characters, and the rows below the screen are
blank. -/
structure RingInv (m : VideoMode) (k : ℕ) (s : FB) : Prop where
  row : k < m.height
  start : s.shadowStart = k * m.width
  chars : ∀ i, (s.fbShadow i).c < 128
  blank : ∀ r, m.height / m.characterSize ≤ r → r < m.height → ∀ x < m.width, (s.cellAt m k r x).c = 0

/-- The dirty rectangle lies on the screen. -/
structure DirtyInside (m : VideoMode) (s : FB) : Prop where
  x : s.dirtyStartX < s.dirtyEndX
  line : s.dirtyEndX ≤ m.width / 8
  y : s.dirtyStartY < s.dirtyEndY
  col : s.dirtyEndY ≤ m.height / m.characterSize

/-- The invariant between two operations. -/
structure Inv (m : VideoMode) (s : FB) : Prop where
  shape : Shape m s
  ring : ∃ k, RingInv m k s
  dirty : DirtyInside m s
  caret : s.CaretInside

section Ring

variable {m : VideoMode} {s s' : FB} {k r x y i : ℕ} {c : ℕ} {op : Op}

lemma VideoMode.bounds (m : VideoMode) :
    0 < m.width / 8 ∧ m.width / 8 ≤ m.width ∧ 0 < m.height / m.characterSize ∧
      m.height / m.characterSize ≤ m.height ∧ 12 * (m.height * m.width) < 4294967296 := by
  refine ⟨Nat.div_pos m.wide (by decide), Nat.div_le_self _ _, Nat.div_pos m.tall m.glyphs,
    Nat.div_le_self _ _, ?_⟩
  have := m.fits
  rwa [Nat.mul_comm m.width] at this

lemma wrapOff_eq (hs : Shape m s) (hk : k < m.height) (hr : r < m.height) (hx : x < m.width) :
    s.wrapOff (k * m.width + r * m.width + x) = ringRow m.height k r * m.width + x := by
  have hfits := m.bounds.2.2.2.2
  have h₁ := offset_lt (x := 0) hk (by omega : 0 < m.width)
  have h₂ := offset_lt hr hx
  rw [← offset_wrap hx, wrapOff, hs.lim]
  split_ifs with h
  · rw [u32Sub_of_le h (by omega)]
  · rfl

lemma cellOff_eq (hs : Shape m s) (hring : RingInv m k s) (hr : r < m.height) (hx : x < m.width) :
    s.cellOff r x = ringRow m.height k r * m.width + x := by
  rw [cellOff, hring.start, hs.width]
  exact wrapOff_eq hs hring.row hr hx

lemma ringOff_lt (hs : Shape m s) (hk : k < m.height) (hr : r < m.height) (hx : x < m.width) :
    ringRow m.height k r * m.width + x < s.shadowLim := by
  rw [hs.lim]
  exact offset_lt (ringRow_lt hk hr) hx

lemma u32_offset (hk : k < m.height) (hr : r < m.height) (hx : x < m.width) :
    u32 (k * m.width + u32 (r * m.width) + x) = k * m.width + r * m.width + x := by
  have hfits := m.bounds.2.2.2.2
  have h₁ := offset_lt (x := 0) hk (by omega : 0 < m.width)
  have h₂ := offset_lt hr hx
  have hinner : u32 (r * m.width) = r * m.width := u32_of_lt (by omega)
  rw [hinner, u32_of_lt (by omega)]

/-! ## Writing a cell -/

lemma setCell_eq (cell : Cell) (hi : i < s.shadowLim) :
    s.setCell i cell = .ok { s with fbShadow := Function.update s.fbShadow i cell } := if_pos hi

lemma RingInv.write (hring : RingInv m k s) (hy : y < m.height / m.characterSize) (hx : x < m.width)
    {cell : Cell} (hc : cell.c < 128) :
    RingInv m k { s with fbShadow := Function.update s.fbShadow (ringRow m.height k y * m.width + x) cell } := by
  refine ⟨hring.row, hring.start, fun i => ?_, fun r hr hrh x' hx' => ?_⟩
  · simp only [Function.update_apply]
    split_ifs
    · exact hc
    · exact hring.chars i
  · have hne : ringRow m.height k r * m.width + x' ≠ ringRow m.height k y * m.width + x := by
      intro heq
      have hrow := (offset_inj hx' hx heq).1
      have hbound := m.bounds.2.2.2.1
      have := ringRow_inj hrh (by omega) hrow
      omega
    simp only [cellAt]
    rw [Function.update_of_ne hne]
    exact hring.blank r hr hrh x' hx'

lemma clearRow_eq (off n : ℕ) (h : off + n ≤ s.shadowLim) :
    (List.range n).foldlM (fun s x => s.setChar (off + x) 0) s =
      .ok { s with fbShadow := fun i =>
        if off ≤ i ∧ i < off + n then { s.fbShadow i with c := 0 } else s.fbShadow i } := by
  induction n with
  | zero =>
      have hnone : (fun i => if off ≤ i ∧ i < off + 0 then { s.fbShadow i with c := 0 } else s.fbShadow i) =
          s.fbShadow := by
        funext i
        exact if_neg (by omega)
      rw [hnone]
      rfl
  | succ n ih =>
      rw [List.range_succ, List.foldlM_append, ih (by omega)]
      refine bind_eq_ok.mpr ⟨_, rfl, ?_⟩
      rw [List.foldlM_cons]
      refine bind_eq_ok.mpr ⟨_, ?_, rfl⟩
      rw [setChar]
      refine bind_eq_ok.mpr ⟨_, if_pos (by simp only; omega), ?_⟩
      rw [setCell_eq _ (by simp only; omega)]
      congr 2
      funext i
      simp only [Function.update_apply]
      by_cases hi : i = off + n
      · subst hi
        rw [if_pos rfl, if_neg (by omega), if_pos (by omega)]
      · rw [if_neg hi]
        split_ifs
        · rfl
        · omega
        · omega
        · rfl

/-! ## Scrolling -/

lemma scroll_start (hk : k < m.height) :
    u32 (k * m.width + u32 (1 * m.width)) % (m.height * m.width) = ringRow m.height k 1 * m.width := by
  have hfits := m.bounds.2.2.2.2
  have hw : 0 < m.width := by
    have := m.wide
    omega
  have h₁ := offset_lt (x := 0) hk hw
  have h₂ := Nat.mul_le_mul_right m.width (Nat.succ_le_of_lt hk)
  rw [Nat.succ_mul] at h₂
  have hinner : u32 (1 * m.width) = m.width := by
    rw [Nat.one_mul]
    exact u32_of_lt (by omega)
  rw [hinner, u32_of_lt (by omega), ringRow]
  by_cases hlast : k + 1 = m.height
  · rw [if_pos (by omega), hlast, Nat.sub_self, Nat.zero_mul, ← hlast, Nat.succ_mul, Nat.mod_self]
  · rw [if_neg (by omega), Nat.succ_mul, Nat.mod_eq_of_lt]
    have h₃ := Nat.mul_le_mul_right m.width (by omega : k + 2 ≤ m.height)
    rw [Nat.add_mul] at h₃
    omega

lemma VideoMode.height_lt (m : VideoMode) : m.height < 4294967296 ∧ 0 < m.width ∧ 0 < m.height := by
  have hfits := m.bounds.2.2.2.2
  have hwide := m.wide
  have htall := m.tall
  have hglyphs := m.glyphs
  have hle : m.height * 1 ≤ m.height * m.width := Nat.mul_le_mul_left _ (by omega)
  omega

lemma VideoMode.width_lt (m : VideoMode) : m.width < 4294967296 := by
  obtain ⟨-, hw, hhpos⟩ := m.height_lt
  have hfits := m.bounds.2.2.2.2
  have hle : 1 * m.width ≤ m.height * m.width := Nat.mul_le_mul_right _ (by omega)
  omega

lemma scroll_eq (hs : Shape m s) (hring : RingInv m k s) :
    s.scroll 1 = .ok { s with
      shadowStart := ringRow m.height k 1 * m.width
      fbShadow := fun i =>
        if k * m.width ≤ i ∧ i < k * m.width + m.width then { s.fbShadow i with c := 0 } else s.fbShadow i
      caretY := u32Sub s.caretY 1
      dirtyStartY := 0, dirtyStartX := 0
      dirtyEndY := s.charactersPerCol, dirtyEndX := s.charactersPerLine } := by
  obtain ⟨hh, hw, hhpos⟩ := m.height_lt
  have hk := hring.row
  have hk₁ : ringRow m.height k 1 < m.height := by
    unfold ringRow
    split_ifs
    · omega
    · omega
  have hstart : u32 (s.shadowStart + u32 (1 * s.fbWidth)) % s.shadowLim =
    ringRow m.height k 1 * m.width := by
    rw [hring.start, hs.width, hs.lim]
    exact scroll_start hk
  have hlt : ¬ ringRow m.height k 1 * m.width ≥ s.shadowLim := by
    rw [hs.lim]
    exact Nat.not_le_of_lt (offset_lt (x := 0) hk₁ hw)
  have hbase : u32 (ringRow m.height k 1 * m.width + u32 (u32Sub s.fbHeight 1 * s.fbWidth)) =
      ringRow m.height k 1 * m.width + (m.height - 1) * m.width := by
    rw [hs.height, hs.width, u32Sub_of_le (by omega) hh]
    exact u32_offset (x := 0) hk₁ (by omega) hw
  have hzero : u32 (0 * s.fbWidth) = 0 := by
    rw [Nat.zero_mul]
    rfl
  have hcols : List.range s.fbWidth = List.range m.width := by rw [hs.width]
  set s₁ : FB := { s with shadowStart := ringRow m.height k 1 * m.width } with hs₁
  have hshape₁ : Shape m s₁ := ⟨hs.width, hs.height, hs.size, hs.line, hs.col, hs.lim⟩
  have hoff : s₁.wrapOff (u32 (ringRow m.height k 1 * m.width + (m.height - 1) * m.width + 0)) =
    k * m.width := by
    have hfits := m.bounds.2.2.2.2
    have h₁ := offset_lt (x := 0) hk₁ hw
    have h₂ := offset_lt (x := 0) (by omega : m.height - 1 < m.height) hw
    rw [u32_of_lt (by omega), wrapOff_eq hshape₁ hk₁ (by omega) hw, ringRow_last hk, Nat.add_zero]
  have hclear := @clearRow_eq s₁ (k * m.width) m.width (by
    have h₁ := Nat.mul_le_mul_right m.width (Nat.succ_le_of_lt hk)
    rw [Nat.succ_mul] at h₁
    rw [hshape₁.lim]
    exact h₁)
  rw [scroll, hstart, if_neg hlt]
  refine bind_eq_ok.mpr ⟨{ s₁ with fbShadow := fun i =>
    if k * m.width ≤ i ∧ i < k * m.width + m.width then { s.fbShadow i with c := 0 } else s.fbShadow i }, ?_, rfl⟩
  rw [List.range_one, List.foldlM_cons]
  refine bind_eq_ok.mpr ⟨_, ?_, rfl⟩
  simp only [hbase, hzero]
  rw [hoff, hcols]
  exact hclear

/-- **A scroll** shows a blank row at the bottom. -/
lemma scroll_spec (hs : Shape m s) (hring : RingInv m k s) (hpos : 1 ≤ s.caretY)
    (hmax : s.caretY < 4294967296) :
    ∃ s', s.scroll 1 = .ok s' ∧ Shape m s' ∧ RingInv m (ringRow m.height k 1) s' ∧ s'.BottomBlank ∧
      s'.caretX = s.caretX ∧ s'.caretY = s.caretY - 1 ∧ DirtyInside m s' := by
  obtain ⟨hh, hw, hhpos⟩ := m.height_lt
  obtain ⟨hline, hlw, hcol, hch, hfits⟩ := m.bounds
  have hk := hring.row
  have hk₁ : ringRow m.height k 1 < m.height := by
    unfold ringRow
    split_ifs
    · omega
    · omega
  refine ⟨_, scroll_eq hs hring, ?_⟩
  set s' : FB := { s with
    shadowStart := ringRow m.height k 1 * m.width
    fbShadow := fun i =>
      if k * m.width ≤ i ∧ i < k * m.width + m.width then { s.fbShadow i with c := 0 } else s.fbShadow i
    caretY := u32Sub s.caretY 1
    dirtyStartY := 0, dirtyStartX := 0
    dirtyEndY := s.charactersPerCol, dirtyEndX := s.charactersPerLine } with hs'
  have hshape : Shape m s' := ⟨hs.width, hs.height, hs.size, hs.line, hs.col, hs.lim⟩
  -- what comes in at the bottom was below the screen, or is the row that was cleared
  have hbelow : ∀ r, m.height / m.characterSize ≤ r + 1 → r < m.height → ∀ x < m.width,
      (s'.cellAt m (ringRow m.height k 1) r x).c = 0 := by
    intro r hr hrh x hx
    simp only [cellAt, hs']
    by_cases hlast : r + 1 < m.height
    · rw [ringRow_succ hk hlast]
      split_ifs
      · rfl
      · exact hring.blank (r + 1) hr hlast x hx
    · have hr' : r = m.height - 1 := by omega
      rw [hr', ringRow_last hk, if_pos (by omega)]
  have hringInv : RingInv m (ringRow m.height k 1) s' := by
    refine ⟨hk₁, rfl, fun i => ?_, fun r hr hrh x hx => hbelow r (by omega) hrh x hx⟩
    simp only [hs']
    split_ifs
    · show (0 : ℤ) < 128
      norm_num
    · exact hring.chars i
  refine ⟨hshape, hringInv, ?_, rfl, u32Sub_of_le hpos hmax, ⟨?_, ?_, ?_, ?_⟩⟩
  · intro x hx
    rw [hshape.width] at hx
    rw [hshape.col, cellOff_eq hshape hringInv (by omega) hx]
    exact hbelow _ (by omega) (by omega) x hx
  · show 0 < s.charactersPerLine
    rw [hs.line]
    exact hline
  · show s.charactersPerLine ≤ _
    rw [hs.line]
  · show 0 < s.charactersPerCol
    rw [hs.col]
    exact hcol
  · show s.charactersPerCol ≤ _
    rw [hs.col]

/-! ## Characters -/

lemma Inv.updateDirtyRect (hi : Inv m s) : Inv m s.updateDirtyRect := by
  obtain ⟨hcx, hcy⟩ := hi.caret
  rw [hi.shape.line] at hcx
  rw [hi.shape.col] at hcy
  obtain ⟨hdx, hdline, hdy, hdcol⟩ := hi.dirty
  obtain ⟨hh, -, -⟩ := m.height_lt
  have hch := m.bounds.2.2.2.1
  have hlw := m.bounds.2.1
  have hwlt := m.width_lt
  have hx₁ : u32 (s.caretX + 1) = s.caretX + 1 := u32_of_lt (by omega)
  have hy₁ : u32 (s.caretY + 1) = s.caretY + 1 := u32_of_lt (by omega)
  refine ⟨⟨hi.shape.width, hi.shape.height, hi.shape.size, hi.shape.line, hi.shape.col,
    hi.shape.lim⟩, ?_, ?_,
    hi.caret⟩
  · obtain ⟨k, hring⟩ := hi.ring
    exact ⟨k, hring.row, hring.start, hring.chars, hring.blank⟩
  · refine ⟨?_, ?_, ?_, ?_⟩
    · simp only [FB.updateDirtyRect, hx₁]
      split_ifs
      · omega
      · omega
      · omega
      · omega
    · simp only [FB.updateDirtyRect, hx₁]
      split_ifs
      · omega
      · omega
    · simp only [FB.updateDirtyRect, hy₁]
      split_ifs
      · omega
      · omega
      · omega
      · omega
    · simp only [FB.updateDirtyRect, hy₁]
      split_ifs
      · omega
      · omega

lemma Inv.setCaret (hi : Inv m s) (hx : x < m.width / 8) (hy : y < m.height / m.characterSize) :
    Inv m { s with caretX := x, caretY := y } := by
  refine ⟨⟨hi.shape.width, hi.shape.height, hi.shape.size, hi.shape.line, hi.shape.col, hi.shape.lim⟩, ?_,
    ⟨hi.dirty.x, hi.dirty.line, hi.dirty.y, hi.dirty.col⟩, ?_, ?_⟩
  · obtain ⟨k, hring⟩ := hi.ring
    exact ⟨k, hring.row, hring.start, hring.chars, hring.blank⟩
  · show x < s.charactersPerLine
    rw [hi.shape.line]
    exact hx
  · show y < s.charactersPerCol
    rw [hi.shape.col]
    exact hy

/-- **The next row**: it is on the screen, or the screen scrolls. -/
lemma Inv.nextRow (hi : Inv m s) {f : FB → FB}
    (hf : ∀ s, Inv m s → Inv m (f s) ∧ (f s).shadowStart = s.shadowStart) :
    ∃ s', (if u32 (s.caretY + 1) ≥ s.charactersPerCol then
        scroll 1 { s with caretY := u32 (s.caretY + 1), caretX := 0 }
      else .ok (f { s with caretY := u32 (s.caretY + 1), caretX := 0 })) = .ok s' ∧ Inv m s' ∧
      (s.charactersPerCol ≤ s.caretY + 1 → s'.BottomBlank) ∧
      (s.caretY + 1 < s.charactersPerCol → s'.shadowStart = s.shadowStart) := by
  have hcy := hi.caret.2
  have hcol := hi.shape.col
  obtain ⟨hh, -, -⟩ := m.height_lt
  have hch := m.bounds.2.2.2.1
  have hline := m.bounds.1
  have hy₁ : u32 (s.caretY + 1) = s.caretY + 1 := u32_of_lt (by omega)
  rw [hy₁]
  by_cases hlast : s.caretY + 1 ≥ s.charactersPerCol
  · rw [if_pos hlast]
    obtain ⟨k, hring⟩ := hi.ring
    obtain ⟨s', hrun, hshape, hring', hblank, hx, hy, hdirty⟩ :=
      scroll_spec (s := { s with caretY := s.caretY + 1, caretX := 0 }) (m := m) (k := k)
        ⟨hi.shape.width, hi.shape.height, hi.shape.size, hi.shape.line, hi.shape.col, hi.shape.lim⟩
        ⟨hring.row, hring.start, hring.chars, hring.blank⟩ (Nat.le_add_left 1 s.caretY)
          (by simp only; omega)
    refine ⟨s', hrun, ⟨hshape, ⟨_, hring'⟩, hdirty, ?_, ?_⟩, fun _ => hblank, fun hlt => ?_⟩
    · rw [hshape.line, hx]
      exact hline
    · rw [hshape.col, hy]
      simp only
      omega
    · omega
  · rw [if_neg hlast]
    obtain ⟨hinv, hstart⟩ := hf _ (hi.setCaret (x := 0) (y := s.caretY + 1) hline (by omega))
    exact ⟨_, rfl, hinv, fun hle => absurd hle hlast, fun _ => hstart⟩

lemma toChar_lt (c : ℕ) : toChar c < 128 := by
  unfold toChar
  split_ifs with h
  · exact_mod_cast h
  · have : (c % 256 : ℕ) < 256 := Nat.mod_lt _ (by decide)
    omega

lemma bind_of_ok {α β : Type} {e : Except Fault α} {f : α → Except Fault β} {a : α} (h : e = .ok a) :
    (e >>= f) = f a := by
  rw [h]
  rfl

lemma Inv.setCell (hi : Inv m s) (cell : Cell) (hx : x < m.width / 8) (hy : y < m.height / m.characterSize)
    (hc : cell.c < 128) :
    ∃ s', s.setCell (s.wrapOff (u32 (s.shadowStart + u32 (y * s.fbWidth) + x))) cell = .ok s' ∧ Inv m s' ∧
      s' = { s with fbShadow := Function.update s.fbShadow (s.cellOff y x) cell } := by
  obtain ⟨k, hring⟩ := hi.ring
  have hxw : x < m.width := lt_of_lt_of_le hx m.bounds.2.1
  have hyh : y < m.height := lt_of_lt_of_le hy m.bounds.2.2.2.1
  have hoff := cellOff_eq hi.shape hring hyh hxw
  have hword : s.wrapOff (u32 (s.shadowStart + u32 (y * s.fbWidth) + x)) = s.cellOff y x := by
    rw [hring.start, hi.shape.width, u32_offset hring.row hyh hxw,
      wrapOff_eq hi.shape hring.row hyh hxw, hoff]
  rw [hword]
  refine ⟨_, setCell_eq cell ?_, ?_, rfl⟩
  · rw [hoff]
    exact ringOff_lt hi.shape hring.row hyh hxw
  · refine ⟨⟨hi.shape.width, hi.shape.height, hi.shape.size, hi.shape.line, hi.shape.col, hi.shape.lim⟩,
      ⟨k, ?_⟩, ⟨hi.dirty.x, hi.dirty.line, hi.dirty.y, hi.dirty.col⟩, hi.caret⟩
    rw [hoff]
    exact hring.write hy hxw hc

/-- The character moves the caret to the next row. -/
def EndsRow (s : FB) (c : ℕ) : Prop := c = 10 ∨ s.caretX + 1 = s.charactersPerLine

/-- **A character** other than a backspace. -/
lemma Inv.putOther (hi : Inv m s) (c : ℕ) :
    ∃ s', s.putOther c = .ok s' ∧ Inv m s' ∧
      (s.EndsRow c → s.charactersPerCol ≤ s.caretY + 1 → s'.BottomBlank) ∧
      (s.EndsRow c → s.caretY + 1 < s.charactersPerCol → s'.shadowStart = s.shadowStart) ∧
      (¬ s.EndsRow c → s'.shadowStart = s.shadowStart ∧ s'.caretX = s.caretX + 1 ∧ s'.caretY =
        s.caretY) := by
  have hd := hi.updateDirtyRect
  by_cases hnl : c = 10
  · obtain ⟨s', hrun, hinv, hblank, hstart⟩ := hd.nextRow (f := id) fun s h => ⟨h, rfl⟩
    refine ⟨s', ?_, hinv, fun _ => hblank, fun _ => hstart, fun h => absurd (Or.inl hnl) h⟩
    rw [FB.putOther, if_pos hnl]
    exact hrun
  · obtain ⟨hcx, hcy⟩ := hi.caret
    have hline := hi.shape.line
    have hcol := hi.shape.col
    have hwlt := m.width_lt
    have hlw := m.bounds.2.1
    have hx₁ : u32 (s.caretX + 1) = s.caretX + 1 := u32_of_lt (by omega)
    obtain ⟨s₁, hset, hinv₁, hs₁⟩ := hd.setCell (x := s.caretX) (y := s.caretY) ⟨s.fg, s.bg, toChar c⟩
      (by omega) (by omega) (toChar_lt c)
    have hput : s.putOther c =
        (if u32 (s₁.caretX + 1) = s₁.charactersPerLine then
          (if u32 (s₁.caretY + 1) ≥ s₁.charactersPerCol then
            scroll 1 { s₁ with caretY := u32 (s₁.caretY + 1), caretX := 0 }
          else .ok ({ s₁ with caretY := u32 (s₁.caretY + 1), caretX := 0 } : FB).updateDirtyRect)
        else .ok ({ s₁ with caretX := u32 (s₁.caretX + 1) } : FB).updateDirtyRect) := by
      rw [FB.putOther, if_neg hnl]
      exact bind_of_ok hset
    have hcx₁ : s₁.caretX = s.caretX := by rw [hs₁]; rfl
    have hcy₁ : s₁.caretY = s.caretY := by rw [hs₁]; rfl
    have hline₁ : s₁.charactersPerLine = s.charactersPerLine := by rw [hs₁]; rfl
    have hcol₁ : s₁.charactersPerCol = s.charactersPerCol := by rw [hs₁]; rfl
    have hstart₁ : s₁.shadowStart = s.shadowStart := by rw [hs₁]; rfl
    rw [hput, hcx₁, hx₁]
    by_cases hwrap : s.caretX + 1 = s.charactersPerLine
    · rw [if_pos (hwrap.trans hline₁.symm)]
      obtain ⟨s', hrun, hinv, hblank, hstart⟩ := hinv₁.nextRow (f := FB.updateDirtyRect)
        fun s h => ⟨h.updateDirtyRect, rfl⟩
      rw [hcy₁, hcol₁] at hblank hstart
      rw [hstart₁] at hstart
      exact ⟨s', hrun, hinv, fun _ => hblank, fun _ => hstart, fun h => absurd (Or.inr hwrap) h⟩
    · rw [if_neg fun h => hwrap (h.trans hline₁)]
      refine ⟨_, rfl, (hinv₁.setCaret (x := s.caretX + 1) (y := s₁.caretY) (by omega)
        (by omega)).updateDirtyRect,
        ?_, ?_, fun _ => ⟨hstart₁, rfl, hcy₁⟩⟩
      · rintro (h | h)
        · exact absurd h hnl
        · exact absurd h hwrap
      · rintro (h | h)
        · exact absurd h hnl
        · exact absurd h hwrap

/-- **A backspace** that stays in its row. -/
lemma Inv.delchar (hi : Inv m s) (hstays : s.caretX = 0 → s.caretY = 0) :
    ∃ s', s.delchar = .ok s' ∧ Inv m s' ∧ s'.shadowStart = s.shadowStart := by
  by_cases hzero : s.caretX = 0
  · have hy := hstays hzero
    exact ⟨s, if_pos ⟨hzero, hy⟩, hi, rfl⟩
  · obtain ⟨hcx, hcy⟩ := hi.caret
    have hline := hi.shape.line
    have hcol := hi.shape.col
    have hwlt := m.width_lt
    have hlw := m.bounds.2.1
    have hsub : u32Sub s.caretX 1 = s.caretX - 1 := u32Sub_of_le (by omega) (by omega)
    have hback := hi.setCaret (x := s.caretX - 1) (y := s.caretY) (by omega) (by omega)
    obtain ⟨s₁, hrun, hinv, -, -, hsame⟩ := hback.putOther 32
    have hstay : ¬ ({ s with caretX := s.caretX - 1, caretY := s.caretY } : FB).EndsRow 32 := by
      rintro (h | h)
      · exact absurd h (by decide)
      · simp only at h
        omega
    obtain ⟨hstart, hx₁, hy₁⟩ := hsame hstay
    simp only at hx₁ hy₁
    have hsub₁ : u32Sub s₁.caretX 1 = s.caretX - 1 := by
      rw [hx₁, u32Sub_of_le (by omega) (by omega)]
      omega
    refine ⟨{ s₁ with caretX := s.caretX - 1 }, ?_, ?_, hstart⟩
    · rw [FB.delchar, if_neg fun h => hzero h.1, hsub]
      refine bind_eq_ok.mpr ⟨s₁, hrun, ?_⟩
      rw [hsub₁]
    · exact hinv.setCaret (x := s.caretX - 1) (y := s₁.caretY) (by omega) (by omega)

/-- What is shown after a character: a scroll shows a blank row, and nothing else moves the window. -/
structure Shows (m : VideoMode) (s : FB) (scrolls : Prop) (s' : FB) : Prop where
  inv : Inv m s'
  blank : scrolls → s'.BottomBlank
  start : ¬ scrolls → s'.shadowStart = s.shadowStart

lemma Inv.putchar (hi : Inv m s) {c d : ℕ} (hback : d = 8 ↔ (if c ≥ 255 then 0xDB else c) = 8)
    (hnl : d = 10 ↔ (if c ≥ 255 then 0xDB else c) = 10) (hstays : s.StaysInRow d) :
    ∃ s', s.putchar c = .ok s' ∧ Shows m s (s.ScrollsOn d) s' := by
  rw [FB.putchar]
  generalize (if c ≥ 255 then 0xDB else c) = c' at hback hnl
  show ∃ s', (if c' = 8 then s.delchar else s.putOther c') = .ok s' ∧ _
  by_cases h8 : c' = 8
  · rw [if_pos h8]
    have hd := hback.mpr h8
    obtain ⟨s', hrun, hinv, hstart⟩ := hi.delchar (hstays hd)
    exact ⟨s', hrun, hinv, fun h => absurd hd h.1, fun _ => hstart⟩
  · rw [if_neg h8]
    obtain ⟨s', hrun, hinv, hblank, hstart, hsame⟩ := hi.putOther c'
    have hd : d ≠ 8 := fun h => h8 (hback.mp h)
    have hends : s.EndsRow c' ↔ (d = 10 ∨ s.caretX + 1 = s.charactersPerLine) := by rw [FB.EndsRow, hnl]
    refine ⟨s', hrun, hinv, fun h => hblank (hends.mpr h.2.1) h.2.2, fun h => ?_⟩
    by_cases he : s.EndsRow c'
    · exact hstart he (not_le.mp fun hle => h ⟨hd, hends.mp he, hle⟩)
    · exact (hsame he).1

/-! ## Drawing -/

lemma forM_ok {α : Type} {f : α → Except Fault Unit} : ∀ {l : List α}, (∀ a ∈ l, f a = .ok ()) →
    l.forM f = .ok ()
  | [], _ => rfl
  | a :: l, h => by
      show (f a >>= fun _ => l.forM f) = .ok ()
      rw [bind_of_ok (h a (List.mem_cons_self ..))]
      exact forM_ok fun b hb => h b (List.mem_cons_of_mem a hb)

lemma readGlyph_ok {c : ℤ} (hnonneg : 0 ≤ c) (hlt : c < 128) : s.readGlyph c = .ok () := by
  refine forM_ok fun pxY hpxY => forM_ok fun b hb => if_pos ?_
  have hp := List.mem_range.mp hpxY
  have hk := List.mem_range.mp hb
  have hc₁ : 0 ≤ c * s.characterSize := mul_nonneg hnonneg (Int.natCast_nonneg _)
  have hc₂ : c * s.characterSize ≤ 127 * s.characterSize :=
    mul_le_mul_of_nonneg_right (by omega) (Int.natCast_nonneg _)
  constructor
  · omega
  · omega

/-- **What `flush` draws**, when each cell holds a character of the font. -/
lemma Inv.draw (hi : Inv m s)
    (hchars : ∀ y < s.dirtyEndY, ∀ x < s.dirtyEndX, s.dirtyStartY ≤ y → s.dirtyStartX ≤ x →
      0 ≤ (s.fbShadow (s.cellOff y x)).c) :
    s.draw = .ok () := by
  obtain ⟨k, hring⟩ := hi.ring
  obtain ⟨hdx, hdline, hdy, hdcol⟩ := hi.dirty
  obtain ⟨hline, hlw, hcol, hch, hfits⟩ := m.bounds
  obtain ⟨hh, hw, -⟩ := m.height_lt
  have hwlt := m.width_lt
  have hny : u32Sub s.dirtyEndY s.dirtyStartY = s.dirtyEndY - s.dirtyStartY :=
    u32Sub_of_le (by omega) (by omega)
  have hnx : u32Sub s.dirtyEndX s.dirtyStartX = s.dirtyEndX - s.dirtyStartX :=
    u32Sub_of_le (by omega) (by omega)
  rw [FB.draw, hny, hnx, hring.start, hi.shape.width]
  refine forM_ok fun y hy => forM_ok fun x hx => ?_
  have hyr := List.mem_range.mp hy
  have hxr := List.mem_range.mp hx
  have hrow : s.dirtyStartY + y < m.height := by omega
  have hcolx : s.dirtyStartX + x < m.width := by omega
  -- the row of the shadow buffer, and the cell in it
  have hoff : s.wrapOff (u32 (u32 (u32 (u32 (s.dirtyStartY * m.width) + k * m.width) + s.dirtyStartX) +
      u32 (y * m.width))) = ringRow m.height k (s.dirtyStartY + y) * m.width + s.dirtyStartX := by
    have h₁ := offset_lt (x := 0) hring.row hw
    have h₂ := offset_lt hrow (by omega : s.dirtyStartX < m.width)
    rw [Nat.add_mul] at h₂
    have hwords : u32 (u32 (u32 (u32 (s.dirtyStartY * m.width) + k * m.width) + s.dirtyStartX) +
        u32 (y * m.width)) = k * m.width + (s.dirtyStartY + y) * m.width + s.dirtyStartX := by
      rw [u32_of_lt (x := s.dirtyStartY * m.width) (by omega), u32_of_lt (x := y * m.width) (by omega),
        u32_of_lt (x := s.dirtyStartY * m.width + k * m.width) (by omega),
        u32_of_lt (x := s.dirtyStartY * m.width + k * m.width + s.dirtyStartX) (by omega),
          u32_of_lt (by omega),
        Nat.add_mul]
      omega
    rw [hwords]
    exact wrapOff_eq hi.shape hring.row hrow (by omega)
  have hcell : ringRow m.height k (s.dirtyStartY + y) * m.width + s.dirtyStartX + x =
      s.cellOff (s.dirtyStartY + y) (s.dirtyStartX + x) := by
    rw [cellOff_eq hi.shape hring hrow hcolx, Nat.add_assoc]
  have hlt := ringOff_lt hi.shape hring.row hrow hcolx
  have hlim := hi.shape.lim
  have hword : u32 (ringRow m.height k (s.dirtyStartY + y) * m.width + s.dirtyStartX + x) =
      s.cellOff (s.dirtyStartY + y) (s.dirtyStartX + x) := by
    rw [u32_of_lt (by omega), hcell]
  rw [hoff, hword]
  refine bind_eq_ok.mpr ⟨_, if_pos ?_, ?_⟩
  · rw [cellOff_eq hi.shape hring hrow hcolx]
    exact hlt
  · have hnonneg := hchars (s.dirtyStartY + y) (by omega) (s.dirtyStartX + x) (by omega) (by omega)
      (by omega)
    exact readGlyph_ok hnonneg (hring.chars _)

lemma Inv.resetDirtyRect (hi : Inv m s) : Inv m s.resetDirtyRect := by
  obtain ⟨hcx, hcy⟩ := hi.caret
  have hline := hi.shape.line
  have hcol := hi.shape.col
  have hbounds := m.bounds
  obtain ⟨hh, -, -⟩ := m.height_lt
  have hwlt := m.width_lt
  have hx₁ : u32 (s.caretX + 1) = s.caretX + 1 := u32_of_lt (by omega)
  have hy₁ : u32 (s.caretY + 1) = s.caretY + 1 := u32_of_lt (by omega)
  obtain ⟨k, hring⟩ := hi.ring
  rw [FB.resetDirtyRect, hx₁, hy₁]
  split_ifs with hend
  · refine ⟨⟨hi.shape.width, hi.shape.height, hi.shape.size, hi.shape.line, hi.shape.col, hi.shape.lim⟩,
      ⟨k, hring.row, hring.start, hring.chars, hring.blank⟩, ⟨?_, ?_, ?_, ?_⟩, hi.caret⟩
    · exact Nat.zero_lt_one
    · exact hbounds.1
    · exact Nat.lt_succ_self _
    · show s.caretY + 1 ≤ _
      omega
  · refine ⟨⟨hi.shape.width, hi.shape.height, hi.shape.size, hi.shape.line, hi.shape.col, hi.shape.lim⟩,
      ⟨k, hring.row, hring.start, hring.chars, hring.blank⟩, ⟨?_, ?_, ?_, ?_⟩, hi.caret⟩
    · exact Nat.lt_succ_self _
    · show s.caretX + 1 ≤ _
      omega
    · exact Nat.lt_succ_self _
    · show s.caretY + 1 ≤ _
      omega

lemma Inv.drawCursor (hi : Inv m s) (hdraw : s.Drawable) :
    ∃ s', s.drawCursor = .ok s' ∧ Inv m s' ∧
      s'.shadowStart = s.shadowStart ∧ s'.draw = .ok () := by
  obtain ⟨hcx, hcy⟩ := hi.caret
  rw [hi.shape.line] at hcx
  rw [hi.shape.col] at hcy
  cases hcursor : s.showCursor with
  | false =>
      refine ⟨s, by rw [FB.drawCursor, hcursor]; rfl, hi, rfl, hi.draw fun y hy₁ x hx₁ hy₂ hx₂ => ?_⟩
      rcases hdraw y hy₁ x hx₁ hy₂ hx₂ with ⟨hshown, -, -⟩ | hc
      · rw [hcursor] at hshown
        cases hshown
      · exact hc
  | true =>
      obtain ⟨s', hset, hinv, hs'⟩ := hi.setCell ⟨s.fg, s.bg, 95⟩ hcx hcy (by norm_num)
      have hoff : s'.cellOff = s.cellOff := by rw [hs']; rfl
      refine ⟨s', by rw [FB.drawCursor, hcursor]; exact hset, hinv, by rw [hs'],
        hinv.draw fun y hy₁ x hx₁ hy₂ hx₂ => ?_⟩
      rw [hoff]
      rw [hs'] at hy₁ hy₂ hx₁ hx₂ ⊢
      show 0 ≤ (Function.update s.fbShadow (s.cellOff s.caretY s.caretX) _ (s.cellOff y x)).c
      rw [Function.update_apply]
      split_ifs with heq
      · norm_num
      · rcases hdraw y hy₁ x hx₁ hy₂ hx₂ with ⟨-, rfl, rfl⟩ | hc
        · exact absurd rfl heq
        · exact hc

lemma Inv.flush (hi : Inv m s) (hdraw : s.lockFlush = false → s.Drawable) :
    ∃ s', s.flush = .ok s' ∧ Inv m s' ∧ s'.shadowStart = s.shadowStart := by
  cases hlock : s.lockFlush with
  | true => exact ⟨s, by rw [FB.flush, hlock]; rfl, hi, rfl⟩
  | false =>
      obtain ⟨s₁, hcursor, hinv₁, hstart₁, hdrawn⟩ := hi.drawCursor (hdraw hlock)
      obtain ⟨hcx, hcy⟩ := hinv₁.caret
      rw [hinv₁.shape.line] at hcx
      rw [hinv₁.shape.col] at hcy
      obtain ⟨s₂, herase, hinv₂, hs₂⟩ :=
        hinv₁.setCell (x := s₁.caretX) (y := s₁.caretY) ⟨s₁.fg, s₁.bg, 0⟩ hcx hcy (by norm_num)
      refine ⟨s₂.resetDirtyRect, ?_, hinv₂.resetDirtyRect, ?_⟩
      · rw [FB.flush, hlock, if_neg (by decide), bind_of_ok hcursor, bind_of_ok hdrawn]
        exact bind_of_ok herase
      · have hreset : s₂.resetDirtyRect.shadowStart = s₂.shadowStart := by
          rw [FB.resetDirtyRect]
          split_ifs
          · rfl
          · rfl
        rw [hreset, hs₂]
        exact hstart₁

/-! ## Runs -/

lemma Inv.flags (hi : Inv m s) (lock cursor : Bool) (fg bg : ℕ) :
    Inv m { s with lockFlush := lock, showCursor := cursor, fg := fg, bg := bg } := by
  obtain ⟨k, hring⟩ := hi.ring
  exact ⟨⟨hi.shape.width, hi.shape.height, hi.shape.size, hi.shape.line, hi.shape.col, hi.shape.lim⟩,
    ⟨k, hring.row, hring.start, hring.chars, hring.blank⟩,
    ⟨hi.dirty.x, hi.dirty.line, hi.dirty.y, hi.dirty.col⟩, hi.caret⟩

/-- **One operation.** -/
lemma Inv.step (hi : Inv m s) (hcareful : s.Careful op) :
    ∃ s', s.step op = .ok s' ∧ Shows m s (s.Scrolls op) s' := by
  cases op with
  | putchar c =>
      refine hi.putchar (d := c) ?_ ?_ hcareful
      · split_ifs with h
        · omega
        · rfl
      · split_ifs with h
        · omega
        · rfl
  | write b =>
      obtain ⟨s', hrun, hshows⟩ := hi.putchar (c := if b.toNat < 128 then b.toNat else b.toNat + 0xFF00)
        (d := b.toNat) (by split_ifs <;> omega) (by split_ifs <;> omega) hcareful
      exact ⟨s', bind_eq_ok.mpr ⟨s', hrun, rfl⟩, hshows⟩
  | flush =>
      obtain ⟨s', hrun, hinv, hstart⟩ := hi.flush hcareful
      exact ⟨s', hrun, hinv, fun h => h.elim, fun _ => hstart⟩
  | lockFlushing => exact ⟨_, rfl, hi.flags true s.showCursor s.fg s.bg, fun h => h.elim, fun _ => rfl⟩
  | unlockFlushing =>
      obtain ⟨s', hrun, hinv, hstart⟩ := (hi.flags false s.showCursor s.fg s.bg).flush fun _ => hcareful
      exact ⟨s', hrun, hinv, fun h => h.elim, fun _ => hstart⟩
  | showCursor b => exact ⟨_, rfl, hi.flags s.lockFlush b s.fg s.bg, fun h => h.elim, fun _ => rfl⟩
  | setFg fg => exact ⟨_, rfl, hi.flags s.lockFlush s.showCursor fg s.bg, fun h => h.elim, fun _ => rfl⟩
  | setBg bg => exact ⟨_, rfl, hi.flags s.lockFlush s.showCursor s.fg bg, fun h => h.elim, fun _ => rfl⟩

lemma Inv.init (m : VideoMode) : Inv m (FB.init m) := by
  obtain ⟨hline, hlw, hcol, hch, hfits⟩ := m.bounds
  obtain ⟨hh, hw, hhpos⟩ := m.height_lt
  refine ⟨⟨rfl, rfl, rfl, rfl, rfl, Nat.mul_comm ..⟩,
    ⟨0, hhpos, (Nat.zero_mul _).symm, fun i => ?_, fun r hr hrh x hx => ?_⟩,
    ⟨hline, le_rfl, hcol, le_rfl⟩, hline, hcol⟩
  · simp only [FB.init, clearScreen]
    split_ifs
    · norm_num
    · norm_num
  · simp only [cellAt, FB.init, clearScreen]
    split_ifs
    · rfl
    · rfl

/-- **In every run of careful operations** no index leaves its array, the caret stays on the screen, and a
scroll brings in a blank row. -/
theorem console_right (m : VideoMode) (ops : List Op)
    (hcareful : EachCall FB.step Careful ops (FB.init m)) :
    EachCall FB.step (fun s op => ∃ s', s.step op = .ok s' ∧ s'.CaretInside ∧
      (s.Scrolls op → s'.BottomBlank) ∧
      (¬ s.Scrolls op → s'.shadowStart = s.shadowStart)) ops (FB.init m) := by
  refine hcareful.imp_of_invariant (Q := Inv m) ?_ ?_ (Inv.init m)
  · intro s op hi hc
    obtain ⟨s', hrun, hshows⟩ := hi.step hc
    exact ⟨s', hrun, hshows.inv.caret, hshows.blank, hshows.start⟩
  · intro s op s' hi hc hrun
    obtain ⟨s'', hrun', hshows⟩ := hi.step hc
    rw [hrun] at hrun'
    cases hrun'
    exact hshows.inv

end Ring

/-- Two rows of two columns. -/
def smallMode : VideoMode where
  width := 16
  height := 2
  characterSize := 1
  wide := by decide
  tall := by decide
  glyphs := by decide
  fits := by decide

theorem console_right_scrolled :
    EachCall FB.step (fun s op => ∃ s', s.step op = .ok s' ∧ s'.CaretInside ∧
      (s.Scrolls op → s'.BottomBlank) ∧
        (¬ s.Scrolls op → s'.shadowStart = s.shadowStart))
      [.write 97, .write 8, .showCursor true, .flush, .write 10, .write 98, .write 99, .flush]
        (FB.init smallMode) :=
  console_right smallMode _ (by decide +kernel)

/-- A backspace in the first column of the second row, and a character that is not ASCII. -/
theorem console_goes_wrong :
    (∃ s, [Op.write 10, .write 8].foldlM FB.step (FB.init smallMode) = .ok s ∧ s.caretX = 0xFFFFFFFF ∧
        ¬ s.CaretInside) ∧
      [Op.write 0x80, .flush].foldlM FB.step (FB.init smallMode) = .error .outOfBounds := by
  refine ⟨⟨_, rfl, rfl, ?_⟩, rfl⟩
  rintro ⟨hx, -⟩
  exact absurd hx (by decide)

end BrebOS.FB
