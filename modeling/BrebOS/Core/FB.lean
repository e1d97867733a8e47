import BrebOS.Core.Defs
import BrebOS.Lib.Loop

/-!
# `FB`: the console

`core/fb.cpp`.  The characters on the screen are kept in `fb_shadow`, a ring of `fb_height` rows of
`fb_width` cells, of which the screen shows `characters_per_col` rows and `characters_per_line` columns,
from `shadow_start` on.  Positions are `uint`s.  Reading or writing outside `fb_shadow`, or reading
outside the rasterised font, is a `Fault.outOfBounds`.

What `flush` writes to the frame buffer is left out, as is the progress bar.
-/

namespace BrebOS

/-- `FB::cell`; the character is a `char`, which is signed. -/
structure Cell where
  fb : ℕ
  bg : ℕ
  c : ℤ
  deriving DecidableEq, Repr

/-- The members of `FB`. -/
structure FB where
  caretX : ℕ := 0
  caretY : ℕ := 0
  fg : ℕ := 0xFFFFFF
  bg : ℕ := 0
  fbWidth : ℕ
  fbHeight : ℕ
  /-- `font->characterSize` -/
  characterSize : ℕ
  charactersPerLine : ℕ
  charactersPerCol : ℕ
  dirtyStartY : ℕ := 0
  dirtyStartX : ℕ := 0
  dirtyEndY : ℕ := 0
  dirtyEndX : ℕ := 0
  fbShadow : ℕ → Cell := fun _ => ⟨0, 0, 0⟩
  shadowLim : ℕ
  shadowStart : ℕ := 0
  lockFlush : Bool := false
  showCursor : Bool := false

namespace FB

/-- `fb_shadow[i] = cell`. -/
def setCell (i : ℕ) (cell : Cell) (s : FB) : Except Fault FB :=
  if i < s.shadowLim then .ok { s with fbShadow := Function.update s.fbShadow i cell }
  else .error .outOfBounds

/-- `fb_shadow[i]`. -/
def getCell (i : ℕ) (s : FB) : Except Fault Cell :=
  if i < s.shadowLim then .ok (s.fbShadow i) else .error .outOfBounds

/-- `fb_shadow[i].c = c`. -/
def setChar (i : ℕ) (c : ℤ) (s : FB) : Except Fault FB := do
  let cell ← s.getCell i
  s.setCell i { cell with c }

/-- An offset that has passed the end of the ring. -/
def wrapOff (off : ℕ) (s : FB) : ℕ := if off ≥ s.shadowLim then u32Sub off s.shadowLim else off

/-- `FB::scroll`. -/
def scroll (n : ℕ) (s : FB) : Except Fault FB := do
  let start := u32 (s.shadowStart + u32 (n * s.fbWidth)) % s.shadowLim
  let s := { s with shadowStart := if start ≥ s.shadowLim then s.shadowLim else start }
  let base := u32 (s.shadowStart + u32 (u32Sub s.fbHeight n * s.fbWidth))
  let s ← (List.range n).foldlM (fun s y =>
    let off := s.wrapOff (u32 (base + u32 (y * s.fbWidth)))
    (List.range s.fbWidth).foldlM (fun s x => s.setChar (off + x) 0) s) s
  .ok { s with
    caretY := u32Sub s.caretY n
    dirtyStartY := 0, dirtyStartX := 0
    dirtyEndY := s.charactersPerCol, dirtyEndX := s.charactersPerLine }

/-- `FB::update_dirty_rect`. -/
def updateDirtyRect (s : FB) : FB :=
  { s with
    dirtyStartY := if s.caretY < s.dirtyStartY then s.caretY else s.dirtyStartY
    dirtyEndY := if u32 (s.caretY + 1) > s.dirtyEndY then u32 (s.caretY + 1) else s.dirtyEndY
    dirtyStartX := if s.caretX < s.dirtyStartX then s.caretX else s.dirtyStartX
    dirtyEndX := if u32 (s.caretX + 1) > s.dirtyEndX then u32 (s.caretX + 1) else s.dirtyEndX }

/-- `(char)(c & 0xFF)`. -/
def toChar (c : ℕ) : ℤ := if c % 256 < 128 then c % 256 else (c % 256 : ℕ) - 256

/-- `putchar` of what is not a backspace. -/
def putOther (c : ℕ) (s : FB) : Except Fault FB :=
  if c = 10 then
    let s := s.updateDirtyRect
    let s := { s with caretY := u32 (s.caretY + 1), caretX := 0 }
    if s.caretY ≥ s.charactersPerCol then s.scroll 1 else .ok s
  else do
    let s := s.updateDirtyRect
    let s ← s.setCell (s.wrapOff (u32 (s.shadowStart + u32 (s.caretY * s.fbWidth) + s.caretX)))
      ⟨s.fg, s.bg, toChar c⟩
    let s := { s with caretX := u32 (s.caretX + 1) }
    if s.caretX = s.charactersPerLine then
      let s := { s with caretY := u32 (s.caretY + 1), caretX := 0 }
      if s.caretY ≥ s.charactersPerCol then s.scroll 1 else .ok s.updateDirtyRect
    else .ok s.updateDirtyRect

/-- `FB::delchar`. -/
def delchar (s : FB) : Except Fault FB :=
  if s.caretX = 0 ∧ s.caretY = 0 then .ok s
  else do
    let s ← { s with caretX := u32Sub s.caretX 1 }.putOther 32
    .ok { s with caretX := u32Sub s.caretX 1 }

/-- `FB::putchar`, of an `unsigned short`. -/
def putchar (c : ℕ) (s : FB) : Except Fault FB :=
  let c := if c ≥ 255 then 0xDB else c
  if c = 8 then s.delchar else s.putOther c

/-- `FB::write`: each `char` of the buffer is turned into an `unsigned short`. -/
def write (buf : List UInt8) (s : FB) : Except Fault FB :=
  buf.foldlM (fun s b => s.putchar (if b.toNat < 128 then b.toNat else b.toNat + 0xFF00)) s

/-- The reads of a glyph: `r_font[c * characterSize * 8 + px_y * 8 + k]`, of 255 glyphs. -/
def readGlyph (c : ℤ) (s : FB) : Except Fault Unit :=
  (List.range s.characterSize).forM fun pxY => (List.range 8).forM fun k =>
    let i := c * s.characterSize * 8 + pxY * 8 + k
    if 0 ≤ i ∧ i < 255 * s.characterSize * 8 then .ok () else .error .outOfBounds

/-- The loops of `flush` over the dirty rectangle. -/
def draw (s : FB) : Except Fault Unit :=
  let shadowYOff := u32 (u32 (s.dirtyStartY * s.fbWidth) + s.shadowStart)
  let shadowOff := u32 (shadowYOff + s.dirtyStartX)
  (List.range (u32Sub s.dirtyEndY s.dirtyStartY)).forM fun y =>
    let off := s.wrapOff (u32 (shadowOff + u32 (y * s.fbWidth)))
    (List.range (u32Sub s.dirtyEndX s.dirtyStartX)).forM fun x => do
      let cell ← s.getCell (u32 (off + x))
      s.readGlyph cell.c

/-- The end of `flush`. -/
def resetDirtyRect (s : FB) : FB :=
  let s := { s with
    dirtyStartX := s.caretX, dirtyStartY := s.caretY
    dirtyEndY := u32 (s.caretY + 1), dirtyEndX := u32 (s.caretX + 1) }
  if s.dirtyEndX = s.charactersPerLine then { s with dirtyStartX := 0, dirtyEndX := 1 } else s

/-- `cursor_shadow_off`. -/
def cursorShadowOff (s : FB) : ℕ :=
  s.wrapOff (u32 (s.shadowStart + u32 (s.caretY * s.fbWidth) + s.caretX))

/-- `flush` draws the cursor. -/
def drawCursor (s : FB) : Except Fault FB :=
  if s.showCursor then s.setCell s.cursorShadowOff ⟨s.fg, s.bg, 95⟩ else .ok s

/-- `FB::flush`. -/
def flush (s : FB) : Except Fault FB :=
  if s.lockFlush then .ok s
  else do
    let s ← s.drawCursor
    s.draw
    let s ← s.setCell s.cursorShadowOff ⟨s.fg, s.bg, 0⟩
    .ok s.resetDirtyRect

/-- `FB::clear_screen`, of a screen whose cells are all in `fb_shadow`. -/
def clearScreen (s : FB) : FB :=
  { s with
    fbShadow := fun i => if i < s.fbWidth * s.fbHeight then ⟨s.fg, s.bg, 0⟩ else s.fbShadow i
    caretX := 0, caretY := 0, dirtyStartX := 0, dirtyStartY := 0
    dirtyEndX := s.charactersPerLine, dirtyEndY := s.charactersPerCol }

/-- A graphics mode and a font that fit: at least one glyph on the screen, and `fb_shadow`, of 12 bytes a
cell, in memory. -/
structure VideoMode where
  width : ℕ
  height : ℕ
  characterSize : ℕ
  wide : 8 ≤ width
  tall : characterSize ≤ height
  glyphs : 0 < characterSize
  fits : 12 * (width * height) < 4294967296

/-- `FB::init`. -/
def init (m : VideoMode) : FB :=
  clearScreen
    { fbWidth := m.width, fbHeight := m.height, characterSize := m.characterSize
      charactersPerLine := m.width / 8, charactersPerCol := m.height / m.characterSize
      shadowLim := m.width * m.height }

/-- What happens to the console: characters, one at a time, and the refresh loop. -/
inductive Op
  /-- `putchar` of an `unsigned short` -/
  | putchar (c : ℕ)
  /-- one byte of `write` -/
  | write (b : UInt8)
  | flush
  | lockFlushing
  | unlockFlushing
  /-- the refresh loop shows or hides the cursor -/
  | showCursor (b : Bool)
  | setFg (fg : ℕ)
  | setBg (bg : ℕ)

def step (s : FB) : Op → Except Fault FB
  | .putchar c => s.putchar c
  | .write b => s.write [b]
  | .flush => s.flush
  | .lockFlushing => .ok { s with lockFlush := true }
  | .unlockFlushing => { s with lockFlush := false }.flush
  | .showCursor b => .ok { s with showCursor := b }
  | .setFg fg => .ok { s with fg }
  | .setBg bg => .ok { s with bg }

end FB

end BrebOS
