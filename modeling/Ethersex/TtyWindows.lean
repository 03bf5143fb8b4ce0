import Ethersex.GuardedRuns
import Ethersex.ByteMemory

/-!
# Windows on a text screen

`core/tty/tty.c` prints into windows that share one image of the screen.  A window is scrolled by
printing its rows again, and printing scrolls: the two functions call each other.  What they call
in the end is a parameter of the functions in between, and `waddch` closes the circle with a bound
on its depth.  The drivers behind the image are left out.
-/

namespace Ethersex.Tty

open ByteMemory

/-- `LINES` and `COLS`. -/
structure Config where
  lines : Nat
  cols : Nat

/-- `WINDOW`. -/
structure Window where
  subwin : Bool
  linewrap : Bool
  scrollok : Bool
  leaveok : Bool
  y : UInt8
  x : UInt8
  maxy : UInt8
  maxx : UInt8
  begy : UInt8
  begx : UInt8
  deriving DecidableEq

/-- A window, the image of the screen, and the position of the low level. -/
structure Screen where
  win : Window
  image : Memory
  llY : UInt8
  llX : UInt8

def newline : UInt8 := 10
def carriageReturn : UInt8 := 13
def blank : UInt8 := 32

/-- `map`: the place of a cell in the image. -/
def cell (config : Config) (win : Window) (y x : Nat) : Nat :=
  (y + win.begy.toNat) * config.cols + (x + win.begx.toNat)

def ttyLlGoto (screen : Screen) (y x : UInt8) : Screen := { screen with llY := y, llX := x }

/-- `tty_ll_put` moves the position behind the character. -/
def ttyLlPut (screen : Screen) (y x : UInt8) : Screen :=
  let screen := ttyLlGoto screen y x
  { screen with llX := screen.llX + 1 }

/-- `if (!win->leaveok) tty_ll_goto (y, x);` -/
def Screen.follow (screen : Screen) (y x : UInt8) : Screen :=
  if !screen.win.leaveok then ttyLlGoto screen y x else screen

def Window.at (win : Window) (cursor : UInt8 × UInt8) : Window :=
  { win with y := cursor.1, x := cursor.2 }

@[simp]
theorem Window.y_at (win : Window) (cursor : UInt8 × UInt8) : (win.at cursor).y = cursor.1 := rfl

@[simp]
theorem Window.x_at (win : Window) (cursor : UInt8 × UInt8) : (win.at cursor).x = cursor.2 := rfl

@[simp]
theorem Window.maxx_at (win : Window) (cursor : UInt8 × UInt8) :
    (win.at cursor).maxx = win.maxx := rfl

@[simp]
theorem Window.maxy_at (win : Window) (cursor : UInt8 × UInt8) :
    (win.at cursor).maxy = win.maxy := rfl

def wmove (screen : Screen) (y x : UInt8) : Screen :=
  if screen.win.maxy < y ∨ screen.win.maxx < x then screen
  else
    { screen with win := screen.win.at (y, x) }.follow (y + screen.win.begy) (x + screen.win.begx)

/-- `for (uint8_t i = start; i <= bound; i ++)`, which does not end behind 255. -/
def forUpTo (bound : Screen → Nat) (body : UInt8 → Screen → Option Screen) :
    Nat → UInt8 → Screen → Option Screen
  | 0, _, _ => none
  | fuel + 1, i, screen =>
      if i.toNat ≤ bound screen then (body i screen).bind (forUpTo bound body fuel (i + 1))
      else some screen

section Printing

variable (config : Config) (waddch : Screen → UInt8 → Option Screen)

/-- `while (i --) waddch (win, ' ');` -/
def putBlanks : Nat → Screen → Option Screen
  | 0, screen => some screen
  | i + 1, screen => (waddch screen blank).bind (putBlanks i)

def wspacetoeol (screen : Screen) : Option Screen :=
  putBlanks waddch (screen.win.maxx - screen.win.x + 1).toNat screen

def wclrtoeol (screen : Screen) : Option Screen :=
  (wspacetoeol waddch screen).map fun cleared => wmove cleared screen.win.y screen.win.x

/-- The loop of `wclrtobot` over the rows below. -/
def clearRows (y : UInt8) (screen : Screen) : Option Screen :=
  forUpTo (fun screen => screen.win.maxy.toNat)
    (fun y screen => wspacetoeol waddch (wmove screen y 0)) 256 y screen

def wclrtobot (screen : Screen) : Option Screen :=
  (wspacetoeol waddch screen).bind fun cleared =>
    (clearRows waddch (screen.win.y + 1) cleared).map fun cleared =>
      wmove cleared screen.win.y screen.win.x

def wclear (screen : Screen) : Option Screen :=
  if !screen.win.subwin then
    some { screen with
      win := screen.win.at (0, 0)
      image := fillBlock screen.image 0 (config.lines * config.cols) blank }
  else
    wclrtobot waddch (wmove screen 0 0)

/-- The inner loop of `wscroll`: a row is printed again. -/
def copyRow (lines y : UInt8) (screen : Screen) : Option Screen :=
  forUpTo (fun screen => screen.win.maxx.toNat)
    (fun _ screen =>
      waddch screen
        (screen.image (cell config screen.win (y.toNat + lines.toNat) screen.win.x.toNat)))
    256 0 screen

def copyRows (lines : UInt8) (screen : Screen) : Option Screen :=
  forUpTo (fun screen => screen.win.maxy.toNat - lines.toNat)
    (fun y screen => copyRow config waddch lines y (wmove screen y 0)) 256 0 screen

def wscroll (screen : Screen) (lines : UInt8) : Option Screen :=
  if screen.win.maxy < lines then wclear config waddch screen
  else
    (copyRows config waddch lines screen).bind fun copied =>
      wclrtobot waddch (wmove copied (copied.win.maxy - lines + 1) 0)

end Printing

/-- The last part of `waddch`: a character is put into the image. -/
def emit (config : Config) (screen : Screen) (ch : UInt8) : Screen :=
  let win := screen.win
  if ch = newline then
    { screen with win := win.at (win.y + 1, 0) }.follow (win.y + 1 + win.begy) win.begx
  else if ch = carriageReturn then
    { screen with win := win.at (win.y, 0) }.follow (win.y + win.begy) win.begx
  else
    let place := cell config win win.y.toNat win.x.toNat
    let screen :=
      if screen.image place ≠ ch then
        ttyLlPut { screen with image := Function.update screen.image place ch }
          (win.y + win.begy) (win.x + win.begx)
      else screen
    if win.x = win.maxx then
      let cursor := if win.linewrap then (win.y + 1, 0) else (win.y, win.x)
      { screen with win := win.at cursor }.follow (cursor.1 + win.begy) win.begx
    else
      { screen with win := win.at (win.y, win.x + 1) }

/-- `waddch`, which is entered again at most so many times. -/
def waddch (config : Config) : Nat → Screen → UInt8 → Option Screen
  | 0, _, _ => none
  | depth + 1, screen, ch =>
      if screen.win.maxy < screen.win.y then
        if !screen.win.scrollok then some screen
        else
          (wscroll config (waddch config depth) screen (screen.win.y - screen.win.maxy)).map
            fun scrolled => emit config scrolled ch
      else
        some (emit config screen ch)

/-- `waddstr`.  A string is the list of the characters in front of its end. -/
def waddstr (config : Config) (depth : Nat) : List UInt8 → Screen → Option Screen
  | [], screen => some screen
  | ch :: text, screen => (waddch config depth screen ch).bind (waddstr config depth text)

/-- A call for a window, or its owner sets the flags. -/
inductive Call where
  | waddch (ch : UInt8)
  | waddstr (text : List UInt8)
  | wmove (y x : UInt8)
  | wclrtoeol
  | wclrtobot
  | wclear
  | wscroll (lines : UInt8)
  | setFlags (linewrap scrollok leaveok : Bool)

def callWindow (config : Config) (depth : Nat) (screen : Screen) : Call → Option Screen
  | .waddch ch => waddch config depth screen ch
  | .waddstr text => waddstr config depth text screen
  | .wmove y x => some (wmove screen y x)
  | .wclrtoeol => wclrtoeol (waddch config depth) screen
  | .wclrtobot => wclrtobot (waddch config depth) screen
  | .wclear => wclear config (waddch config depth) screen
  | .wscroll lines => wscroll config (waddch config depth) screen lines
  | .setFlags linewrap scrollok leaveok =>
      some { screen with win := { screen.win with linewrap, scrollok, leaveok } }

/-- The windows of a program and the screen they share. -/
structure Terminal (ι : Type*) where
  windows : ι → Window
  image : Memory
  llY : UInt8
  llX : UInt8

def Terminal.screen {ι : Type*} (terminal : Terminal ι) (window : ι) : Screen :=
  ⟨terminal.windows window, terminal.image, terminal.llY, terminal.llX⟩

def step {ι : Type*} [DecidableEq ι] (config : Config) (depth : Nat) (terminal : Terminal ι)
    (event : ι × Call) : Option (Terminal ι) :=
  (callWindow config depth (terminal.screen event.1) event.2).map fun screen =>
    { windows := Function.update terminal.windows event.1 screen.win
      image := screen.image
      llY := screen.llY
      llX := screen.llX }

/-- New windows on a screen that nothing has been printed on. -/
def newTerminal {ι : Type*} (windows : ι → Window) : Terminal ι where
  windows := fun window => (windows window).at (0, 0)
  image := fun _ => 0
  llY := 0
  llX := 0

end Ethersex.Tty
