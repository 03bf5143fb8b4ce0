import Ethersex.TtyScrolling

/-!
# Calls for windows

Every function of `core/tty/tty.c` that is given a sound window ends, changes nothing but the
window's part of the screen, and leaves the window sound: its cursor is inside of the window, or in
front of the row below.
-/

namespace Ethersex.Tty

open ByteMemory GuardedRuns

structure Sound (config : Config) (screen : Screen) : Prop where
  inside : Inside config screen.win
  left : screen.win.x ≤ screen.win.maxx
  below : screen.win.y.toNat ≤ screen.win.maxy.toNat + 1
  plain : ∀ index, Plain (screen.image index)

/-- A window without its cursor and the flags that its owner may set. -/
def Window.fixed (win : Window) : Window :=
  { win with y := 0, x := 0, linewrap := false, scrollok := false, leaveok := false }

/-- The window has stayed where it is, and its part of the screen is all that has changed. -/
structure Keeps (config : Config) (screen next : Screen) : Prop where
  fixed : next.win.fixed = screen.win.fixed
  framed : ∀ index, ¬Owns config screen.win index → next.image index = screen.image index
  sound : Sound config next

/-- A character may be printed on every sound window. -/
def Puts (config : Config) (waddch : Screen → UInt8 → Option Screen) : Prop :=
  ∀ screen ch, Sound config screen → ∃ next, waddch screen ch = some next ∧ Keeps config screen next

section Keeping

variable {config : Config} {screen middle next : Screen} {waddch : Screen → UInt8 → Option Screen}
  {cursor : UInt8 × UInt8} {painting : Nat → Nat → UInt8}

theorem Keeps.refl (sound : Sound config screen) : Keeps config screen screen :=
  ⟨rfl, fun _ _ => rfl, sound⟩

theorem owns_fixed (config : Config) (win : Window) :
    Owns config win.fixed = Owns config win := rfl

theorem Keeps.trans (first : Keeps config screen middle) (second : Keeps config middle next) :
    Keeps config screen next := by
  refine ⟨second.fixed.trans first.fixed, fun index outside => ?_, second.sound⟩
  have outside' : ¬Owns config middle.win index := by
    rwa [← owns_fixed, first.fixed, owns_fixed]
  exact (second.framed index outside').trans (first.framed index outside)

theorem Keeps.maxx (keeps : Keeps config screen next) : next.win.maxx = screen.win.maxx := by
  have same := congrArg Window.maxx keeps.fixed
  exact same

theorem Keeps.maxy (keeps : Keeps config screen next) : next.win.maxy = screen.win.maxy := by
  have same := congrArg Window.maxy keeps.fixed
  exact same

/-- A painting keeps the window sound, with a cursor in its bounds. -/
theorem Repaints.keeps (repaints : Repaints config screen cursor painting next)
    (sound : Sound config screen) (below : cursor.1.toNat ≤ screen.win.maxy.toNat + 1)
    (left : cursor.2 ≤ screen.win.maxx) : Keeps config screen next := by
  refine ⟨?_, repaints.framed, ⟨sound.inside.moved repaints.win, ?_, ?_,
    repaints.plain sound.plain⟩⟩
  · rw [repaints.win]
    rfl
  · rw [repaints.win]
    exact left
  · rw [repaints.win]
    exact below

theorem keeps_wmove (sound : Sound config screen) (y x : UInt8) :
    Keeps config screen (wmove screen y x) := by
  by_cases outside : screen.win.maxy < y ∨ screen.win.maxx < x
  · rw [wmove, if_pos outside]
    exact Keeps.refl sound
  · obtain ⟨below, left⟩ := not_or.mp outside
    have order := UInt8.le_iff_toNat_le.mp (UInt8.not_lt.mp below)
    exact (repaints_wmove (UInt8.not_lt.mp below) (UInt8.not_lt.mp left)).keeps sound
      (Nat.le_succ_of_le order) (UInt8.not_lt.mp left)

theorem columnEnd_bounds {win : Window} {y : UInt8} (inside : Inside config win)
    (below : y ≤ win.maxy) (column : Nat) :
    (columnEnd win y column).1.toNat ≤ win.maxy.toNat + 1 ∧
      (columnEnd win y column).2 ≤ win.maxx := by
  have order := UInt8.le_iff_toNat_le.mp below
  have small := inside.maxx
  rw [columnEnd]
  split_ifs with left wraps
  · refine ⟨Nat.le_succ_of_le order, ?_⟩
    rw [UInt8.le_iff_toNat_le, UInt8.toNat_ofNat']
    omega
  · refine ⟨?_, UInt8.zero_le⟩
    rw [UInt8.toNat_add, show (1 : UInt8).toNat = 1 from rfl]
    omega
  · exact ⟨Nat.le_succ_of_le order, UInt8.le_refl _⟩

/-- A character inside of the window, also a newline, which may leave it. -/
theorem keeps_emit (sound : Sound config screen) (below : screen.win.y ≤ screen.win.maxy)
    (ch : UInt8) : Keeps config screen (emit config screen ch) := by
  have order := UInt8.le_iff_toNat_le.mp below
  have moved (y : UInt8) (row : y.toNat ≤ screen.win.maxy.toNat + 1) (llY llX : UInt8) :
      Keeps config screen ({ screen with win := screen.win.at (y, 0) }.follow llY llX) := by
    have stays : Repaints config screen (y, 0) (picture config screen)
        ({ screen with win := screen.win.at (y, 0) }.follow llY llX) := by
      refine ⟨win_follow _ _ _, fun _ _ _ _ => ?_, fun _ _ => ?_, fun plain => ?_⟩
      · rw [image_follow]
        rfl
      · rw [image_follow]
      · rw [image_follow]
        exact plain
    exact stays.keeps sound row UInt8.zero_le
  by_cases isNewline : ch = newline
  · rw [emit, if_pos isNewline]
    apply moved
    rw [UInt8.toNat_add, show (1 : UInt8).toNat = 1 from rfl]
    have small := sound.inside.maxy
    omega
  · by_cases isReturn : ch = carriageReturn
    · rw [emit, if_neg isNewline, if_pos isReturn]
      exact moved _ (Nat.le_succ_of_le order) _ _
    · have bounds := columnEnd_bounds sound.inside below (screen.win.x.toNat + 1)
      exact (repaints_emit sound.inside ⟨isNewline, isReturn⟩ below sound.left).keeps sound
        bounds.1 bounds.2

/-- Scrolling by one row brings the cursor into the window. -/
theorem wscroll_one (prints : PrintsInside config waddch) (sound : Sound config screen) :
    ∃ next cursor painting, wscroll config waddch screen 1 = some next ∧
      Repaints config screen cursor painting next ∧ cursor.1 ≤ screen.win.maxy ∧
      cursor.2 ≤ screen.win.maxx := by
  by_cases single : screen.win.maxy < 1
  · obtain ⟨next, clears, repaints⟩ := wclear_eq prints sound.inside
    exact ⟨next, (0, 0), _, (if_pos single).trans clears, repaints, UInt8.zero_le, UInt8.zero_le⟩
  · have some_ : 1 ≤ screen.win.maxy.toNat :=
      UInt8.le_iff_toNat_le.mp (UInt8.not_lt.mp single)
    obtain ⟨next, scrolls, repaints⟩ := wscroll_eq prints sound.inside sound.plain
      (by decide : 0 < (1 : UInt8).toNat) some_
    rw [UInt8.sub_add_cancel] at repaints
    exact ⟨next, _, _, scrolls, repaints, UInt8.le_refl _, UInt8.zero_le⟩

theorem puts_waddch (config : Config) (depth : Nat) :
    Puts config (Tty.waddch config (depth + 2)) := by
  intro screen ch sound
  rw [Tty.waddch]
  split_ifs with behind fixed
  · exact ⟨screen, rfl, Keeps.refl sound⟩
  · have one : screen.win.y - screen.win.maxy = 1 := by
      have order := UInt8.lt_iff_toNat_lt.mp behind
      have bound := sound.below
      rw [← UInt8.toNat_inj, UInt8.toNat_sub_of_le _ _ (UInt8.le_of_lt behind),
        show (1 : UInt8).toNat = 1 from rfl]
      omega
    obtain ⟨scrolled, cursor, painting, scrolls, repaints, below, left⟩ :=
      wscroll_one (printsInside_waddch config depth) sound
    have kept := repaints.keeps sound
      (Nat.le_succ_of_le (UInt8.le_iff_toNat_le.mp below)) left
    refine ⟨emit config scrolled ch, ?_, kept.trans (keeps_emit kept.sound ?_ ch)⟩
    · rw [one, scrolls]
      rfl
    · rw [repaints.win]
      exact below
  · exact ⟨_, rfl, keeps_emit sound (UInt8.not_lt.mp behind) ch⟩

theorem keeps_putBlanks (puts : Puts config waddch) (sound : Sound config screen) (count : Nat) :
    ∃ next, putBlanks waddch count screen = some next ∧ Keeps config screen next := by
  have turn (i : Nat) (before : Screen) (_ : i < count) (kept : Keeps config screen before) :
      ∃ next, waddch before blank = some next ∧ Keeps config screen next := by
    obtain ⟨next, printed, keeps⟩ := puts before blank kept.sound
    exact ⟨next, printed, kept.trans keeps⟩
  exact putBlanks_rule turn (Nat.zero_add count) (Keeps.refl sound)

theorem keeps_wclrtoeol (puts : Puts config waddch) (sound : Sound config screen) :
    ∃ next, wclrtoeol waddch screen = some next ∧ Keeps config screen next := by
  obtain ⟨next, printed, keeps⟩ := keeps_putBlanks puts sound
    (screen.win.maxx - screen.win.x + 1).toNat
  refine ⟨wmove next screen.win.y screen.win.x, ?_, keeps.trans (keeps_wmove keeps.sound _ _)⟩
  rw [wclrtoeol, wspacetoeol, printed]
  rfl

theorem keeps_wclrtobot (puts : Puts config waddch) (sound : Sound config screen) :
    ∃ next, wclrtobot waddch screen = some next ∧ Keeps config screen next := by
  obtain ⟨cleared, first, keeps⟩ := keeps_putBlanks puts sound
    (screen.win.maxx - screen.win.x + 1).toNat
  have turn (y : UInt8) (before : Screen) (_ : y.toNat ≤ screen.win.maxy.toNat)
      (kept : Keeps config screen before) :
      ∃ next, wspacetoeol waddch (wmove before y 0) = some next ∧ Keeps config screen next := by
    have moved := keeps_wmove kept.sound y 0
    obtain ⟨next, printed, blanked⟩ := keeps_putBlanks puts moved.sound
      ((wmove before y 0).win.maxx - (wmove before y 0).win.x + 1).toNat
    exact ⟨next, printed, kept.trans (moved.trans blanked)⟩
  have bounded (_ : Nat) (before : Screen) (kept : Keeps config screen before) :
      before.win.maxy.toNat = screen.win.maxy.toNat := by
    rw [kept.maxy]
  have small := sound.inside.maxy
  obtain ⟨last, loops, kept⟩ := forUpTo_rule (i := screen.win.y + 1) small bounded turn
    (by decide : 0 < 256) (by omega) keeps
  refine ⟨wmove last screen.win.y screen.win.x, ?_, kept.trans (keeps_wmove kept.sound _ _)⟩
  rw [wclrtobot, wspacetoeol, first, Option.bind_some, clearRows, loops]
  rfl

theorem keeps_wclear (prints : PrintsInside config waddch) (sound : Sound config screen) :
    ∃ next, wclear config waddch screen = some next ∧ Keeps config screen next := by
  obtain ⟨next, clears, repaints⟩ := wclear_eq prints sound.inside
  exact ⟨next, clears, repaints.keeps sound (Nat.zero_le _) UInt8.zero_le⟩

theorem keeps_copyRow (puts : Puts config waddch) (sound : Sound config screen)
    (lines y : UInt8) :
    ∃ next, copyRow config waddch lines y screen = some next ∧ Keeps config screen next := by
  have turn (column : UInt8) (before : Screen) (_ : column.toNat ≤ screen.win.maxx.toNat)
      (kept : Keeps config screen before) :
      ∃ next, waddch before (before.image (cell config before.win (y.toNat + lines.toNat)
          before.win.x.toNat)) = some next ∧ Keeps config screen next := by
    obtain ⟨next, printed, put⟩ := puts before _ kept.sound
    exact ⟨next, printed, kept.trans put⟩
  have bounded (_ : Nat) (before : Screen) (kept : Keeps config screen before) :
      before.win.maxx.toNat = screen.win.maxx.toNat := by
    rw [kept.maxx]
  have small := sound.inside.maxx
  exact forUpTo_rule (i := 0) small bounded turn (by decide : 0 < 256) (by omega)
    (Keeps.refl sound)

theorem keeps_copyRows (puts : Puts config waddch) (sound : Sound config screen) (lines : UInt8) :
    ∃ next, copyRows config waddch lines screen = some next ∧ Keeps config screen next := by
  have turn (y : UInt8) (before : Screen)
      (_ : y.toNat ≤ screen.win.maxy.toNat - lines.toNat) (kept : Keeps config screen before) :
      ∃ next, copyRow config waddch lines y (wmove before y 0) = some next ∧
        Keeps config screen next := by
    have moved := keeps_wmove kept.sound y 0
    obtain ⟨next, copied, keeps⟩ := keeps_copyRow puts moved.sound lines y
    exact ⟨next, copied, kept.trans (moved.trans keeps)⟩
  have bounded (_ : Nat) (before : Screen) (kept : Keeps config screen before) :
      before.win.maxy.toNat - lines.toNat = screen.win.maxy.toNat - lines.toNat := by
    rw [kept.maxy]
  have small := sound.inside.maxy
  have less : screen.win.maxy.toNat - lines.toNat < 255 := by omega
  exact forUpTo_rule (i := 0) less bounded turn (by decide : 0 < 256) (by omega)
    (Keeps.refl sound)

theorem keeps_wscroll (prints : PrintsInside config waddch) (puts : Puts config waddch)
    (sound : Sound config screen) (lines : UInt8) :
    ∃ next, wscroll config waddch screen lines = some next ∧ Keeps config screen next := by
  rw [wscroll]
  split_ifs with all
  · exact keeps_wclear prints sound
  · obtain ⟨copied, loops, keeps⟩ := keeps_copyRows puts sound lines
    have moved := keeps.trans (keeps_wmove keeps.sound (copied.win.maxy - lines + 1) 0)
    obtain ⟨next, clears, cleared⟩ := keeps_wclrtobot puts moved.sound
    refine ⟨next, ?_, moved.trans cleared⟩
    rw [loops]
    exact clears

theorem keeps_waddstr {depth : Nat} (puts : Puts config (Tty.waddch config depth))
    (sound : Sound config screen) (text : List UInt8) :
    ∃ next, waddstr config depth text screen = some next ∧ Keeps config screen next := by
  induction text generalizing screen with
  | nil => exact ⟨screen, rfl, Keeps.refl sound⟩
  | cons ch text ih =>
      obtain ⟨middle, printed, put⟩ := puts screen ch sound
      obtain ⟨next, rest, keeps⟩ := ih put.sound
      refine ⟨next, ?_, put.trans keeps⟩
      rw [waddstr, printed]
      exact rest

/-- Every call ends, and keeps the window. -/
theorem keeps_callWindow {depth : Nat} (deep : 2 ≤ depth) (sound : Sound config screen)
    (call : Call) :
    ∃ next, callWindow config depth screen call = some next ∧ Keeps config screen next := by
  obtain ⟨depth, rfl⟩ := Nat.exists_eq_add_of_le' deep
  have prints := printsInside_waddch config (depth + 1)
  have puts := puts_waddch config depth
  cases call with
  | waddch ch => exact puts screen ch sound
  | waddstr text => exact keeps_waddstr puts sound text
  | wmove y x => exact ⟨_, rfl, keeps_wmove sound y x⟩
  | wclrtoeol => exact keeps_wclrtoeol puts sound
  | wclrtobot => exact keeps_wclrtobot puts sound
  | wclear => exact keeps_wclear prints sound
  | wscroll lines => exact keeps_wscroll prints puts sound lines
  | setFlags linewrap scrollok leaveok =>
      exact ⟨_, rfl, rfl, fun _ _ => rfl, ⟨sound.inside.maxx, sound.inside.maxy,
        sound.inside.right, sound.inside.bottom⟩, sound.left, sound.below, sound.plain⟩

end Keeping

/-- What a call of a window does to the screen. -/
structure Behaves {ι : Type*} [DecidableEq ι] (config : Config) (depth : Nat)
    (terminal : Terminal ι) (window : ι) (call : Call) (next : Terminal ι) : Prop where
  ends : step config depth terminal (window, call) = some next
  /-- Only the part of the window changes. -/
  framed : ∀ index, ¬Owns config (terminal.windows window) index →
    next.image index = terminal.image index
  /-- Scrolling moves the rows up and leaves blank ones. -/
  scrolls : ∀ lines, call = Call.wscroll lines → 0 < lines →
    lines ≤ (terminal.windows window).maxy →
      ∀ y x, y ≤ (terminal.windows window).maxy.toNat → x ≤ (terminal.windows window).maxx.toNat →
        next.image (cell config (terminal.windows window) y x) =
          if y + lines.toNat ≤ (terminal.windows window).maxy.toNat then
            terminal.image (cell config (terminal.windows window) (y + lines.toNat) x)
          else blank

section Terminals

variable {ι : Type*} {config : Config} {terminal : Terminal ι} {depth : Nat}

theorem plain_zero : Plain 0 := ⟨by decide, by decide⟩

theorem sound_newTerminal {windows : ι → Window}
    (inside : ∀ window, Inside config (windows window)) (window : ι) :
    Sound config ((newTerminal windows).screen window) :=
  ⟨⟨(inside window).maxx, (inside window).maxy, (inside window).right, (inside window).bottom⟩,
    UInt8.zero_le, Nat.zero_le _, fun _ => plain_zero⟩

variable [DecidableEq ι]

theorem behaves (deep : 2 ≤ depth) (sound : ∀ window, Sound config (terminal.screen window))
    (window : ι) (call : Call) :
    ∃ next, Behaves config depth terminal window call next ∧
      ∀ window, Sound config (next.screen window) := by
  obtain ⟨screen, called, keeps⟩ := keeps_callWindow deep (sound window) call
  refine ⟨⟨Function.update terminal.windows window screen.win, screen.image, screen.llY,
    screen.llX⟩, ⟨by rw [step, called]; rfl, keeps.framed, ?_⟩, fun other => ?_⟩
  · rintro lines rfl some_ few y x below left
    obtain ⟨depth, rfl⟩ := Nat.exists_eq_add_of_le' deep
    obtain ⟨next, scrolls, repaints⟩ := wscroll_eq (printsInside_waddch config (depth + 1))
      (sound window).inside (sound window).plain (UInt8.lt_iff_toNat_lt.mp some_)
      (UInt8.le_iff_toNat_le.mp few)
    obtain rfl := Option.some.inj (scrolls.symm.trans called)
    exact repaints.painted y x below left
  · by_cases same : other = window
    · subst same
      have win : Function.update terminal.windows other screen.win other = screen.win :=
        Function.update_self ..
      rw [Terminal.screen]
      dsimp only
      rw [win]
      exact keeps.sound
    · have win : Function.update terminal.windows window screen.win other =
          terminal.windows other := Function.update_of_ne same ..
      rw [Terminal.screen]
      dsimp only
      rw [win]
      exact ⟨(sound other).inside, (sound other).left, (sound other).below, keeps.sound.plain⟩

/-- After any calls for any windows, every call ends, changes the part of its window only, and
scrolls as it should, and all cursors are in their bounds. -/
theorem windows_behave (config : Config) (windows : ι → Window)
    (inside : ∀ window, Inside config (windows window)) (depth : Nat) (deep : 2 ≤ depth)
    (events : List (ι × Call)) :
    ∃ terminal, run (step config depth) (newTerminal windows) events = some terminal ∧
      ∀ window, (terminal.windows window).x ≤ (terminal.windows window).maxx ∧
        (terminal.windows window).y.toNat ≤ (terminal.windows window).maxy.toNat + 1 ∧
        ∀ call, ∃ next, Behaves config depth terminal window call next := by
  have progress (terminal : Terminal ι) (event : ι × Call)
      (sound : ∀ window, Sound config (terminal.screen window)) (_ : True) :
      ∃ next, step config depth terminal event = some next ∧
        ∀ window, Sound config (next.screen window) := by
    obtain ⟨next, behaves, kept⟩ := behaves deep sound event.1 event.2
    exact ⟨next, behaves.ends, kept⟩
  obtain ⟨terminal, runs, sound⟩ :=
    (guarded_true (newTerminal windows) events).exists_run progress (sound_newTerminal inside)
  refine ⟨terminal, runs, fun window => ⟨(sound window).left, (sound window).below, fun call => ?_⟩⟩
  obtain ⟨next, behaves, -⟩ := behaves deep sound window call
  exact ⟨next, behaves⟩

/-- The whole screen of four rows, and a window of two rows on it. -/
def twoWindows (sub : Bool) : Window where
  subwin := sub
  linewrap := true
  scrollok := true
  leaveok := true
  y := 0
  x := 0
  maxy := if sub then 1 else 3
  maxx := if sub then 4 else 15
  begy := if sub then 1 else 0
  begx := if sub then 2 else 0

/-- `"ab\ncdefg"` and another character scroll the small window. -/
def printLines : List (Bool × Call) :=
  [(true, Call.waddstr [97, 98, 10, 99, 100, 101, 102, 103]), (true, Call.waddch 104),
    (false, Call.wscroll 2)]

theorem windows_behave_twoWindows :
    ∃ terminal, run (step ⟨4, 16⟩ 2) (newTerminal twoWindows) printLines = some terminal ∧
      ∀ window, (terminal.windows window).x ≤ (terminal.windows window).maxx ∧
        (terminal.windows window).y.toNat ≤ (terminal.windows window).maxy.toNat + 1 ∧
        ∀ call, ∃ next, Behaves ⟨4, 16⟩ 2 terminal window call next :=
  windows_behave ⟨4, 16⟩ twoWindows
    (fun window => by cases window <;> exact ⟨by decide, by decide, by decide, by decide⟩) 2
    (Nat.le_refl 2) printLines

end Terminals

end Ethersex.Tty
